/-!
# Faults of the file system

The kinds of failure that an operation on files can meet.
-/

namespace StyleBuild.Files

inductive Fault where
  | notFound
  | notADirectory
  | isADirectory
  | alreadyExists
  /-- The place is in use by the system itself, such as a working directory. -/
  | busy
  /-- A directory was to be removed with its content still in it. -/
  | notEmpty
  /-- The content is not text in UTF-8. -/
  | invalidData
  deriving DecidableEq, Repr

end StyleBuild.Files
