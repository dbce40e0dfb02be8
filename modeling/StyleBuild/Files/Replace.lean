import StyleBuild.Files.Change

/-!
# Replacing a file

`replace` writes a content to a file in the same directory under a name that is
not in use, and moves that file over the old one, so that readers see either
the old file or the new one. A file that is replaced passes on its mode. When a
step fails, nothing is left behind.
-/

namespace StyleBuild.Files

/-- A name that is longer than every name in use. -/
def freshName (f : Files) : List Char :=
  let longest := f.nodes.foldl (fun n e => max n (e.1.foldl (fun n s => max n s.length) 0)) 0
  ".tmp".toList ++ List.replicate longest 'x'

/-- The directory of a path, as a path that can be opened. -/
def directoryOf (p : Path) : Path :=
  if p.directory.isEmpty then ⟨"."⟩ else p.directory

/-- The directory in which the new content is prepared. -/
def openDirectory (f : Files) (p : Path) : Except Fault Location :=
  match f.find p with
  | .error e => .error e
  | .ok (_, .file _) => .error .notADirectory
  | .ok (l, .directory ..) => .ok l

/-- Makes `content` the content of the file at `p`, in one step. -/
def replace (f : Files) (now : Int) (p : Path) (content : ByteArray) : Files × Except Fault Unit :=
  match f.openDirectory (directoryOf p) with
  | .error e => (f, .error e)
  | .ok directory =>
    let name := f.freshName
    let mode := match f.mode p with
      | .ok mode => mode
      | .error _ => newFileMode
    let prepared := f.addFile now directory name content mode
    match prepared.moveOver now directory name p with
    | .ok f => (f, .ok ())
    | .error e => ((prepared.drop (directory ++ [name])).touchDirectory now directory, .error e)

end StyleBuild.Files
