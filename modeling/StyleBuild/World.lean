import StyleBuild.Error
import StyleBuild.Files.Replace
import StyleBuild.Record.Basic

/-!
# The world of a publisher

What publishers share: the files, the clock, the locks that are held, and the
records that are kept in memory. The clock counts nanoseconds since the epoch;
it stands still unless it is advanced.
-/

namespace StyleBuild

structure World where
  files : Files
  now : Nat
  /-- The ids of the lock files that are locked. -/
  held : List Nat
  /-- The records of each store in memory. -/
  memory : List (Dictionary CompileRecord)

namespace World

def empty (home : Location) (now : Nat) : World := ⟨.atHome home now, now, [], []⟩

def advance (w : World) (nanoseconds : Nat) : World := { w with now := w.now + nanoseconds }

/-- The clock in whole milliseconds. -/
def milliseconds (w : World) : Nat := w.now / 1000000

/-- Makes the parent directories of a path. -/
def createParents (w : World) (p : Path) : World × Except Error Unit :=
  match p.parent? with
  | none => (w, .ok ())
  | some parent =>
    match w.files.createDirectories w.now parent with
    | (files, .ok ()) => ({ w with files }, .ok ())
    | (files, .error fault) => ({ w with files }, .error (.files fault))

/-- Replaces a file in one step. -/
def replaceFile (w : World) (p : Path) (content : ByteArray) : World × Except Error Unit :=
  match w.files.replace w.now p content with
  | (files, .ok ()) => ({ w with files }, .ok ())
  | (files, .error fault) => ({ w with files }, .error (.files fault))

end World

end StyleBuild
