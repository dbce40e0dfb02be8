import StyleBuild.Error
import StyleBuild.Path

/-!
# Mounts

A logical path such as `theme/scss/button.scss` is the name of a mount and a
remainder. A mount stands for a list of directories; the first one that holds
the remainder wins, so earlier directories override later ones.

`select` finds the mount with the longest name that fits at a segment boundary,
`candidates` the physical paths that a logical path may stand for, in order, and
`writable` the one to which output goes.
-/

namespace StyleBuild

open Text

structure Mount where
  name : String
  dirs : List Path
  deriving DecidableEq, Repr

/-- Mounts in the order in which they were added. -/
structure Mounts where
  all : List Mount
  deriving DecidableEq, Repr

namespace Mounts

def empty : Mounts := ⟨[]⟩

/-- A text without separators at its ends. -/
def trimSeparators (s : List Char) : List Char :=
  ((s.dropWhile (· = '/')).reverse.dropWhile (· = '/')).reverse

/-- Adds a mount, which replaces one of the same name. -/
def add (m : Mounts) (name : String) (dirs : List Path) : Mounts :=
  let name := String.ofList (trimSeparators name.toList)
  ⟨m.all.filter (fun mount => mount.name ≠ name) ++ [⟨name, dirs⟩]⟩

def ofList (l : List (String × List Path)) : Mounts :=
  l.foldl (fun m e => m.add e.1 e.2) empty

def dirs? (m : Mounts) (name : String) : Option (List Path) :=
  (m.all.find? (·.name = name)).map (·.dirs)

/-- What follows the name of a mount in a logical path, when the name is its beginning at a
segment boundary. -/
def remainder? (name logical : List Char) : Option (List Char) :=
  match afterStart? name logical with
  | none => none
  | some rest =>
    if name = [] then some rest
    else
      match rest with
      | [] => some []
      | '/' :: rest => some rest
      | _ => none

/-- Of two fitting mounts the one with the longer name, of equally long ones the later. -/
def longest : List (Mount × List Char) → Option (Mount × List Char)
  | [] => none
  | hit :: hits =>
    match longest hits with
    | none => some hit
    | some best =>
      if best.1.name.utf8ByteSize < hit.1.name.utf8ByteSize then some hit else some best

/-- Whether a remainder could lead out of its mount. -/
def escapes (rest : Path) : Bool :=
  rest.components.any fun c => c = .root || c = .parent

/-- The mount of a logical path, and the remainder below it. -/
def select (m : Mounts) (logical : String) : Except Error (Mount × Path) :=
  let hits := m.all.filterMap fun mount =>
    (remainder? mount.name.toList logical.toList).map fun rest => (mount, rest)
  match longest hits with
  | none => .error (.unknownMount logical)
  | some (mount, rest) =>
    let rest := Path.ofChars rest
    if escapes rest then .error (.invalidResourcePath logical) else .ok (mount, rest)

/-- The physical paths that a logical path may stand for, in order. -/
def candidates (m : Mounts) (logical : String) : List Path :=
  match m.select logical with
  | .error _ => []
  | .ok (mount, rest) => if rest.isEmpty then [] else mount.dirs.map (·.join rest)

/-- The first candidate that is a file. -/
def find? (m : Mounts) (isFile : Path → Bool) (logical : String) : Option Path :=
  (m.candidates logical).find? isFile

/-- The first of several logical paths that stands for a file. -/
def findFirst? (m : Mounts) (isFile : Path → Bool) (logicals : List String) :
    Option (String × Path) :=
  logicals.findSome? fun logical => (m.find? isFile logical).map fun path => (logical, path)

/-- Where output for a logical path goes: into the first directory of its mount. -/
def writable (m : Mounts) (logical : String) : Except Error Path :=
  match m.select logical with
  | .error e => .error e
  | .ok (mount, rest) =>
    if rest.isEmpty then .error (.invalidResourcePath logical)
    else
      match mount.dirs with
      | [] => .error (.unknownMount logical)
      | dir :: _ => .ok (dir.join rest)

end Mounts

end StyleBuild
