import StyleBuild.Text.Segments
import StyleBuild.Text.Affix

/-!
# Paths

A path is a text whose segments are separated by `/`. It is kept as written:
`join` puts two texts together and nothing is normalised. `components` is the
reading of a path as a list of steps. Repeated separators, a separator at the
end and the segment `.` take no step, except that a leading `.` is a step of
its own; `parent?`, `fileName?` and `withExtension` speak about that reading.
-/

namespace StyleBuild

structure Path where
  text : String
  deriving DecidableEq, Repr

namespace Path

open Text

/-- One step of a path. -/
inductive Component where
  | root
  | current
  | parent
  | name (text : List Char)
  deriving DecidableEq, Repr

def chars (p : Path) : List Char := p.text.toList

def ofChars (s : List Char) : Path := ⟨String.ofList s⟩

def empty : Path := ⟨""⟩

def isEmpty (p : Path) : Bool := p.chars.isEmpty

/-- Whether the path starts at the root. -/
def isAbsolute (p : Path) : Bool :=
  match p.chars with
  | '/' :: _ => true
  | _ => false

/-- A separator is put between the two texts when the first neither is empty nor ends in one. -/
def joinChars (a b : List Char) : List Char :=
  match b with
  | '/' :: _ => b
  | _ =>
    match a.getLast? with
    | none => b
    | some '/' => a ++ b
    | some _ => a ++ '/' :: b

/-- The path `b` as seen from `a`. -/
def join (a b : Path) : Path := ofChars (joinChars a.chars b.chars)

/-- A segment that takes no step. -/
def isSilent (s : List Char) : Bool := s.isEmpty || s == ['.']

/-- A path cut into what leads it, a root or a current directory, and the segments after that. -/
def leadAndSegments (s : List Char) : List Char × List (List Char) :=
  match s with
  | '/' :: rest => (['/'], segments '/' rest)
  | ['.'] => (['.'], [[]])
  | '.' :: '/' :: rest => (['.'], [] :: segments '/' rest)
  | _ => ([], segments '/' s)

def leadComponents (lead : List Char) : List Component :=
  if lead = ['/'] then [.root] else if lead = ['.'] then [.current] else []

def segmentComponent (s : List Char) : Component :=
  if s = ['.', '.'] then .parent else .name s

/-- The steps of a path. -/
def components (p : Path) : List Component :=
  let (lead, segs) := leadAndSegments p.chars
  leadComponents lead ++ (segs.filter (fun s => !isSilent s)).map segmentComponent

/-- The segments up to the last one that takes a step. -/
def trimSilent (segs : List (List Char)) : List (List Char) :=
  (segs.reverse.dropWhile isSilent).reverse

/-- The path without its last step, which the root does not count for. -/
def parent? (p : Path) : Option Path :=
  let (lead, segs) := leadAndSegments p.chars
  match trimSilent segs with
  | [] => if lead = ['.'] then some empty else none
  | steps => some (ofChars (lead ++ joined '/' (trimSilent steps.dropLast)))

/-- The text of the last step, when it is a name. -/
def fileName? (p : Path) : Option (List Char) :=
  match (trimSilent (leadAndSegments p.chars).2).getLast? with
  | some s => if s = ['.', '.'] then none else some s
  | none => none

/-- A file name cut at its last dot, which a leading dot does not count for. -/
def splitName (name : List Char) : List Char × Option (List Char) :=
  let after := (name.reverse.takeWhile (· ≠ '.')).reverse
  if after.length = name.length then (name, none)
  else
    let before := name.take (name.length - after.length - 1)
    if before.isEmpty then (name, none) else (before, some after)

def extension? (p : Path) : Option (List Char) := p.fileName?.bind fun name => (splitName name).2

/-- The path with the extension of its file name replaced, or put there. What follows the
file name is dropped. -/
def withExtension (p : Path) (ext : String) : Path :=
  match p.fileName? with
  | none => p
  | some name =>
    let (lead, segs) := leadAndSegments p.chars
    let name := (splitName name).1 ++ '.' :: ext.toList
    ofChars (lead ++ joined '/' ((trimSilent segs).dropLast ++ [name]))

/-- The directory part, empty for a path of one step and for the root. -/
def directory (p : Path) : Path := p.parent?.getD empty

/-- The path with `suffix` written directly after it. -/
def withSuffix (p : Path) (suffix : String) : Path := ⟨p.text ++ suffix⟩

end Path

end StyleBuild
