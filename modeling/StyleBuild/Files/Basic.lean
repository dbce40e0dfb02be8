import StyleBuild.Files.Fault
import StyleBuild.Lookup
import StyleBuild.Path

/-!
# Files

`Files` is a tree of directories and files, given as the nodes at locations.
A location is the list of names from the top. Paths are read the way a system
reads them: from the top or from the directory `home`, name by name, where
every segment but the last has to be a directory.

A file keeps its `id` for life; a file of the same name that replaces it has
another one. Times are nanoseconds, and may lie before the epoch.
-/

namespace StyleBuild

structure StoredFile where
  id : Nat
  content : ByteArray
  mode : Nat
  modified : Int

instance : DecidableEq StoredFile := fun a b =>
  decidable_of_iff (a.id = b.id ∧ a.content.data = b.content.data ∧ a.mode = b.mode ∧
    a.modified = b.modified) (by cases a; cases b; simp [ByteArray.ext_iff])

inductive Node where
  | file (f : StoredFile)
  | directory (mode : Nat) (modified : Int)
  deriving DecidableEq

/-- The names from the top of the tree down. -/
abbrev Location := List (List Char)

structure Files where
  nodes : List (Location × Node)
  home : Location
  nextId : Nat
  deriving DecidableEq

namespace Files

open Text

/-- The mode of a new file, which its group and others may only read. -/
def newFileMode : Nat := 0o644

def newDirectoryMode : Nat := 0o755

/-- A tree with the empty directory `home` and those above it. -/
def atHome (home : Location) (now : Int) : Files :=
  let above := (List.range (home.length + 1)).map fun n => home.take n
  ⟨above.map fun l => (l, .directory newDirectoryMode now), home, 0⟩

def nodeAt? (f : Files) (l : Location) : Option Node := f.nodes.lookup l

/-- Puts a node in the place of the one at a location, or adds it. -/
def put (f : Files) (l : Location) (node : Node) : Files :=
  { f with nodes := Lookup.setFirst l node f.nodes }

/-- Removes the node at a location. -/
def drop (f : Files) (l : Location) : Files :=
  { f with nodes := f.nodes.filter fun e => e.1 ≠ l }

theorem nodeAt?_put (f : Files) (l : Location) (node : Node) (l' : Location) :
    (f.put l node).nodeAt? l' = if l' = l then some node else f.nodeAt? l' :=
  Lookup.lookup_setFirst l node f.nodes l'

theorem nodeAt?_drop (f : Files) (l l' : Location) :
    (f.drop l).nodeAt? l' = if l' = l then none else f.nodeAt? l' :=
  Lookup.lookup_filter_ne l f.nodes l'

/-- Follows segments from a location; each one has to start in a directory. -/
def walk (f : Files) (here : Location) : List (List Char) → Except Fault Location
  | [] => .ok here
  | s :: rest =>
    match f.nodeAt? here with
    | none => .error .notFound
    | some (.file _) => .error .notADirectory
    | some (.directory ..) =>
      if Path.isSilent s then walk f here rest
      else if s = ['.', '.'] then walk f here.dropLast rest
      else walk f (here ++ [s]) rest

/-- Where a path starts. -/
def origin (f : Files) (p : Path) : Location := if p.isAbsolute then [] else f.home

/-- The location of a path, and the node there. -/
def find (f : Files) (p : Path) : Except Fault (Location × Node) :=
  if p.isEmpty then .error .notFound
  else
    match f.walk (f.origin p) (segments '/' p.chars) with
    | .error e => .error e
    | .ok l =>
      match f.nodeAt? l with
      | none => .error .notFound
      | some node => .ok (l, node)

def isFile (f : Files) (p : Path) : Bool :=
  match f.find p with
  | .ok (_, .file _) => true
  | _ => false

def isDirectory (f : Files) (p : Path) : Bool :=
  match f.find p with
  | .ok (_, .directory ..) => true
  | _ => false

def has (f : Files) (p : Path) : Bool :=
  match f.find p with
  | .ok _ => true
  | .error _ => false

/-- The content of a file. -/
def read (f : Files) (p : Path) : Except Fault ByteArray :=
  match f.find p with
  | .error e => .error e
  | .ok (_, .directory ..) => .error .isADirectory
  | .ok (_, .file file) => .ok file.content

/-- The content of a file as text. -/
def readText (f : Files) (p : Path) : Except Fault String :=
  match f.read p with
  | .error e => .error e
  | .ok content =>
    match String.fromUTF8? content with
    | none => .error .invalidData
    | some text => .ok text

/-- When a file or directory was modified. -/
def modified (f : Files) (p : Path) : Except Fault Int :=
  match f.find p with
  | .error e => .error e
  | .ok (_, .file file) => .ok file.modified
  | .ok (_, .directory _ modified) => .ok modified

/-- The permission bits of a file or directory. -/
def mode (f : Files) (p : Path) : Except Fault Nat :=
  match f.find p with
  | .error e => .error e
  | .ok (_, .file file) => .ok file.mode
  | .ok (_, .directory mode _) => .ok mode

/-- The last segment of a path, for an entry that may be missing. -/
structure Entry where
  directory : Location
  name : List Char
  /-- The path ends in a separator, which only fits a directory. -/
  separated : Bool

inductive Target where
  | entry (e : Entry)
  /-- The path names a directory by its place: the top, `.` or `..`. -/
  | place

/-- The entry that a path names in a directory that exists. -/
def target (f : Files) (p : Path) : Except Fault Target :=
  if p.isEmpty then .error .notFound
  else
    let segs := segments '/' p.chars
    let bare := (segs.reverse.dropWhile List.isEmpty).reverse
    match bare.getLast? with
    | none => .ok .place
    | some last =>
      match f.walk (f.origin p) bare.dropLast with
      | .error e => .error e
      | .ok directory =>
        match f.nodeAt? directory with
        | none => .error .notFound
        | some (.file _) => .error .notADirectory
        | some (.directory ..) =>
          if last = ['.'] ∨ last = ['.', '.'] then .ok .place
          else .ok (.entry ⟨directory, last, bare.length < segs.length⟩)

end Files

end StyleBuild
