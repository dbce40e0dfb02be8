import StyleBuild.Files.Basic

/-!
# Changes of files

Making directories, opening, writing, removing, and moving a file over another.
A change of a directory's entries is a modification of the directory.

`createDirectories` makes what is missing on the way to a directory; when it
fails, directories made before may stay. Every other operation either succeeds
or leaves the files as they were.
-/

namespace StyleBuild.Files

open Text

/-- Marks a directory as modified. -/
def touchDirectory (f : Files) (now : Int) (l : Location) : Files :=
  match f.nodeAt? l with
  | some (.directory mode _) => f.put l (.directory mode now)
  | _ => f

/-- Adds a node below a directory. -/
def addEntry (f : Files) (now : Int) (directory : Location) (name : List Char) (node : Node) :
    Files :=
  (f.put (directory ++ [name]) node).touchDirectory now directory

/-- Adds a new file; its id was never used before. -/
def addFile (f : Files) (now : Int) (directory : Location) (name : List Char)
    (content : ByteArray) (mode : Nat) : Files :=
  { f.addEntry now directory name (.file ⟨f.nextId, content, mode, now⟩) with
    nextId := f.nextId + 1 }

/-- Makes one directory, whose parent has to exist. -/
def makeDirectory (f : Files) (now : Int) (p : Path) : Except Fault Files :=
  match f.target p with
  | .error e => .error e
  | .ok .place => .error .alreadyExists
  | .ok (.entry e) =>
    match f.nodeAt? (e.directory ++ [e.name]) with
    | some _ => .error .alreadyExists
    | none => .ok (f.addEntry now e.directory e.name (.directory newDirectoryMode now))

/-- Makes a directory and those above it; `fuel` bounds the way up. -/
def createDirectoriesUpTo (f : Files) (now : Int) : Nat → Path → Files × Except Fault Unit
  | 0, _ => (f, .ok ())
  | fuel + 1, p =>
    if p.isEmpty then (f, .ok ())
    else
      match f.makeDirectory now p with
      | .ok f => (f, .ok ())
      | .error .notFound =>
        match p.parent? with
        | none => (f, .error .notFound)
        | some parent =>
          match f.createDirectoriesUpTo now fuel parent with
          | (f, .error e) => (f, .error e)
          | (f, .ok ()) =>
            match f.makeDirectory now p with
            | .ok f => (f, .ok ())
            | .error e => (f, if f.isDirectory p then .ok () else .error e)
      | .error e => (f, if f.isDirectory p then .ok () else .error e)

/-- Makes a directory and those above it that are missing. The empty path needs none. -/
def createDirectories (f : Files) (now : Int) (p : Path) : Files × Except Fault Unit :=
  f.createDirectoriesUpTo now (p.components.length + 1) p

/-- Opens a file for writing; a missing one is made, empty. -/
def openForWriting (f : Files) (now : Int) (p : Path) : Except Fault (Files × Location) :=
  match f.target p with
  | .error e => .error e
  | .ok .place => .error .isADirectory
  | .ok (.entry e) =>
    if e.separated then .error .isADirectory
    else
      let l := e.directory ++ [e.name]
      match f.nodeAt? l with
      | some (.directory ..) => .error .isADirectory
      | some (.file _) => .ok (f, l)
      | none => .ok (f.addFile now e.directory e.name ByteArray.empty newFileMode, l)

/-- Writes a file in place. -/
def write (f : Files) (now : Int) (p : Path) (content : ByteArray) : Except Fault Files :=
  match f.openForWriting now p with
  | .error e => .error e
  | .ok (f, l) =>
    match f.nodeAt? l with
    | some (.file file) => .ok (f.put l (.file { file with content, modified := now }))
    | _ => .ok f

/-- Whether `l` lies at or below `top`. -/
def isBelow (top l : Location) : Bool := top.isPrefixOf l

/-- Removes a file, or a directory with everything in it. -/
def remove (f : Files) (now : Int) (p : Path) : Except Fault Files :=
  match f.find p with
  | .error e => .error e
  | .ok (l, _) =>
    let left := { f with nodes := f.nodes.filter fun e => !isBelow l e.1 }
    .ok (left.touchDirectory now l.dropLast)

def setMode (f : Files) (p : Path) (mode : Nat) : Except Fault Files :=
  match f.find p with
  | .error e => .error e
  | .ok (l, .file file) => .ok (f.put l (.file { file with mode }))
  | .ok (l, .directory _ modified) => .ok (f.put l (.directory mode modified))

def setModified (f : Files) (p : Path) (modified : Int) : Except Fault Files :=
  match f.find p with
  | .error e => .error e
  | .ok (l, .file file) => .ok (f.put l (.file { file with modified }))
  | .ok (l, .directory mode _) => .ok (f.put l (.directory mode modified))

/-- Moves the file at a location over what a path names, in one step. -/
def moveOver (f : Files) (now : Int) (directory : Location) (name : List Char) (p : Path) :
    Except Fault Files :=
  match f.nodeAt? (directory ++ [name]) with
  | some (.file file) =>
    match f.target p with
    | .error e => .error e
    | .ok .place => .error .busy
    | .ok (.entry e) =>
      if e.separated then .error .notADirectory
      else
        match f.nodeAt? (e.directory ++ [e.name]) with
        | some (.directory ..) => .error .isADirectory
        | _ =>
          let f := (f.drop (directory ++ [name])).touchDirectory now directory
          .ok (f.addEntry now e.directory e.name (.file file))
  | _ => .error .notFound

end StyleBuild.Files
