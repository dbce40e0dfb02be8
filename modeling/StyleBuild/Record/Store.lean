import StyleBuild.Record.Reader
import StyleBuild.Record.Writer
import StyleBuild.World

/-!
# Stores of compile records

A store keeps one record for each output id: in a file `<id>.meta.json` below a
directory, or in memory. A store of files takes only ids that stay below its
directory, and answers that there is no record when it was written in a later
version of the format.
-/

namespace StyleBuild

inductive RecordStore where
  | files (dir : Path)
  | memory (index : Nat)
  deriving DecidableEq, Repr

namespace RecordStore

/-- Whether every step of an id is a name. -/
def isValidId (id : String) : Bool :=
  !id.isEmpty && (Path.mk id).components.all fun
    | .name _ => true
    | _ => false

/-- The file that holds the record of an output. -/
def recordPath (dir : Path) (id : String) : Except Error Path :=
  if isValidId id then .ok (dir.join ⟨id ++ ".meta.json"⟩) else .error (.record (.invalidId id))

/-- A new store in memory. -/
def inMemory (w : World) : World × RecordStore :=
  ({ w with memory := w.memory ++ [.empty] }, .memory w.memory.length)

/-- Keeps a record in the place of an earlier one for the same output. -/
def put (store : RecordStore) (w : World) (r : CompileRecord) : World × Except Error Unit :=
  match store with
  | .memory i => ({ w with memory := w.memory.modify i fun d => d.insert r.file r }, .ok ())
  | .files dir =>
    match recordPath dir r.file with
    | .error e => (w, .error e)
    | .ok path =>
      match w.createParents path with
      | (w, .error e) => (w, .error e)
      | (w, .ok ()) => w.replaceFile path r.write.toUTF8

/-- The record of an output, if there is one. -/
def get (store : RecordStore) (w : World) (id : String) : Except Error (Option CompileRecord) :=
  match store with
  | .memory i => .ok ((w.memory[i]?).bind (·.find? id))
  | .files dir =>
    match recordPath dir id with
    | .error e => .error e
    | .ok path =>
      if w.files.has path then
        match w.files.readText path with
        | .error fault => .error (.files fault)
        | .ok text =>
          match CompileRecord.read text with
          | .error fault => .error (.record (.unreadable path fault))
          | .ok r => .ok (if currentRecordVersion < r.version then none else some r)
      else .ok none

/-- The fingerprint in the record of an output. -/
def fingerprint (store : RecordStore) (w : World) (id : String) :
    Except Error (Option Fingerprint) :=
  (store.get w id).map fun r => r.map (·.fingerprint)

end RecordStore

end StyleBuild
