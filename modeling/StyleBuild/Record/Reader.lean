import StyleBuild.Json.Typed
import StyleBuild.Record.Basic

/-!
# Reading compile records

A record is read from a JSON object with its fields in any order, or from a
list of their values in order. Fields that a record does not have are read
over. Variables and imports may be missing.
-/

namespace StyleBuild.CompileRecord

open Json

def wantedRecord : Wanted := .record "CompileRecord"

/-- The fields read so far. -/
structure Draft where
  version : Option Nat
  file : Option (List Char)
  fingerprint : Option (List Char)
  compiledAt : Option Nat
  production : Option Bool
  bindings : Option (List (List Char × List Char))
  imports : Option (List (List Char))

def Draft.blank : Draft := ⟨none, none, none, none, none, none, none⟩

def readVersion (s : List Char) : Except Stop (Nat × List Char) :=
  readNatural .natural32 (Nat.pow 2 32) s

def readCompiledAt (s : List Char) : Except Stop (Nat × List Char) :=
  readNatural .natural64 (Nat.pow 2 64) s

def variablesOf (entries : List (List Char × List Char)) : Dictionary String :=
  Dictionary.ofList (entries.map fun e => (String.ofList e.1, String.ofList e.2))

/-- The record with these fields, or the first field that is missing. -/
def Draft.record? (d : Draft) : Except Problem CompileRecord := do
  let need {α : Type} (name : String) (value : Option α) : Except Problem α :=
    match value with
    | some x => .ok x
    | none => .error (.missingField name)
  let version ← need "version" d.version
  let file ← need "file" d.file
  let fingerprint ← need "fingerprint" d.fingerprint
  let compiledAt ← need "compiled_at" d.compiledAt
  let production ← need "production" d.production
  return { version := version.toUInt32
           file := String.ofList file
           fingerprint := ⟨String.ofList fingerprint⟩
           compiledAt := compiledAt.toUInt64
           production
           bindings := variablesOf (d.bindings.getD [])
           imports := (d.imports.getD []).map Path.ofChars }

/-- A problem with an object as a whole is placed behind its end, if that is next. -/
def stopAfterObject (problem : Problem) (s : List Char) : Stop :=
  match skipBlank s with
  | '}' :: rest => stopAt problem rest
  | rest => stopAt problem rest

/-- A problem with a list as a whole is placed behind its end, or behind the comma, if one of
them is next. -/
def stopAfterList (problem : Problem) (s : List Char) : Stop :=
  match skipBlank s with
  | ']' :: rest => stopAt problem rest
  | ',' :: rest => stopAt problem (skipBlank rest)
  | rest => stopAt problem rest

/-- Reads the value of one field, unless the field was read before. -/
def readField {α : Type} (name : String) (old : Option α)
    (read : List Char → Except Stop (α × List Char)) (put : α → Draft) (s : List Char) :
    Except Stop (Draft × List Char) := do
  if old.isSome then throw (stopAfterObject (.duplicateField name) s)
  let rest ← readColon s
  let (value, rest) ← read rest
  return (put value, rest)

/-- Reads an entry behind its key. -/
def readEntry (d : Draft) (key : String) (s : List Char) : Except Stop (Draft × List Char) :=
  if key = "version" then
    readField key d.version readVersion (fun x => { d with version := some x }) s
  else if key = "file" then
    readField key d.file (readString .string) (fun x => { d with file := some x }) s
  else if key = "fingerprint" then
    readField key d.fingerprint (readString .string) (fun x => { d with fingerprint := some x }) s
  else if key = "compiled_at" then
    readField key d.compiledAt readCompiledAt (fun x => { d with compiledAt := some x }) s
  else if key = "production" then
    readField key d.production readBoolean (fun x => { d with production := some x }) s
  else if key = "variables" then
    readField key d.bindings readStringMap (fun x => { d with bindings := some x }) s
  else if key = "imports" then
    readField key d.imports (readStrings .path) (fun x => { d with imports := some x }) s
  else do
    let rest ← readColon s
    let rest ← skipValue rest
    return (d, rest)

/-- Reads the entries of an object; `fuel` bounds their number. -/
def readEntriesFrom : Nat → Bool → Draft → List Char → Except Stop (Draft × List Char)
  | 0, _, d, s => .ok (d, s)
  | fuel + 1, first, d, s => do
    match ← nextKey first s with
    | none => return (d, s)
    | some rest =>
      let (key, rest) ← scanString rest
      let (d, rest) ← readEntry d (String.ofList key) rest
      readEntriesFrom fuel false d rest

/-- Reads a record behind the opening brace. -/
def readObject (s : List Char) : Except Stop (CompileRecord × List Char) := do
  let (d, rest) ← readEntriesFrom (s.length + 1) true .blank s
  match d.record? with
  | .error problem => throw (stopAfterObject problem rest)
  | .ok record =>
    let rest ← endObject rest
    return (record, rest)

/-- Reads the values of a record behind the opening bracket. -/
def readList (s : List Char) : Except Stop (CompileRecord × List Char) := do
  let next {α : Type} (n : Nat) (read : List Char → Except Stop (α × List Char)) (s : List Char) :
      Except Stop (α × List Char) := do
    match ← nextElement (n == 0) s with
    | none => throw (stopAfterList (.tooShort n wantedRecord 7) s)
    | some rest => read rest
  let nextOr {α : Type} (other : α) (read : List Char → Except Stop (α × List Char))
      (s : List Char) : Except Stop (α × List Char) := do
    match ← nextElement false s with
    | none => return (other, s)
    | some rest => read rest
  let (version, s) ← next 0 readVersion s
  let (file, s) ← next 1 (readString .string) s
  let (fingerprint, s) ← next 2 (readString .string) s
  let (compiledAt, s) ← next 3 readCompiledAt s
  let (production, s) ← next 4 readBoolean s
  let (bindings, s) ← nextOr [] readStringMap s
  let (imports, s) ← nextOr [] (readStrings .path) s
  let rest ← endList s
  return ({ version := version.toUInt32
            file := String.ofList file
            fingerprint := ⟨String.ofList fingerprint⟩
            compiledAt := compiledAt.toUInt64
            production
            bindings := variablesOf bindings
            imports := imports.map Path.ofChars }, rest)

/-- Reads a whole text as one record. -/
def readChars (s : List Char) : Except Stop CompileRecord := do
  let (record, rest) ← match skipBlank s with
    | [] => Except.error (stopBehind .endInValue [])
    | '{' :: rest => readObject rest
    | '[' :: rest => readList rest
    | rest => Except.error (mismatch wantedRecord rest)
  match skipBlank rest with
  | [] => return record
  | rest => throw (stopBehind .trailingCharacters rest)

/-- The record that a text holds. -/
def read (text : String) : Except Fault CompileRecord :=
  match readChars text.toList with
  | .error stop => .error (Fault.ofStop text.toList stop)
  | .ok record => .ok record

end StyleBuild.CompileRecord
