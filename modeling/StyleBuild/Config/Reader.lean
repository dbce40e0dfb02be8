import StyleBuild.Config.Basic
import StyleBuild.Text.Blank
import StyleBuild.Yaml.Typed

/-!
# Reading configurations

A configuration is a YAML mapping. Fields that are not given have their
defaults, unknown ones are passed over, and none may be given twice. A blank
text, which is not read at all, and a text without a document are the default
configuration.

A variable may be any scalar; its value is the text of it.
-/

namespace StyleBuild.Config

open Yaml (Anchors Step Reading)

/-- A configuration while it is read, and the names of the fields given so far. -/
structure Draft where
  config : Config
  given : List String

abbrev FieldReader := Anchors → List Step → Yaml.Node → Config → Reading Config

/-- How deep collections may nest in a field. -/
def fieldDepth : Nat := Yaml.deepest - 1

/-- The variables, whose values have to be scalars. -/
def scalars (values : Dictionary Yaml.Value) : Reading (Dictionary String) :=
  match values.entries.find? (fun e => e.2.scalarText?.isNone) with
  | some (name, _) => Yaml.mismatched (.notScalar name)
  | none => return values.map fun v => v.scalarText?.getD ""

def readPath (anchors : Anchors) (steps : List Step) (node : Yaml.Node) : Reading Path := do
  return ⟨← Yaml.readText .path anchors steps node⟩

def readTexts : Anchors → List Step → Yaml.Node → Reading (List String) :=
  Yaml.readList (Yaml.readText .string) fieldDepth

def readVariables (anchors : Anchors) (steps : List Step) (node : Yaml.Node) :
    Reading (Dictionary String) := do
  let read (depth : Nat) (anchors : Anchors) := Yaml.readValue anchors depth
  let values ← Yaml.readOption (Yaml.readDictionary (read (fieldDepth - 1)) fieldDepth)
    anchors steps node
  scalars (values.getD .empty)

def readMounts : Anchors → List Step → Yaml.Node → Reading (Dictionary (List Path)) :=
  Yaml.readDictionary (Yaml.readList readPath (fieldDepth - 1)) fieldDepth

/-- The fields of a configuration, by name. -/
def fieldReaders : List (String × FieldReader) :=
  [("production", fun a s n c => do
      return { c with production := ← Yaml.readBoolean a s n }),
    ("target", fun a s n c => do
      return { c with target := ← Yaml.readText .string a s n }),
    ("suffix", fun a s n c => do
      return { c with suffix := ← Yaml.readOption (Yaml.readText .string) a s n }),
    ("roots", fun a s n c => do return { c with roots := ← readTexts a s n }),
    ("entries", fun a s n c => do return { c with entries := ← readTexts a s n }),
    ("variables", fun a s n c => do return { c with bindings := ← readVariables a s n }),
    ("mounts", fun a s n c => do return { c with mounts := ← readMounts a s n }),
    ("metadata-dir", fun a s n c => do
      return { c with metadataDir := ← Yaml.readOption readPath a s n })]

/-- Reads the name of a field that was not given yet. -/
def readFieldName (anchors : Anchors) (steps : List Step) (draft : Draft) (node : Yaml.Node) :
    Reading String := do
  let name ← Yaml.readText .fieldName anchors steps node
  if draft.given.contains name ∧ (fieldReaders.lookup name).isSome then
    Yaml.mismatched (.duplicateField name)
  return name

def readField (anchors : Anchors) (steps : List Step) (draft : Draft) (name : String)
    (key node : Yaml.Node) : Reading Draft := do
  let given := name :: draft.given
  match fieldReaders.lookup name with
  | some read =>
    return ⟨← read anchors (Yaml.stepOf key :: steps) node draft.config, given⟩
  | none =>
    Yaml.ignore node
    return ⟨draft.config, given⟩

def read (anchors : Anchors) (steps : List Step) (node : Yaml.Node) : Reading Config := do
  let draft ← Yaml.readMapping (.record "PublishConfig") Yaml.deepest
    (readFieldName anchors steps) (readField anchors steps) ⟨default, []⟩ anchors steps node
  return draft.config

/-- The configuration in a text. -/
def ofText (text : List Char) : Except Error Config :=
  if Text.isAllBlank text then .ok default
  else
    match Yaml.readDocument text default read with
    | .ok c => .ok c
    | .error fault => .error (.config (.text fault))

/-- The configuration in a file, seen from the directory of that file. -/
def load (files : Files) (path : Path) : Except Error Config :=
  match files.readText path with
  | .error fault => .error (.files fault)
  | .ok text =>
    match ofText text.toList with
    | .ok c => .ok (c.rebase (path.parent?.getD ⟨"."⟩))
    | .error (.config (.text fault)) => .error (.config (.file path fault))
    | .error e => .error e

end StyleBuild.Config
