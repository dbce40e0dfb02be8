import StyleBuild.Engine.Basic
import StyleBuild.LineComment

/-!
# The files of a compilation

An engine asks for files by path: a token with the extension of sources, as
seen from the file that imports it. `ImportFiles.lookup` answers such a path
from the importer. The first answer for a path is kept; a path that cannot be
found yet is asked for again.

A nested import is asked for below the directory of its importer. Where nothing
is found there, it is looked up again without that directory, and so from the
top of the roots: every directory of a path that was found is tried, the longest
first.

`ImportFiles.read` gives the text of a file with its functions expanded. It does
not fail: the first failure is kept, and the text is empty instead.
-/

namespace StyleBuild

open Text

structure ImportFiles where
  /-- The paths that were found, in order. -/
  resolved : List (Path × ResolvedImport)
  /-- The files that were read, in the order of their first reading. -/
  sources : List Path
  /-- The first failure to read a file. -/
  failure : Option Error

namespace ImportFiles

def empty : ImportFiles := ⟨[], [], none⟩

/-- The answer that was given for a path with the same steps. -/
def known? (s : ImportFiles) (p : Path) : Option ResolvedImport :=
  (s.resolved.find? fun e => e.1.components == p.components).map (·.2)

/-- Backslashes separate like slashes. -/
def withSlashes (s : List Char) : List Char := s.map fun c => if c = '\\' then '/' else c

/-- The token that a path stands for. Only sources have one, and not those that are made for
imports alone. -/
def token? (p : Path) : Option String :=
  let s := withSlashes p.chars
  let s := (afterStart? "./".toList s).getD s
  if endsWith sourceExtension.toList s && !endsWith ".import.scss".toList s then
    some (String.ofList s)
  else none

def byteLength (s : List Char) : Nat := (String.ofList s).utf8ByteSize

/-- Longer directories come before shorter ones, equally long ones in the order of their text. -/
def comesBefore (a b : List Char) : Bool :=
  byteLength b < byteLength a || (byteLength a == byteLength b && String.ofList a ≤ String.ofList b)

/-- The directories of the paths that were found, each one once. -/
def directories (s : ImportFiles) : List (List Char) :=
  let dirs := s.resolved.filterMap fun e => e.1.parent?.map fun d => withSlashes d.chars
  (dirs.filter (fun d => !d.isEmpty)).eraseDups.mergeSort comesBefore

/-- Looks a token up without the directory that it starts with. -/
def resolveFromRoot (resolve : String → Option ResolvedImport) (s : ImportFiles)
    (token : String) : Option ResolvedImport :=
  s.directories.findSome? fun dir =>
    match afterStart? (dir ++ ['/']) token.toList with
    | some rest => resolve (String.ofList rest)
    | none => none

/-- Looks up a path that was not found before. -/
def find (resolve : String → Option ResolvedImport) (s : ImportFiles) (p : Path) :
    Option ResolvedImport :=
  match token? p with
  | none => none
  | some token =>
    match resolve token with
    | some hit => some hit
    | none => s.resolveFromRoot resolve token

/-- The import that a path stands for. -/
def lookup (resolve : String → Option ResolvedImport) (s : ImportFiles) (p : Path) :
    Option ResolvedImport × ImportFiles :=
  match s.known? p with
  | some hit => (some hit, s)
  | none =>
    match s.find resolve p with
    | some hit => (some hit, { s with resolved := s.resolved ++ [(p, hit)] })
    | none => (none, s)

/-- The text of an import, with functions expanded and line comments where they are wanted. -/
def load (request : CompileRequest) (hit : ResolvedImport) : Except Error String := do
  let content ← (request.importer.read hit.path).mapError .files
  let source ← match String.fromUTF8? content with
    | some source => pure source
    | none => throw (.rejected (.notText hit.logical))
  let expansion ← request.functions.expand source
  return if request.formatter.lineComments then LineComment.annotate expansion.text hit.logical
    else expansion.text

/-- Adds a file, unless a path with the same steps is there. -/
def addSource (s : ImportFiles) (p : Path) : ImportFiles :=
  if s.sources.any fun q => q.components == p.components then s
  else { s with sources := s.sources ++ [p] }

def keepFailure (s : ImportFiles) (e : Error) : ImportFiles :=
  { s with failure := some (s.failure.getD e) }

/-- The text of the file at a path, empty when it cannot be had. -/
def read (request : CompileRequest) (s : ImportFiles) (p : Path) : String × ImportFiles :=
  match s.lookup request.importer.resolve p with
  | (none, s) => ("", s.keepFailure (.rejected (.missingImport p)))
  | (some hit, s) =>
    match load request hit with
    | .ok text => (text, s.addSource hit.path)
    | .error e => ("", s.keepFailure e)

end ImportFiles

end StyleBuild
