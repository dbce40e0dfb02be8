import StyleBuild.Engine.ImportFiles

/-!
# Dialogues

A dialogue is what an engine does between two answers: it asks whether there is
a file at a path, or for the text of one, and goes on with the answer. An engine
that is a dialogue sees files in no other way.

A failure to read a file wins over whatever the engine makes of the empty text
that it got instead.
-/

namespace StyleBuild

inductive Dialogue (α : Type) where
  | done (a : α)
  | isFile (p : Path) (next : Bool → Dialogue α)
  | read (p : Path) (next : String → Dialogue α)

namespace Dialogue

variable {α β : Type}

/-- Goes on with the outcome of a dialogue. -/
def bind : Dialogue α → (α → Dialogue β) → Dialogue β
  | done a, f => f a
  | isFile p next, f => isFile p fun found => (next found).bind f
  | read p next, f => read p fun text => (next text).bind f

instance : Monad Dialogue where
  pure := done
  bind := bind

/-- Holds the dialogue, with answers from the files of a compilation. -/
def run (request : CompileRequest) : Dialogue α → ImportFiles → α × ImportFiles
  | done a, s => (a, s)
  | isFile p next, s =>
    let (hit, s) := s.lookup request.importer.resolve p
    (next hit.isSome).run request s
  | read p next, s =>
    let (text, s) := s.read request p
    (next text).run request s

end Dialogue

/-- The engine that holds a dialogue about a program, whose outcome is CSS or a complaint. -/
def Engine.ofDialogue (name : String)
    (talk : OutputFormat → String → Dialogue (Except String String)) : Engine where
  name := name
  compile request := do
    let program ← request.functions.expand request.source
    let (outcome, files) := (talk request.formatter.format program.text).run request .empty
    match files.failure, outcome with
    | some failure, _ => throw failure
    | none, .error message => throw (.rejected (.complaint message))
    | none, .ok css => return ⟨css, files.sources⟩

end StyleBuild
