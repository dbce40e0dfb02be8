import StyleBuild.Dictionary
import StyleBuild.Scss.Value

/-!
# Variables in scopes

Variables outside of blocks are global, and every file sees them. A block has a
scope of its own. An assignment in a block changes the variable of a block
around it, but not a global one. Hyphens and underscores in names are the same.
-/

namespace StyleBuild.Scss

structure Scopes where
  globals : Dictionary Value
  /-- The scopes of the blocks, the innermost one first. -/
  blocks : List (Dictionary Value)

namespace Scopes

def empty : Scopes := ⟨.empty, []⟩

/-- The name under which a variable is kept. -/
def key (name : List Char) : String :=
  String.ofList (name.map fun c => if c = '_' then '-' else c)

def find? (s : Scopes) (name : List Char) : Option Value :=
  match s.blocks.findSome? (·.find? (key name)) with
  | some value => some value
  | none => s.globals.find? (key name)

def assignIn (name : String) (value : Value) : List (Dictionary Value) → List (Dictionary Value)
  | [] => []
  | d :: ds => if d.contains name then d.insert name value :: ds else d :: assignIn name value ds

def assign (s : Scopes) (name : List Char) (value : Value) : Scopes :=
  let name := key name
  match s.blocks with
  | [] => { s with globals := s.globals.insert name value }
  | d :: ds =>
    if s.blocks.any (·.contains name) then { s with blocks := assignIn name value s.blocks }
    else { s with blocks := d.insert name value :: ds }

def enter (s : Scopes) : Scopes := { s with blocks := .empty :: s.blocks }

def leave (s : Scopes) : Scopes := { s with blocks := s.blocks.tail }

end Scopes

end StyleBuild.Scss
