import StyleBuild.Dictionary
import StyleBuild.Error
import StyleBuild.Substitution.Call
import StyleBuild.Text.Described

/-!
# Registered functions

A registry maps names to callbacks. `expand` replaces every call of a
registered function by what its callback answers for the arguments as they are
written; answers are not read again. Of several names that fit at a place the
longest wins.
-/

namespace StyleBuild.Substitution

/-- Answers a call by a text, or by a message that says why not. -/
abbrev Callback := List String → Except String String

structure Registry where
  functions : Dictionary Callback

/-- The outcome of an expansion, and whether any call was replaced. -/
structure Expansion where
  text : String
  changed : Bool
  deriving DecidableEq, Repr

namespace Registry

def empty : Registry := ⟨.empty⟩

def isEmpty (r : Registry) : Bool := r.functions.isEmpty

def contains (r : Registry) (name : String) : Bool := r.functions.contains name

def names (r : Registry) : List String := r.functions.keys

/-- Registers a function under a name that is free. -/
def register (r : Registry) (name : String) (callback : Callback) : Except Error Registry :=
  if r.contains name then .error (.duplicateFunction name)
  else .ok ⟨r.functions.insert name callback⟩

def unregister (r : Registry) (name : String) : Registry := ⟨r.functions.erase name⟩

/-- The registry on one line, by its names. -/
def describe (r : Registry) : String :=
  Text.described "FunctionRegistry" [("functions", Text.quotedList r.names)]

/-- The names from the longest to the shortest, names of one length in order. -/
def namesByLength (r : Registry) : List (List Char) :=
  (r.names.mergeSort fun a b => b.utf8ByteSize ≤ a.utf8ByteSize).map String.toList

/-- What the callback of a call answers. -/
def answer (r : Registry) (call : Call) : Except Error (List Char) :=
  let name := String.ofList call.name
  match r.functions.find? name with
  | none => .ok []
  | some callback =>
    match callback ((splitArguments call.arguments).map String.ofList) with
    | .error message => .error (.function name message)
    | .ok text => .ok text.toList

/-- The answers to some calls; the first that fails is the outcome of all. -/
def answers (r : Registry) : List Call → Except Error (List (Call × List Char))
  | [] => .ok []
  | call :: rest =>
    match r.answer call with
    | .error e => .error e
    | .ok text =>
      match r.answers rest with
      | .error e => .error e
      | .ok more => .ok ((call, text) :: more)

/-- `source` with every call of a registered function replaced. -/
def expand (r : Registry) (source : String) : Except Error Expansion :=
  if r.isEmpty then .ok ⟨source, false⟩
  else
    match calls r.namesByLength source.toList with
    | [] => .ok ⟨source, false⟩
    | found =>
      match r.answers found with
      | .error e => .error e
      | .ok replacements => .ok ⟨String.ofList (substitute source.toList replacements), true⟩

end Registry

end StyleBuild.Substitution
