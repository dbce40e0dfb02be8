import StyleBuild.Substitution.Argument
import StyleBuild.Substitution.Literal
import StyleBuild.Text.Affix
import StyleBuild.Text.Word

/-!
# Calls of named functions

`calls names source` lists the calls `name(arguments)` that are to be replaced,
in order. It depends on the names and the source only, never on what a call
stands for. A call starts at the start of the text or behind a boundary
character, outside every literal, and not behind `@function`; and it has a
closing parenthesis.

The text is read once from the left. Whatever was passed over, a replaced call,
the opening of a call that is left alone, or a literal, cannot serve as the
boundary of the next call.
-/

namespace StyleBuild.Substitution

open Text

/-- A call `name(arguments)` from `start` up to `stop`. -/
structure Call where
  start : Nat
  name : List Char
  arguments : List Char
  stop : Nat
  deriving DecidableEq, Repr

/-- The character behind which a name may start: no part of a word, of a variable, of a longer
name with dashes, or of a class. -/
def isBoundary (c : Char) : Bool := !(isWord c || c == '$' || c == '-' || c == '.')

/-- The first of the names that stands here with an opening parenthesis behind it, and what
follows the parenthesis. -/
def nameAt? (names : List (List Char)) (s : List Char) : Option (List Char × List Char) :=
  names.findSome? fun name => (afterStart? (name ++ ['(']) s).map fun rest => (name, rest)

/-- Whether the text before a name, given from its end, ends in `@function`. -/
def followsDefinition (before : List Char) : Bool :=
  startsWith "noitcnuf@".toList (trimStart before)

/-- What is made of a place where a name may start. -/
inductive Sighting where
  /-- The place lies in a literal, or the call there is left alone: go on after `length`
  characters. -/
  | pass (length : Nat)
  | call (call : Call)

/-- Judges the opening `name(` at `position`, with `rest` behind it. -/
def sight (regions : List Region) (before : List Char) (position : Nat) (name rest : List Char) :
    Sighting :=
  match regions.find? (·.has position) with
  | some r => .pass (r.stop - position)
  | none =>
    match (if followsDefinition before then none else closingOffset (.code 0) rest) with
    | none => .pass (name.length + 1)
    | some n => .call ⟨position, name, rest.take n, position + name.length + 1 + n + 1⟩

/-- The calls in a text that stands at `position`. `before` is the text in front of it, from its
end; the next `skip` characters are passed over; `free` says whether a name may start here. -/
def callsFrom (names : List (List Char)) (regions : List Region) (before : List Char)
    (position skip : Nat) (free : Bool) : List Char → List Call
  | [] => []
  | c :: s =>
    match skip with
    | skip + 1 => callsFrom names regions (c :: before) (position + 1) skip false s
    | 0 =>
      match (if free then nameAt? names (c :: s) else none) with
      | none => callsFrom names regions (c :: before) (position + 1) 0 (isBoundary c) s
      | some (name, rest) =>
        match sight regions before position name rest with
        | .pass length =>
          callsFrom names regions (c :: before) (position + 1) (length - 1) false s
        | .call call =>
          call :: callsFrom names regions (c :: before) (position + 1)
            (call.stop - position - 1) false s

/-- The calls of the named functions in `source`, in order; an earlier name is tried first. -/
def calls (names : List (List Char)) (source : List Char) : List Call :=
  callsFrom names (literalRegions source) [] 0 0 true source

/-- `source` from `cursor` on, with each call replaced by its text. -/
def substituteFrom (source : List Char) (cursor : Nat) : List (Call × List Char) → List Char
  | [] => source.drop cursor
  | (call, text) :: rest =>
    (source.drop cursor).take (call.start - cursor) ++ text ++
      substituteFrom source call.stop rest

def substitute (source : List Char) (replacements : List (Call × List Char)) : List Char :=
  substituteFrom source 0 replacements

end StyleBuild.Substitution
