/-!
# Literals

A literal is a part of a stylesheet whose text is not code: a quoted string, a
block comment, or a line comment. `literalRegions s` lists them in order. A
backslash in a string takes the next character with it. Two slashes directly
after `:` or `(` belong to an address and open no comment. A string or block
comment that is not closed reaches to the end of the text.
-/

namespace StyleBuild.Substitution

/-- The characters from `start` up to `stop`. -/
structure Region where
  start : Nat
  stop : Nat
  deriving DecidableEq, Repr

def Region.has (r : Region) (position : Nat) : Bool := r.start ≤ position && position < r.stop

/-- How far a string reaches behind its opening quote, the closing one included. -/
def quotedLength (quote : Char) : List Char → Nat
  | [] => 0
  | '\\' :: [] => 1
  | '\\' :: _ :: s => 2 + quotedLength quote s
  | c :: s => if c = quote then 1 else 1 + quotedLength quote s

/-- How far a block comment reaches behind its opening, the closing included. -/
def blockCommentLength : List Char → Nat
  | [] => 0
  | '*' :: '/' :: _ => 2
  | _ :: s => 1 + blockCommentLength s

/-- How far a line comment reaches; the line feed is not part of it. -/
def lineCommentLength (s : List Char) : Nat := (s.takeWhile (· ≠ '\n')).length

/-- Whether two slashes behind this character belong to an address. -/
def opensAddress (before : Option Char) : Bool := before == some ':' || before == some '('

/-- The length of the literal that starts here, zero when none does. -/
def literalLength (before : Option Char) : List Char → Nat
  | '"' :: s => 1 + quotedLength '"' s
  | '\'' :: s => 1 + quotedLength '\'' s
  | '/' :: '*' :: s => 2 + blockCommentLength s
  | '/' :: '/' :: s => if opensAddress before then 0 else 2 + lineCommentLength s
  | _ => 0

/-- The literals of a text that stands at `position`; the next `skip` characters belong to a
literal already listed. -/
def literalRegionsFrom (position : Nat) (before : Option Char) (skip : Nat) :
    List Char → List Region
  | [] => []
  | c :: s =>
    match skip with
    | skip + 1 => literalRegionsFrom (position + 1) (some c) skip s
    | 0 =>
      match literalLength before (c :: s) with
      | 0 => literalRegionsFrom (position + 1) (some c) 0 s
      | n + 1 =>
        ⟨position, position + n + 1⟩ :: literalRegionsFrom (position + 1) (some c) n s

/-- The literals of a text, in order. -/
def literalRegions (s : List Char) : List Region := literalRegionsFrom 0 none 0 s

theorem quotedLength_le (quote : Char) (s : List Char) : quotedLength quote s ≤ s.length := by
  fun_induction quotedLength quote s <;> grind

theorem blockCommentLength_le (s : List Char) : blockCommentLength s ≤ s.length := by
  fun_induction blockCommentLength s <;> grind

theorem lineCommentLength_le (s : List Char) : lineCommentLength s ≤ s.length :=
  (List.takeWhile_sublist _).length_le

theorem literalLength_le (before : Option Char) (s : List Char) :
    literalLength before s ≤ s.length := by
  unfold literalLength
  split
  · next s => have := quotedLength_le '"' s; grind
  · next s => have := quotedLength_le '\'' s; grind
  · next s => have := blockCommentLength_le s; grind
  · next s => have := lineCommentLength_le s; grind
  · exact Nat.zero_le _

end StyleBuild.Substitution
