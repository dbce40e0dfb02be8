import StyleBuild.Text.Blank

/-!
# Arguments of a call

`closingOffset` finds the parenthesis that closes a call: strings are passed
over with their escapes, and inner parentheses have to match. `splitArguments`
cuts the text between the parentheses at its commas; there, a quote ends at the
next quote of its kind, and a backslash has no meaning.
-/

namespace StyleBuild.Substitution

open Text

def isQuote (c : Char) : Bool := c == '"' || c == '\''

/-- Where the search for a closing parenthesis stands. -/
inductive ParenState where
  | code (depth : Nat)
  | string (depth : Nat) (quote : Char)
  | escaped (depth : Nat) (quote : Char)
  deriving DecidableEq, Repr

/-- Reads one character; `none` at the parenthesis that closes the call. -/
def ParenState.next : ParenState → Char → Option ParenState
  | .escaped depth quote, _ => some (.string depth quote)
  | .string depth quote, c =>
    if c = '\\' then some (.escaped depth quote)
    else if c = quote then some (.code depth)
    else some (.string depth quote)
  | .code depth, c =>
    if isQuote c then some (.string depth c)
    else if c = '(' then some (.code (depth + 1))
    else if c = ')' then (if depth = 0 then none else some (.code (depth - 1)))
    else some (.code depth)

/-- How many characters stand before the closing parenthesis. -/
def closingOffset (state : ParenState) : List Char → Option Nat
  | [] => none
  | c :: s =>
    match state.next c with
    | none => some 0
    | some state => (closingOffset state s).map (· + 1)

/-- Puts a character in front of the first piece. -/
def consFirst (c : Char) : List (List Char) → List (List Char)
  | [] => [[c]]
  | l :: ls => (c :: l) :: ls

/-- The pieces between the commas that stand in no string and in no parentheses. -/
def cutAtCommas (depth : Nat) (quote : Option Char) : List Char → List (List Char)
  | [] => [[]]
  | c :: s =>
    match quote with
    | some q => consFirst c (cutAtCommas depth (if c = q then none else some q) s)
    | none =>
      if isQuote c then consFirst c (cutAtCommas depth (some c) s)
      else if c = '(' then consFirst c (cutAtCommas (depth + 1) none s)
      else if c = ')' then consFirst c (cutAtCommas (depth - 1) none s)
      else if c = ',' ∧ depth = 0 then [] :: cutAtCommas depth none s
      else consFirst c (cutAtCommas depth none s)

/-- The arguments of a call, trimmed; a blank text holds none. -/
def splitArguments (s : List Char) : List (List Char) :=
  if isAllBlank s then [] else (cutAtCommas 0 none s).map trim

theorem closingOffset_lt (state : ParenState) (s : List Char) (n : Nat)
    (h : closingOffset state s = some n) : n < s.length := by
  induction s generalizing state n with
  | nil => simp [closingOffset] at h
  | cons c s ih =>
    rw [closingOffset] at h
    split at h
    · cases h; simp
    · obtain ⟨m, hm, rfl⟩ := Option.map_eq_some_iff.1 h
      simpa using ih _ m hm

end StyleBuild.Substitution
