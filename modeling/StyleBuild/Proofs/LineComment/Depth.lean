import StyleBuild.Proofs.LineComment.Scanner
import StyleBuild.Proofs.Substitution.Literals

/-!
# The depth of a text

Braces and parentheses are counted in two ways: line by line, as line comments
are placed, and over the code of a text, the characters outside its literals.
Both agree on texts that read line by line (`LineByLine`): a string ends on its
line, and two slashes are always part of a literal (`scan_depths`). They differ
when the slashes of an address are code: the line is not read on behind them
(`scan_depths_address`).
-/

namespace StyleBuild.LineComment

open Substitution

/-- How many are open after one more character: a closer takes one away if there is one. -/
def countOpen (opener closer : Char) (d : Nat) (c : Char) : Nat :=
  if c = opener then d + 1 else if c = closer then d - 1 else d

def depth (opener closer : Char) (s : List Char) : Nat := s.foldl (countOpen opener closer) 0

/-- Two slashes are always part of a literal, and a literal with a line feed is a comment. -/
structure LineByLine (s : List Char) : Prop where
  slashes : ∀ p < s.length, s[p]? = some '/' → s[p + 1]? = some '/' →
    ∃ r ∈ literalRegions s, r.has p = true
  strings : ∀ r ∈ literalRegions s, ∀ p < s.length, r.has p = true → s[p]? = some '\n' →
    s[r.start]? = some '/'

instance (s : List Char) : Decidable (LineByLine s) :=
  decidable_of_iff (_ ∧ _) ⟨fun h => ⟨h.1, h.2⟩, fun h => ⟨h.slashes, h.strings⟩⟩

namespace Nesting

variable {n n' : Nesting} {source front s : List Char} {before : Option Char}

theorem SameDepths.foldl_code (h : SameDepths n n') (s : List Char) :
    SameDepths (s.foldl Nesting.code n) (s.foldl Nesting.code n') := by
  induction s generalizing n n' with
  | nil => exact h
  | cons c s ih => exact ih (h.code c)

theorem braces_foldl_code (n : Nesting) (s : List Char) :
    (s.foldl code n).braces = s.foldl (countOpen '{' '}') n.braces := by
  induction s generalizing n with
  | nil => rfl
  | cons c s ih =>
      rw [List.foldl_cons, List.foldl_cons, ih]
      congr 1
      unfold code countOpen
      split_ifs <;> rfl

theorem parens_foldl_code (n : Nesting) (s : List Char) :
    (s.foldl code n).parens = s.foldl (countOpen '(' ')') n.parens := by
  induction s generalizing n with
  | nil => rfl
  | cons c s ih =>
      rw [List.foldl_cons, List.foldl_cons, ih]
      congr 1
      unfold code countOpen
      split_ifs <;> simp_all

end Nesting

namespace LineByLine

variable {source front s : List Char} {before : Option Char} {c : Char}

/-- Code has no two slashes in a row. -/
theorem not_slashes (h : LineByLine source) (hremains : Remains source front before (c :: s))
    (hcode : literalLength before (c :: s) = 0) : ¬ (c = '/' ∧ s.head? = some '/') := by
  rintro ⟨rfl, hhead⟩
  have hfirst := hremains.getElem? 0
  have hsecond := hremains.getElem? 1
  rw [List.getElem?_cons_succ, ← List.head?_eq_getElem?, hhead] at hsecond
  have hlt : front.length < source.length := by
    rw [hremains.text, List.length_append, List.length_cons]
    omega
  obtain ⟨r, hr, hhas⟩ := h.slashes front.length hlt hfirst hsecond
  rw [hremains.has_eq_false hcode r hr] at hhas
  cases hhas

/-- A string has no line feed. -/
theorem newline_notMem (h : LineByLine source) (hremains : Remains source front before s)
    (hliteral : literalLength before s ≠ 0) (hhead : s.head? ≠ some '/') :
    '\n' ∉ s.take (literalLength before s) := by
  have hall : Remains source front before (s ++ []) := by rwa [List.append_nil]
  have hlength : source.length = front.length + s.length := by
    rw [hremains.text, List.length_append]
  have hfree := hall.newline_notMem (fun r hr p hp => h.strings r hr p (hlength ▸ hp))
    (by rwa [List.append_nil]) (by rwa [List.append_nil])
  rwa [List.append_nil] at hfree

/-- From where no literal is open, reading on counts the code that is left. -/
theorem sameDepths_scanFrom (h : LineByLine source) {before : Option Char} {s : List Char}
    {front : List Char} (hremains : Remains source front before s) {n : Nesting}
    (hout : n.inComment = false) (last : Option Char) :
    (n.scanFrom none last false s).SameDepths
      ((codeFrom front.length before s).foldl Nesting.code n) := by
  induction before, s using literal_induction generalizing front n last with
  | nil before => exact Nesting.sameDepths_close n last
  | code before c s hcode ih =>
      obtain ⟨n', last', hdepths, -, hout', hscan⟩ :=
        Nesting.scanFrom_code hout last (ne_quote_of_literalLength hcode)
          (h.not_slashes hremains hcode)
      have hrest := ih (hremains.code hcode) hout' last'
      rw [hscan, codeFrom_code _ hcode]
      rw [List.length_append, List.length_singleton] at hrest
      exact hrest.trans (hdepths.foldl_code _)
  | literal before s hliteral ih =>
      obtain ⟨n', last', hdepths, -, hend, hscan⟩ :=
        Nesting.scanFrom_literal hout last hliteral (h.newline_notMem hremains hliteral)
      rw [hscan, codeFrom_literal _ hliteral]
      rcases hend with hout' | hnil
      · have hrest := ih (hremains.literal hliteral) hout' last'
        rw [List.length_append, List.length_take_of_le (literalLength_le before s)] at hrest
        exact hrest.trans (hdepths.foldl_code _)
      · rw [hnil]
        exact (Nesting.sameDepths_close n' last').trans hdepths

end LineByLine

/-- On a text that reads line by line, as many braces and parentheses are open after its lines as
after its code. -/
theorem scan_depths (source : String) (h : LineByLine source.toList) :
    (Nesting.outside.scan source.toList).braces = depth '{' '}' (codeOf source.toList) ∧
      (Nesting.outside.scan source.toList).parens = depth '(' ')' (codeOf source.toList) := by
  obtain ⟨hbraces, hparens⟩ := h.sameDepths_scanFrom (Remains.start source.toList)
    (n := Nesting.outside) rfl none
  rw [Nesting.braces_foldl_code] at hbraces
  rw [Nesting.parens_foldl_code] at hparens
  rw [Nesting.scan_eq]
  exact ⟨hbraces, hparens⟩

/-- A comment over two lines, strings with escapes and with an apostrophe, a line comment, and a
closer too many. -/
def unclosedSheet : String :=
  ") /* \x7b\n\x7b // */ .a \x7b b: \"\x7d\\\"'\x7b\"; // ( \"\n  c: f('\\')\x7d', (x"

theorem scan_depths_unclosedSheet :
    (Nesting.outside.scan unclosedSheet.toList).braces = 1 ∧
      (Nesting.outside.scan unclosedSheet.toList).parens = 2 := by
  obtain ⟨hbraces, hparens⟩ := scan_depths unclosedSheet (by decide +kernel)
  exact ⟨hbraces.trans (by decide +kernel), hparens.trans (by decide +kernel)⟩

/-- A rule with an address, and one behind it. -/
def addressSheet : String := ".a \x7b b: url(http://x/y.png); \x7d\n.c \x7b d: e; \x7d\n"

/-- Behind the slashes of an address a line is not read on, though they open no literal. So its
parenthesis and its brace stay open, and no later rule gets its comment. -/
theorem scan_depths_address :
    ¬ LineByLine addressSheet.toList ∧ (Nesting.outside.scan addressSheet.toList).parens = 1 ∧
      depth '(' ')' (codeOf addressSheet.toList) = 0 ∧
      annotate addressSheet "f.scss" = "/* line 1, f.scss */\n" ++ addressSheet := by
  decide +kernel

end StyleBuild.LineComment
