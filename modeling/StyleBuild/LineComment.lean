import StyleBuild.Text.Blank
import StyleBuild.Text.Lines

/-!
# Line comments

`annotate source file` puts the comment `/* line N, file */` before every line
on which a top-level style rule starts, so that compiled text points back at
its source. Nothing else changes. At-rules, variables and placeholders get no
comment, and a selector list over several lines gets one.

A line is looked at only between statements: outside braces, parentheses and
block comments, and when the line before did not end in a comma.
-/

namespace StyleBuild.LineComment

open Text

/-- What is open between two lines. -/
structure Nesting where
  braces : Nat
  parens : Nat
  inComment : Bool
  /-- The last line with code did not end in a comma. -/
  atStart : Bool
  deriving DecidableEq, Repr

namespace Nesting

def outside : Nesting := ⟨0, 0, false, true⟩

def betweenStatements (n : Nesting) : Bool :=
  n.braces == 0 && n.parens == 0 && !n.inComment && n.atStart

/-- The nesting after one more character of code. -/
def code (n : Nesting) (c : Char) : Nesting :=
  if c = '{' then { n with braces := n.braces + 1 }
  else if c = '}' then { n with braces := n.braces - 1 }
  else if c = '(' then { n with parens := n.parens + 1 }
  else if c = ')' then { n with parens := n.parens - 1 }
  else n

/-- The nesting at the end of a line, and the last character of code on it; `skip` says that the
next character was read already. A string ends with its line at the latest. -/
def readLine (n : Nesting) (quote last : Option Char) (skip : Bool) :
    List Char → Nesting × Option Char
  | [] => (n, last)
  | c :: s =>
    if skip then readLine n quote last false s
    else if n.inComment then
      if c = '*' ∧ s.head? = some '/' then readLine { n with inComment := false } quote last true s
      else readLine n quote last false s
    else
      match quote with
      | some q =>
        if c = '\\' then readLine n quote (some c) true s
        else readLine n (if c = q then none else quote) (some c) false s
      | none =>
        if c = '/' ∧ s.head? = some '*' then readLine { n with inComment := true } none last true s
        else if c = '/' ∧ s.head? = some '/' then (n, last)
        else
          let quote := if c = '"' ∨ c = '\'' then some c else none
          readLine (n.code c) quote (if isBlank c then last else some c) false s

/-- The nesting after a line. -/
def feed (n : Nesting) (line : List Char) : Nesting :=
  match n.readLine none none false line with
  | (n, none) => n
  | (n, some last) => { n with atStart := last ≠ ',' }

end Nesting

/-- Whether a line between statements starts a style rule. -/
def opensRule (line : List Char) : Bool :=
  match trimStart line with
  | [] => false
  | c :: _ => !(['@', '$', '%', '/', '}', '{', ')'].contains c)

/-- The comment for the line with this number, with its line feed. -/
def comment (number : Nat) (file : String) : List Char :=
  ("/* line " ++ toString number ++ ", " ++ file ++ " */\n").toList

/-- Annotates lines of which the first has this number. -/
def annotateFrom (file : String) (number : Nat) (n : Nesting) : List (List Char) → List Char
  | [] => []
  | line :: lines =>
    let head := if n.betweenStatements && opensRule line then comment number file else []
    head ++ line ++ annotateFrom file (number + 1) (n.feed line) lines

/-- `source` with a comment before each top-level style rule that names its line and `file`. -/
def annotate (source file : String) : String :=
  String.ofList (annotateFrom file 1 .outside (keptLines source.toList))

end StyleBuild.LineComment
