import StyleBuild.Yaml.Fault

/-!
# Cursors in YAML texts

A cursor is what is left of a text together with its mark. Five characters and
one pair of characters break a line; space and tab are blank.
-/

namespace StyleBuild.Yaml

structure Cursor where
  rest : List Char
  mark : Mark
  /-- How many characters were passed. -/
  index : Nat

def isBreak (c : Char) : Bool :=
  c == '\n' || c == '\r' || c == '\u0085' || c == '\u2028' || c == '\u2029'

def isBlank (c : Char) : Bool := c == ' ' || c == '\t'

/-- The characters of names of anchors, tags and directives. -/
def isNameCharacter (c : Char) : Bool := c.isAlphanum || c == '_' || c == '-'

namespace Cursor

def start (text : List Char) : Cursor := ⟨text, .start, 0⟩

def head? (c : Cursor) : Option Char := c.rest.head?

/-- Whether the character `n` places on satisfies `p`; false behind the end. -/
def test (c : Cursor) (n : Nat) (p : Char → Bool) : Bool :=
  match c.rest[n]? with
  | some ch => p ch
  | none => false

def sees (c : Cursor) (ch : Char) : Bool := c.test 0 (· == ch)

def atEnd (c : Cursor) : Bool := c.rest.isEmpty

def atBreak (c : Cursor) : Bool := c.test 0 isBreak

def atBlank (c : Cursor) : Bool := c.test 0 isBlank

/-- Whether a blank, a break or the end stands `n` places on. -/
def seesSpaceAt (c : Cursor) (n : Nat) : Bool :=
  match c.rest[n]? with
  | some ch => isBlank ch || isBreak ch
  | none => true

/-- Passes `n` characters of the same line. -/
def right (c : Cursor) (n : Nat) : Cursor :=
  let n := min n c.rest.length
  ⟨c.rest.drop n, c.mark.right n, c.index + n⟩

/-- Passes characters of the same line while they satisfy `p`. -/
def span (c : Cursor) (p : Char → Bool) : List Char × Cursor :=
  let passed := c.rest.takeWhile fun ch => p ch && !isBreak ch
  (passed, c.right passed.length)

def skipBlanks (c : Cursor) : Cursor := (c.span isBlank).2

/-- Passes the rest of the line. -/
def skipLine (c : Cursor) : Cursor := (c.span fun _ => true).2

/-- Passes a line break and answers what it stands for; nothing when there is none. -/
def takeBreak (c : Cursor) : List Char × Cursor :=
  match c.rest with
  | '\r' :: '\n' :: rest => (['\n'], ⟨rest, c.mark.nextLine, c.index + 2⟩)
  | ch :: rest =>
    if isBreak ch then
      ([if ch == '\u2028' || ch == '\u2029' then ch else '\n'],
        ⟨rest, c.mark.nextLine, c.index + 1⟩)
    else ([], c)
  | [] => ([], c)

/-- Whether three dashes or three dots stand alone at the start of a line. -/
def atDocumentIndicator (c : Cursor) : Bool :=
  c.mark.column == 0 && c.seesSpaceAt 3 &&
    ((c.rest.take 3 == ['-', '-', '-']) || (c.rest.take 3 == ['.', '.', '.']))

/-- The fault with a problem at the cursor, met during an activity that began at a mark. -/
def fault (c : Cursor) (activity : Activity) (began : Mark) (problem : Problem) : Fault :=
  .malformed problem c.mark (some (activity, began))

end Cursor

end StyleBuild.Yaml
