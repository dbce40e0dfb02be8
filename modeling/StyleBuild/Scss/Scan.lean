import StyleBuild.Scss.Complaint

/-!
# Scanning style sheets

The smallest parts of a style sheet: gaps, which are spaces and comments, names,
strings and addresses. Each scanner takes its part off the start of a text and
answers the rest.
-/

namespace StyleBuild.Scss

abbrev Checked := Except Complaint

def isSpace (c : Char) : Bool := [' ', '\t', '\n', '\r', '\x0c'].contains c

def isLineEnd (c : Char) : Bool := c = '\n' || c = '\r'

def skipSpace (s : List Char) : List Char := s.dropWhile isSpace

def skipLine (s : List Char) : List Char := s.dropWhile fun c => !isLineEnd c

/-- Where a gap has got to. -/
inductive GapPart where
  | space
  | lineComment
  | blockComment

/-- Skips spaces and comments; a comment that is not closed goes to the end. -/
def skipGapFrom : GapPart → List Char → List Char
  | _, [] => []
  | .space, '/' :: '/' :: s => skipGapFrom .lineComment s
  | .space, '/' :: '*' :: s => skipGapFrom .blockComment s
  | .space, c :: s => if isSpace c then skipGapFrom .space s else c :: s
  | .lineComment, c :: s =>
    if isLineEnd c then skipGapFrom .space s else skipGapFrom .lineComment s
  | .blockComment, '*' :: '/' :: s => skipGapFrom .space s
  | .blockComment, _ :: s => skipGapFrom .blockComment s

def skipGap (s : List Char) : List Char := skipGapFrom .space s

/-- What was taken off a text to leave `rest`. -/
def taken (s rest : List Char) : List Char := s.take (s.length - rest.length)

def expect (c : Char) : List Char → Checked (List Char)
  | [] => .error (.missing c)
  | d :: s => if d = c then .ok s else .error (.missing c)

/-- Splits a block comment behind its start. -/
def scanComment : List Char → Checked (List Char × List Char)
  | [] => .error .openComment
  | '*' :: '/' :: s => .ok (['*', '/'], s)
  | '\r' :: '\n' :: s => (scanComment s).map fun (text, rest) => ('\n' :: text, rest)
  | c :: s =>
    (scanComment s).map fun (text, rest) => ((if c = '\r' then '\n' else c) :: text, rest)

/-- Names start with a letter or a character beyond ASCII. -/
def isNameStart (c : Char) : Bool := c.isAlpha || c = '_' || 0x80 ≤ c.toNat

def isNamePart (c : Char) : Bool := isNameStart c || c.isDigit || c = '-'

/-- Whether a name stands at the start of a text. -/
def atName : List Char → Bool
  | '-' :: c :: _ => isNameStart c || c = '\\' || c = '-'
  | c :: _ => isNameStart c || c = '\\'
  | [] => false

/-- Whether a hyphen in front of `s` ends a unit. -/
def endsUnit : List Char → Bool
  | c :: _ => c.isDigit || c = '.'
  | [] => false

/-- Splits off the characters of a name; in a unit, no number follows a hyphen. -/
def scanNameParts (unit : Bool) : List Char → List Char × List Char
  | [] => ([], [])
  | '\\' :: c :: s =>
    let (name, rest) := scanNameParts unit s
    ('\\' :: c :: name, rest)
  | c :: s =>
    if isNamePart c && !(unit && c = '-' && endsUnit s) then
      let (name, rest) := scanNameParts unit s
      (c :: name, rest)
    else ([], c :: s)

def scanName (s : List Char) : Checked (List Char × List Char) :=
  if atName s then .ok (scanNameParts false s) else .error .missingName

def hexDigit? (c : Char) : Option Nat :=
  if c.isDigit then some (c.toNat - '0'.toNat)
  else if 'a' ≤ c ∧ c ≤ 'f' then some (c.toNat - 'a'.toNat + 10)
  else if 'A' ≤ c ∧ c ≤ 'F' then some (c.toNat - 'A'.toNat + 10)
  else none

/-- The character with a code; the replacement character for a code without one. -/
def escapedChar (code : Nat) : Char :=
  if code = 0 ∨ (0xD800 ≤ code ∧ code ≤ 0xDFFF) ∨ 0x10FFFF ≤ code then '\uFFFD' else Char.ofNat code

/-- Where a string has got to. -/
inductive StringPart where
  | plain
  /-- Behind a backslash. -/
  | escape
  /-- Behind the first `count` digits of a character code. -/
  | code (value count : Nat)

/-- Splits off a string behind its opening quote; escapes stand for their characters, and one
space ends a character code. -/
def scanStringFrom (quote : Char) : StringPart → List Char → Checked (List Char × List Char)
  | _, [] => .error (.openString quote)
  | .plain, c :: s =>
    if c = quote then .ok ([], s)
    else if isLineEnd c then .error (.openString quote)
    else if c = '\\' then scanStringFrom quote .escape s
    else (scanStringFrom quote .plain s).map fun (text, rest) => (c :: text, rest)
  | .escape, c :: s =>
    if isLineEnd c then scanStringFrom quote .plain s
    else
      match hexDigit? c with
      | some value => scanStringFrom quote (.code value 1) s
      | none => (scanStringFrom quote .plain s).map fun (text, rest) => (c :: text, rest)
  | .code value count, c :: s =>
    let digit := if count < 6 then hexDigit? c else none
    match digit with
    | some digit => scanStringFrom quote (.code (value * 16 + digit) (count + 1)) s
    | none =>
      let after : Checked (List Char × List Char) :=
        if isSpace c then scanStringFrom quote .plain s
        else if c = quote then .ok ([], s)
        else if c = '\\' then scanStringFrom quote .escape s
        else (scanStringFrom quote .plain s).map fun (text, rest) => (c :: text, rest)
      after.map fun (text, rest) => (escapedChar value :: text, rest)

/-- Splits off a string. -/
def scanString : List Char → Checked (List Char × List Char)
  | c :: s =>
    if c = '"' ∨ c = '\'' then scanStringFrom c .plain s else .error .missingString
  | [] => .error .missingString

/-- Whether a character may stand in an address without quotes. -/
def isAddressPart (c : Char) : Bool :=
  c = '!' || c = '#' || c = '%' || c = '&' || ('*' ≤ c && c ≤ '~') || 0x80 ≤ c.toNat

/-- Splits off an address without quotes and its parenthesis, behind the opening one. -/
def scanAddress? (s : List Char) : Option (List Char × List Char) :=
  let s := skipSpace s
  let address := s.takeWhile isAddressPart
  match skipSpace (s.dropWhile isAddressPart) with
  | ')' :: rest => some (address, rest)
  | _ => none

end StyleBuild.Scss
