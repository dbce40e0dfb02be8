import StyleBuild.Yaml.Property
import StyleBuild.Yaml.Scalar

/-!
# Cutting YAML texts into tokens

A key of a mapping need not be marked, so every token that could start such a
key is remembered until the `:` behind it is found, or cannot come any more.
Then the key indicator, and with it perhaps the start of a block, is put in
front of that token. Until then the token may not be used, which matters when
a fault is found meanwhile: `Tokens` holds just the tokens in front of the
fault that could be used.
-/

namespace StyleBuild.Yaml

/-- The tokens of a text, up to its end or to a fault. -/
structure Tokens where
  all : List Token
  fault : Option Fault

/-- A token that may turn out to start a key. -/
structure PossibleKey where
  /-- It stands where only a key may stand. -/
  required : Bool
  /-- The number of tokens in front of it. -/
  number : Nat
  mark : Mark
  index : Nat

structure Scanner where
  cursor : Cursor
  /-- The tokens so far. -/
  tokens : Array Token
  /-- The column of each open block, the innermost first. -/
  indents : List Int
  /-- The possible key at each level of flow, the innermost first. -/
  keys : List (Option PossibleKey)
  /-- Whether a key without indicator may start here. -/
  keyAllowed : Bool

namespace Scanner

def start (text : List Char) : Scanner :=
  { cursor := .start text
    tokens := #[⟨.streamStart, .start, .start⟩]
    indents := []
    keys := [none]
    keyAllowed := true }

def mark (s : Scanner) : Mark := s.cursor.mark

def inFlow (s : Scanner) : Bool := 1 < s.keys.length

def indent (s : Scanner) : Int := s.indents.head?.getD (-1)

def column (s : Scanner) : Int := s.mark.column

def push (s : Scanner) (kind : TokenKind) (first last : Mark) : Scanner :=
  { s with tokens := s.tokens.push ⟨kind, first, last⟩ }

/-- Puts a token in front of the one with this number. -/
def putBefore (s : Scanner) (number : Nat) (token : Token) : Scanner :=
  { s with tokens := (s.tokens.toList.take number ++ token :: s.tokens.toList.drop number).toArray }

/-- Adds a token over the next `n` characters. -/
def pushRight (s : Scanner) (kind : TokenKind) (n : Nat) : Scanner :=
  let cursor := s.cursor.right n
  { s.push kind s.mark cursor.mark with cursor }

/-- The fault of a key without its colon. -/
def missingColon (s : Scanner) (key : PossibleKey) : Fault :=
  .malformed .missingColon s.mark (some (.scanningSimpleKey, key.mark))

/-- Whether a key can no longer get its colon: it has to stay on one line and short. -/
def isStale (s : Scanner) (key : PossibleKey) : Bool :=
  key.mark.line < s.mark.line || key.index + 1024 < s.cursor.index

/-- Forgets the keys that are stale, from the outermost on. -/
def dropStale (s : Scanner) : Except Fault Scanner :=
  let faulty := s.keys.reverse.findSome? fun key =>
    key.bind fun key => if s.isStale key && key.required then some key else none
  match faulty with
  | some key => .error (s.missingColon key)
  | none =>
    .ok
      { s with
        keys := s.keys.map fun key => key.bind fun k => if s.isStale k then none else some k }

/-- Forgets the possible key at the innermost level. -/
def dropKey (s : Scanner) : Except Fault Scanner :=
  match s.keys with
  | some key :: rest =>
    if key.required then .error (s.missingColon key) else .ok { s with keys := none :: rest }
  | _ => .ok s

/-- Remembers that the next token may start a key. -/
def saveKey (s : Scanner) : Except Fault Scanner :=
  if s.keyAllowed then do
    let key : PossibleKey :=
      ⟨!s.inFlow && s.indent == s.column, s.tokens.size, s.mark, s.cursor.index⟩
    let s ← s.dropKey
    return { s with keys := some key :: s.keys.tail }
  else .ok s

/-- Opens a block at a column, unless one is open there. -/
def openBlock (s : Scanner) (column : Int) (kind : TokenKind) (mark : Mark)
    (number : Option Nat) : Scanner :=
  if !s.inFlow && s.indent < column then
    let s := { s with indents := column :: s.indents }
    match number with
    | none => s.push kind mark mark
    | some n => s.putBefore n ⟨kind, mark, mark⟩
  else s

/-- Closes the blocks that are deeper than a column. -/
def closeBlocks (s : Scanner) (column : Int) : Scanner :=
  if s.inFlow then s
  else
    let closed := s.indents.takeWhile (column < ·)
    let ends := closed.map fun _ => (⟨.blockEnd, s.mark, s.mark⟩ : Token)
    { s with tokens := s.tokens ++ ends.toArray, indents := s.indents.drop closed.length }

/-- Passes blanks, comments and breaks up to the next token. -/
def skipToToken (s : Scanner) : Nat → Scanner
  | 0 => s
  | fuel + 1 =>
    let tabs := s.inFlow || !s.keyAllowed
    let c := (s.cursor.span fun ch => ch == ' ' || (tabs && ch == '\t')).2
    let c := if c.sees '#' then c.skipLine else c
    if c.atBreak then
      skipToToken { s with cursor := c.takeBreak.2, keyAllowed := s.keyAllowed || !s.inFlow } fuel
    else { s with cursor := c }

/-- Ends the text: as on a new line, all blocks are closed. -/
def scanEnd (s : Scanner) : Except Fault Scanner := do
  let mark := if s.mark.column = 0 then s.mark else s.mark.nextLine
  let s := { s with cursor := { s.cursor with mark } }
  let s ← (s.closeBlocks (-1)).dropKey
  return { s with keyAllowed := false }.push .streamEnd mark mark

def scanDirectiveToken (s : Scanner) : Except Fault Scanner := do
  let s ← (s.closeBlocks (-1)).dropKey
  let (kind, last, cursor) ← scanDirective s.cursor
  return { s with keyAllowed := false, cursor }.push kind s.mark last

def scanDocumentIndicator (s : Scanner) (kind : TokenKind) : Except Fault Scanner := do
  let s ← (s.closeBlocks (-1)).dropKey
  return { s with keyAllowed := false }.pushRight kind 3

def openFlow (s : Scanner) (kind : TokenKind) : Except Fault Scanner := do
  let s ← s.saveKey
  return { s with keys := none :: s.keys, keyAllowed := true }.pushRight kind 1

def closeFlow (s : Scanner) (kind : TokenKind) : Except Fault Scanner := do
  let s ← s.dropKey
  let keys := if s.inFlow then s.keys.tail else s.keys
  return { s with keys, keyAllowed := false }.pushRight kind 1

def scanFlowEntry (s : Scanner) : Except Fault Scanner := do
  let s ← s.dropKey
  return { s with keyAllowed := true }.pushRight .flowEntry 1

/-- The fault of an indicator that may not stand here. -/
def notAllowed (s : Scanner) (problem : Problem) : Fault := .malformed problem s.mark none

def scanBlockEntry (s : Scanner) : Except Fault Scanner := do
  if !s.inFlow && !s.keyAllowed then throw (s.notAllowed .entryNotAllowed)
  let s ← (s.openBlock s.column .blockSequenceStart s.mark none).dropKey
  return { s with keyAllowed := true }.pushRight .blockEntry 1

def scanKey (s : Scanner) : Except Fault Scanner := do
  if !s.inFlow && !s.keyAllowed then throw (s.notAllowed .keyNotAllowed)
  let s ← (s.openBlock s.column .blockMappingStart s.mark none).dropKey
  return { s with keyAllowed := !s.inFlow }.pushRight .key 1

def scanValue (s : Scanner) : Except Fault Scanner := do
  match s.keys with
  | some key :: rest =>
    let s := s.putBefore key.number ⟨.key, key.mark, key.mark⟩
    let s := s.openBlock key.mark.column .blockMappingStart key.mark (some key.number)
    return { s with keys := none :: rest, keyAllowed := false }.pushRight .value 1
  | _ =>
    if !s.inFlow && !s.keyAllowed then throw (s.notAllowed .valueNotAllowed)
    let s := s.openBlock s.column .blockMappingStart s.mark none
    return { s with keyAllowed := !s.inFlow }.pushRight .value 1

def scanAnchorToken (s : Scanner) (activity : Activity) (kind : List Char → TokenKind) :
    Except Fault Scanner := do
  let s ← s.saveKey
  let (name, cursor) ← scanAnchor activity s.cursor
  return { s with keyAllowed := false, cursor }.push (kind name) s.mark cursor.mark

def scanTagToken (s : Scanner) : Except Fault Scanner := do
  let s ← s.saveKey
  let (kind, cursor) ← scanTag s.inFlow s.cursor
  return { s with keyAllowed := false, cursor }.push kind s.mark cursor.mark

def scanBlockScalarToken (s : Scanner) (literal : Bool) : Except Fault Scanner := do
  let s ← s.dropKey
  let (text, last, cursor) ← scanBlockScalar literal s.indent s.mark (s.cursor.right 1)
  let style := if literal then ScalarStyle.literal else .folded
  return { s with keyAllowed := true, cursor }.push (.scalar text style) s.mark last

def scanQuotedToken (s : Scanner) (single : Bool) : Except Fault Scanner := do
  let s ← s.saveKey
  let c := s.cursor.right 1
  let (text, cursor) ← scanQuoted single s.mark (c.rest.length + 1) [] c
  let style := if single then ScalarStyle.singleQuoted else .doubleQuoted
  return { s with keyAllowed := false, cursor }.push (.scalar text style) s.mark cursor.mark

def scanPlainToken (s : Scanner) : Except Fault Scanner := do
  let s ← s.saveKey
  let (text, last, broken, cursor) ←
    scanPlain s.inFlow (s.indent + 1) s.mark (s.cursor.rest.length + 1) [] .none s.mark s.cursor
  return { s with keyAllowed := broken, cursor }.push (.scalar text .plain) s.mark last

/-- Whether a plain scalar starts here. -/
def atPlain (s : Scanner) (ch : Char) : Bool :=
  let c := s.cursor
  !(c.seesSpaceAt 0 || "-?:,[]\x7b\x7d#&*!|>'\"%@`".toList.contains ch) ||
    (ch == '-' && !(c.test 1 isBlank)) ||
    (!s.inFlow && (ch == '?' || ch == ':') && !c.seesSpaceAt 1)

/-- Adds the tokens that start at the cursor. -/
def scanToken (s : Scanner) : Except Fault Scanner := do
  let s := s.skipToToken (s.cursor.rest.length + 1)
  let s ← s.dropStale
  let s := s.closeBlocks s.column
  let c := s.cursor
  match c.head? with
  | none => s.scanEnd
  | some ch =>
    let spaced := s.inFlow || c.seesSpaceAt 1
    if c.mark.column = 0 ∧ ch = '%' then s.scanDirectiveToken
    else if c.atDocumentIndicator then
      s.scanDocumentIndicator (if ch = '-' then .documentStart else .documentEnd)
    else if ch = '[' then s.openFlow .flowSequenceStart
    else if ch = '{' then s.openFlow .flowMappingStart
    else if ch = ']' then s.closeFlow .flowSequenceEnd
    else if ch = '}' then s.closeFlow .flowMappingEnd
    else if ch = ',' then s.scanFlowEntry
    else if ch = '-' ∧ c.seesSpaceAt 1 then s.scanBlockEntry
    else if ch = '?' ∧ spaced then s.scanKey
    else if ch = ':' ∧ spaced then s.scanValue
    else if ch = '*' then s.scanAnchorToken .scanningAlias .aliasOf
    else if ch = '&' then s.scanAnchorToken .scanningAnchor .anchor
    else if ch = '!' then s.scanTagToken
    else if ch = '|' ∧ !s.inFlow then s.scanBlockScalarToken true
    else if ch = '>' ∧ !s.inFlow then s.scanBlockScalarToken false
    else if ch = '\'' then s.scanQuotedToken true
    else if ch = '"' then s.scanQuotedToken false
    else if s.atPlain ch then s.scanPlainToken
    else throw (c.fault .scanningToken c.mark .noTokenStart)

/-- How many tokens can be used: those in front of every possible key. -/
def usable (s : Scanner) : Nat :=
  s.keys.foldl (fun n key => match key with
    | some key => min n key.number
    | none => n) s.tokens.size

def isDone (s : Scanner) : Bool :=
  match s.tokens.back? with
  | some token => token.kind == .streamEnd
  | none => false

/-- Adds tokens up to the end; `used` is how many tokens were usable before. -/
def scanAll : Nat → Nat → Scanner → Tokens
  | 0, _, s => ⟨s.tokens.toList, none⟩
  | fuel + 1, used, s =>
    if s.isDone then ⟨s.tokens.toList, none⟩
    else
      let stopped (used : Nat) (fault : Fault) : Tokens :=
        ⟨s.tokens.toList.take used, some fault⟩
      -- a possible key is given up before more is read, unless no token waits for it
      let checked := if used < s.tokens.size then s.dropStale else .ok s
      match checked with
      | .error fault => stopped used fault
      | .ok s =>
        match s.scanToken with
        | .error fault => stopped s.usable fault
        | .ok next => scanAll fuel s.usable next

end Scanner

/-- Whether a text may hold a character. -/
def isAllowed (c : Char) : Bool :=
  let n := c.toNat
  n == 0x09 || n == 0x0A || n == 0x0D || (0x20 ≤ n && n ≤ 0x7E) || n == 0x85 ||
    (0xA0 ≤ n && n ≤ 0xD7FF) || (0xE000 ≤ n && n ≤ 0xFFFD) || 0x10000 ≤ n

/-- The number of bytes in front of the first character that a text may not hold. -/
def badOffset? : Nat → List Char → Option Nat
  | _, [] => none
  | n, c :: s => if isAllowed c then badOffset? (n + c.utf8Size) s else some n

/-- The tokens of a text. A byte order mark in front of it is no part of it. -/
def tokens (text : List Char) : Tokens :=
  let (skipped, text) := match text with
    | '\ufeff' :: rest => (3, rest)
    | _ => (0, text)
  match badOffset? skipped text with
  | some offset => ⟨[], some (.badCharacter offset)⟩
  | none => Scanner.scanAll (2 * text.length + 4) 0 (.start text)

end StyleBuild.Yaml
