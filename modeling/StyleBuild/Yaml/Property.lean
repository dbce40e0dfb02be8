import StyleBuild.Digest.Hex
import StyleBuild.Yaml.Cursor
import StyleBuild.Yaml.Token

/-!
# Scanning directives, anchors and tags
-/

namespace StyleBuild.Yaml

/-- Reads an anchor or an alias from its indicator on. -/
def scanAnchor (activity : Activity) (c : Cursor) : Except Fault (List Char × Cursor) :=
  let began := c.mark
  let (name, c) := (c.right 1).span isNameCharacter
  if name.isEmpty ||
      !(c.seesSpaceAt 0 || c.test 0 ['?', ':', ',', ']', '}', '%', '@', '`'].contains) then
    .error (c.fault activity began .missingAnchorCharacter)
  else .ok (name, c)

/-- Reads the handle of a tag: `!`, or a name between two of them. In a tag that is no directive
it may also be the start of the tag itself. -/
def scanTagHandle (directive : Bool) (began : Mark) (c : Cursor) :
    Except Fault (List Char × Cursor) :=
  if !c.sees '!' then
    let activity := if directive then Activity.scanningTagDirectiveHandle else .scanningTag
    .error (c.fault activity began .missingBang)
  else
    let (name, c) := (c.right 1).span isNameCharacter
    if c.sees '!' then .ok ('!' :: name ++ ['!'], c.right 1)
    else if directive && !name.isEmpty then
      .error (c.fault .parsingTagDirectiveHandle began .missingBang)
    else .ok ('!' :: name, c)

/-- The characters of a tag, with or without those that end one in a flow. -/
def isTagCharacter (whole : Bool) (c : Char) : Bool :=
  isNameCharacter c || ";/?:@&=+$.%!~*'()".toList.contains c ||
    (whole && [',', '[', ']'].contains c)

/-- The number of bytes of a character with this first byte, zero when none has it. -/
def octetWidth (b : Nat) : Nat :=
  if b < 0x80 then 1
  else if 0xC0 ≤ b ∧ b < 0xE0 then 2
  else if 0xE0 ≤ b ∧ b < 0xF0 then 3
  else if 0xF0 ≤ b ∧ b < 0xF8 then 4
  else 0

/-- Reads one escaped byte of a tag. -/
def scanOctet (activity : Activity) (began : Mark) (c : Cursor) : Except Fault (Nat × Cursor) :=
  let fault := c.fault activity began .missingUriEscape
  match c.rest with
  | '%' :: a :: b :: _ =>
    match Digest.hexValue? a, Digest.hexValue? b with
    | some a, some b => .ok (a * 16 + b, c)
    | _, _ => .error fault
  | _ => .error fault

/-- Reads the bytes of one escaped character; the first call has no width yet. -/
def scanOctets (activity : Activity) (began : Mark) : Nat → Nat → List UInt8 → Cursor →
    Except Fault (List UInt8 × Cursor)
  | 0, _, bytes, c => .ok (bytes, c)
  | fuel + 1, left, bytes, c =>
    match scanOctet activity began c with
    | .error fault => .error fault
    | .ok (b, c) =>
      let left := if bytes.isEmpty then octetWidth b else left
      if left = 0 then .error (c.fault activity began .badLeadingOctet)
      else if !bytes.isEmpty && b / 64 != 2 then
        .error (c.fault activity began .badTrailingOctet)
      else
        let bytes := bytes ++ [b.toUInt8]
        if left = 1 then .ok (bytes, c.right 3)
        else scanOctets activity began fuel (left - 1) bytes (c.right 3)

def octetText (bytes : List UInt8) : List Char :=
  match String.fromUTF8? ⟨bytes.toArray⟩ with
  | some s => s.toList
  | none => ['\ufffd']

/-- Reads the characters of a tag. -/
def scanTagText (whole : Bool) (activity : Activity) (began : Mark) : Nat → List Char → Cursor →
    Except Fault (List Char × Cursor)
  | 0, text, c => .ok (text, c)
  | fuel + 1, text, c =>
    match c.head? with
    | none => .ok (text, c)
    | some ch =>
      if ch = '%' then
        match scanOctets activity began 4 0 [] c with
        | .error fault => .error fault
        | .ok (bytes, c) => scanTagText whole activity began fuel (text ++ octetText bytes) c
      else if isTagCharacter whole ch then
        scanTagText whole activity began fuel (text ++ [ch]) (c.right 1)
      else .ok (text, c)

/-- Reads a tag behind `head`, which must not be empty together with what follows. -/
def scanTagSuffix (whole directive : Bool) (head : List Char) (began : Mark) (c : Cursor) :
    Except Fault (List Char × Cursor) :=
  let activity := if directive then Activity.parsingTagDirective else .parsingTag
  match scanTagText whole activity began (c.rest.length + 1) [] c with
  | .error fault => .error fault
  | .ok (text, c) =>
    if head.isEmpty && text.isEmpty then .error (c.fault activity began .missingTagUri)
    else .ok (head.drop 1 ++ text, c)

/-- Reads a tag from its indicator on: its handle and suffix. -/
def scanTag (flow : Bool) (c : Cursor) : Except Fault (TokenKind × Cursor) := do
  let began := c.mark
  let (kind, c) ←
    if c.test 1 (· == '<') then do
      let (suffix, c) ← scanTagSuffix true false [] began (c.right 2)
      if !c.sees '>' then throw (c.fault .scanningTag began .missingTagEnd)
      pure (TokenKind.tag [] suffix, c.right 1)
    else do
      let (handle, c') ← scanTagHandle false began c
      if 2 ≤ handle.length ∧ handle.getLast? = some '!' then
        let (suffix, c) ← scanTagSuffix false false [] began c'
        pure (TokenKind.tag handle suffix, c)
      else
        let (suffix, c) ← scanTagSuffix false false handle began c'
        if suffix.isEmpty then pure (TokenKind.tag [] ['!'], c)
        else pure (TokenKind.tag ['!'] suffix, c)
  if c.seesSpaceAt 0 || (flow && c.sees ',') then return (kind, c)
  else throw (c.fault .scanningTag began .missingBlankOrBreak)

/-- Reads a number of a version. -/
def scanVersionNumber (began : Mark) (c : Cursor) : Except Fault (Nat × Cursor) :=
  let (digits, after) := c.span Char.isDigit
  if 9 < digits.length then .error ((c.right 9).fault .scanningVersion began .longVersion)
  else if digits.isEmpty then .error (c.fault .scanningVersion began .missingVersion)
  else .ok (digits.foldl (fun n d => n * 10 + (d.toNat - 48)) 0, after)

/-- Reads the version behind the name of its directive. -/
def scanVersion (began : Mark) (c : Cursor) : Except Fault (TokenKind × Cursor) := do
  let (major, c) ← scanVersionNumber began c.skipBlanks
  if !c.sees '.' then throw (c.fault .scanningVersion began .missingVersionDigitOrDot)
  let (minor, c) ← scanVersionNumber began (c.right 1)
  return (.versionDirective major minor, c)

/-- Reads the handle and start of tags behind the name of their directive. -/
def scanTagDirective (began : Mark) (c : Cursor) : Except Fault (TokenKind × Cursor) := do
  let (handle, c) ← scanTagHandle true began c.skipBlanks
  if !c.atBlank then throw (c.fault .scanningTagDirective began .missingBlank)
  let (start, c) ← scanTagSuffix true true [] began c.skipBlanks
  if !c.seesSpaceAt 0 then throw (c.fault .scanningTagDirective began .missingBlankOrBreak)
  return (.tagDirective handle start, c)

/-- Reads a directive from its indicator on, to the end of its line. Answers also where its
content ended. -/
def scanDirective (c : Cursor) : Except Fault (TokenKind × Mark × Cursor) := do
  let began := c.mark
  let (name, c) := (c.right 1).span isNameCharacter
  if name.isEmpty then throw (c.fault .scanningDirective began .missingDirectiveName)
  if !c.seesSpaceAt 0 then throw (c.fault .scanningDirective began .strayDirectiveCharacter)
  let (kind, c) ←
    if name = "YAML".toList then scanVersion began c
    else if name = "TAG".toList then scanTagDirective began c
    else throw (c.fault .scanningDirective began .unknownDirective)
  let last := c.mark
  let c := c.skipBlanks
  let c := if c.sees '#' then c.skipLine else c
  if !(c.atEnd || c.atBreak) then
    throw (c.fault .scanningDirective began .missingCommentOrBreak)
  return (kind, last, c.takeBreak.2)

end StyleBuild.Yaml
