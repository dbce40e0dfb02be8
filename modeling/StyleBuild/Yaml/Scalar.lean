import StyleBuild.Digest.Hex
import StyleBuild.Yaml.Cursor

/-!
# Scanning YAML scalars

Quoted, plain and block scalars. In quoted and plain scalars the blanks around
line breaks fall away, one break becomes a space, and of several the first is
dropped; a block scalar keeps its lines or folds them.
-/

namespace StyleBuild.Yaml

/-- Blanks and breaks between two parts of a scalar. -/
structure Gap where
  /-- The blanks, when there was no break. -/
  blanks : List Char
  /-- The first break. -/
  first : List Char
  /-- The breaks after the first. -/
  more : List Char
  /-- Whether there was a break. -/
  broken : Bool

def Gap.none : Gap := ⟨[], [], [], false⟩

/-- What a gap stands for. -/
def Gap.text (g : Gap) : List Char :=
  if g.broken then
    if g.first = ['\n'] then (if g.more.isEmpty then [' '] else g.more) else g.first ++ g.more
  else g.blanks

/-- Reads blanks and breaks; `tabs` tells the fault of a tab behind a break. -/
def scanGap (tabs : Cursor → Option Fault) : Nat → Gap → Cursor → Except Fault (Gap × Cursor)
  | 0, g, c => .ok (g, c)
  | fuel + 1, g, c =>
    match c.head? with
    | none => .ok (g, c)
    | some ch =>
      if isBlank ch then
        match (if g.broken then tabs c else none) with
        | some fault => .error fault
        | none =>
          let g := if g.broken then g else { g with blanks := g.blanks ++ [ch] }
          scanGap tabs fuel g (c.right 1)
      else if isBreak ch then
        let (read, c) := c.takeBreak
        let g := if g.broken then { g with more := g.more ++ read }
          else ⟨[], read, [], true⟩
        scanGap tabs fuel g c
      else .ok (g, c)

/-- The characters that an escape of one letter stands for. -/
def escaped? (c : Char) : Option Char :=
  match c with
  | '0' => some '\x00'
  | 'a' => some '\x07'
  | 'b' => some '\x08'
  | 't' => some '\t'
  | '\t' => some '\t'
  | 'n' => some '\n'
  | 'v' => some '\x0b'
  | 'f' => some '\x0c'
  | 'r' => some '\r'
  | 'e' => some '\x1b'
  | ' ' => some ' '
  | '"' => some '"'
  | '/' => some '/'
  | '\\' => some '\\'
  | 'N' => some '\u0085'
  | '_' => some '\u00a0'
  | 'L' => some '\u2028'
  | 'P' => some '\u2029'
  | _ => none

/-- How many digits an escape by number has. -/
def escapeWidth? (c : Char) : Option Nat :=
  match c with
  | 'x' => some 2
  | 'u' => some 4
  | 'U' => some 8
  | _ => none

/-- Reads an escape from its backslash on. -/
def scanEscape (began : Mark) (c : Cursor) : Except Fault (Char × Cursor) :=
  let unknown := c.fault .parsingQuoted began .unknownEscape
  match c.rest[1]? with
  | none => .error unknown
  | some letter =>
    match escaped? letter, escapeWidth? letter with
    | some ch, _ => .ok (ch, c.right 2)
    | none, none => .error unknown
    | none, some width =>
      let c := c.right 2
      let digits := (c.rest.take width).filterMap Digest.hexValue?
      if digits.length < width then .error (c.fault .parsingQuoted began .missingHexDigits)
      else
        let code := digits.foldl (fun n d => n * 16 + d) 0
        if (0xD800 ≤ code ∧ code ≤ 0xDFFF) ∨ 0x10FFFF < code then
          .error (c.fault .parsingQuoted began .badCharacterCode)
        else .ok (Char.ofNat code, c.right width)

/-- Reads the characters of a quoted scalar up to a blank, a break or the closing quote, and
says whether an escaped break ended them. -/
def scanQuotedPart (single : Bool) (began : Mark) : Nat → List Char → Cursor →
    Except Fault (List Char × Bool × Cursor)
  | 0, text, c => .ok (text, false, c)
  | fuel + 1, text, c =>
    match c.rest with
    | [] => .ok (text, false, c)
    | ch :: rest =>
      if isBlank ch || isBreak ch then .ok (text, false, c)
      else if single && ch == '\'' && rest.head? == some '\'' then
        scanQuotedPart single began fuel (text ++ ['\'']) (c.right 2)
      else if ch == (if single then '\'' else '"') then .ok (text, false, c)
      else if !single && ch == '\\' then
        if (c.right 1).atBreak then .ok (text, true, (c.right 1).takeBreak.2)
        else
          match scanEscape began c with
          | .error fault => .error fault
          | .ok (d, c) => scanQuotedPart single began fuel (text ++ [d]) c
      else scanQuotedPart single began fuel (text ++ [ch]) (c.right 1)

/-- Reads a quoted scalar behind its opening quote. -/
def scanQuoted (single : Bool) (began : Mark) : Nat → List Char → Cursor →
    Except Fault (List Char × Cursor)
  | 0, text, c => .ok (text, c)
  | fuel + 1, text, c =>
    if c.atDocumentIndicator then .error (c.fault .scanningQuoted began .documentIndicatorInQuoted)
    else if c.atEnd then .error (c.fault .scanningQuoted began .endInQuoted)
    else
      match scanQuotedPart single began (c.rest.length + 1) text c with
      | .error fault => .error fault
      | .ok (text, broken, c) =>
        if c.sees (if single then '\'' else '"') then .ok (text, c.right 1)
        else
          match scanGap (fun _ => none) (c.rest.length + 1) { Gap.none with broken } c with
          | .error fault => .error fault
          | .ok (gap, c) => scanQuoted single began fuel (text ++ gap.text) c

/-- Reads the characters of a plain scalar up to a blank, a break or an indicator. -/
def scanPlainPart (flow : Bool) (began : Mark) : Nat → List Char → Cursor →
    Except Fault (List Char × Cursor)
  | 0, text, c => .ok (text, c)
  | fuel + 1, text, c =>
    match c.rest with
    | [] => .ok (text, c)
    | ch :: _ =>
      if isBlank ch || isBreak ch then .ok (text, c)
      else if flow && ch == ':' && c.test 1 [',', '?', '[', ']', '{', '}'].contains then
        .error (c.fault .scanningPlain began .colonInFlow)
      else if ch == ':' && c.seesSpaceAt 1 then .ok (text, c)
      else if flow && [',', '[', ']', '{', '}'].contains ch then .ok (text, c)
      else scanPlainPart flow began fuel (text ++ [ch]) (c.right 1)

/-- Reads a plain scalar from its first character on. Answers its text, where it ended, whether
a break stands behind it, and what is left. -/
def scanPlain (flow : Bool) (indent : Int) (began : Mark) : Nat → List Char → Gap → Mark →
    Cursor → Except Fault (List Char × Mark × Bool × Cursor)
  | 0, text, gap, last, c => .ok (text, last, gap.broken, c)
  | fuel + 1, text, gap, last, c =>
    if c.atDocumentIndicator || c.sees '#' then .ok (text, last, gap.broken, c)
    else
      match scanPlainPart flow began (c.rest.length + 1) [] c with
      | .error fault => .error fault
      | .ok (part, c) =>
        let (text, gap, last) :=
          if part.isEmpty then (text, gap, last) else (text ++ gap.text ++ part, Gap.none, c.mark)
        if !(c.atBlank || c.atBreak) then .ok (text, last, gap.broken, c)
        else
          let tabs (c : Cursor) : Option Fault :=
            if (c.mark.column : Int) < indent ∧ c.sees '\t' then
              some (c.fault .scanningPlain began .tabInPlain)
            else none
          match scanGap tabs (c.rest.length + 1) gap c with
          | .error fault => .error fault
          | .ok (gap, c) =>
            if !flow && (c.mark.column : Int) < indent then .ok (text, last, gap.broken, c)
            else scanPlain flow indent began fuel text gap last c

/-- How the breaks at the end of a block scalar are treated. -/
inductive Chomping where
  | strip
  | clip
  | keep
  deriving DecidableEq, Repr

/-- Reads the header of a block scalar behind its indicator: chomping and indentation. -/
def scanBlockHeader (began : Mark) (c : Cursor) : Except Fault (Chomping × Nat × Cursor) :=
  let chomping? (c : Cursor) : Option Chomping :=
    if c.sees '+' then some .keep else if c.sees '-' then some .strip else none
  let digit (c : Cursor) : Except Fault (Nat × Cursor) :=
    match c.head? with
    | some ch =>
      if ch = '0' then .error (c.fault .scanningBlockScalar began .zeroIndentation)
      else if ch.isDigit then .ok (ch.toNat - 48, c.right 1)
      else .ok (0, c)
    | none => .ok (0, c)
  match chomping? c with
  | some chomping => (digit (c.right 1)).map fun (n, c) => (chomping, n, c)
  | none =>
    match digit c with
    | .error fault => .error fault
    | .ok (0, c) => .ok (.clip, 0, c)
    | .ok (n, c) =>
      match chomping? c with
      | some chomping => .ok (chomping, n, c.right 1)
      | none => .ok (.clip, n, c)

/-- What was found in front of a line of a block scalar. -/
structure Margin where
  breaks : List Char
  indent : Nat
  /-- The end of the last break. -/
  last : Mark

/-- Passes indentation and empty lines. `indent` is zero while it is not known; then it becomes
the deepest column met, at least `least`. -/
def scanMargin (began : Mark) (least : Int) (indent : Nat) : Nat → Nat → Margin → Cursor →
    Except Fault (Margin × Cursor)
  | 0, _, m, c => .ok (m, c)
  | fuel + 1, deepest, m, c =>
    let spaces := (c.rest.takeWhile (· == ' ')).length
    let room := if indent = 0 then spaces else min spaces (indent - c.mark.column)
    let c := c.right room
    let deepest := max deepest c.mark.column
    if (indent = 0 ∨ c.mark.column < indent) ∧ c.sees '\t' then
      .error (c.fault .scanningBlockScalar began .tabInIndentation)
    else if c.atBreak then
      let (read, c) := c.takeBreak
      scanMargin began least indent fuel deepest
        { m with breaks := m.breaks ++ read, last := c.mark } c
    else
      let found := if indent = 0 then max (max (deepest : Int) least).toNat 1 else indent
      .ok ({ m with indent := found }, c)

/-- Reads the lines of a block scalar. -/
def scanBlockLines (literal : Bool) (began : Mark) (least : Int) : Nat → List Char → List Char →
    Bool → Margin → Cursor → Except Fault (List Char × List Char × Margin × Cursor)
  | 0, text, ending, _, m, c => .ok (text, ending, m, c)
  | fuel + 1, text, ending, blankBefore, m, c =>
    if c.mark.column ≠ m.indent ∨ c.atEnd then .ok (text, ending, m, c)
    else
      let blank := c.atBlank
      let joint :=
        if !literal && ending == ['\n'] && !blankBefore && !blank then
          (if m.breaks.isEmpty then [' '] else [])
        else ending
      let (line, c) := c.span fun _ => true
      let (ending, c) := c.takeBreak
      match scanMargin began least m.indent (c.rest.length + 1) 0 ⟨[], m.indent, c.mark⟩ c with
      | .error fault => .error fault
      | .ok (m', c) =>
        scanBlockLines literal began least fuel (text ++ joint ++ m.breaks ++ line) ending blank
          m' c

/-- Reads a block scalar behind its indicator, inside a block that is indented by `outer`.
Answers its text, where it ended, and what is left. -/
def scanBlockScalar (literal : Bool) (outer : Int) (began : Mark) (c : Cursor) :
    Except Fault (List Char × Mark × Cursor) := do
  let (chomping, increment, c) ← scanBlockHeader began c
  let c := c.skipBlanks
  let c := if c.sees '#' then c.skipLine else c
  if !(c.atEnd || c.atBreak) then
    throw (c.fault .scanningBlockScalar began .missingCommentOrBreak)
  let c := c.takeBreak.2
  let indent := if increment = 0 then 0 else (max outer 0 + increment).toNat
  let fuel := c.rest.length + 1
  let (m, c) ← scanMargin began (outer + 1) indent fuel 0 ⟨[], indent, c.mark⟩ c
  let (text, ending, m, c) ← scanBlockLines literal began (outer + 1) fuel [] [] false m c
  let tail := match chomping with
    | .strip => []
    | .clip => ending
    | .keep => ending ++ m.breaks
  return (text ++ tail, m.last, c)

end StyleBuild.Yaml
