import StyleBuild.Scss.Expression
import StyleBuild.Text.Affix

/-!
# Style sheets

A style sheet is a list of statements: imports, `@media` blocks, and items,
which also stand in blocks: assignments, comments, declarations and rules. It is
read to its end before anything of it is run.

Inside a rule a text such as `a:hover` can start a declaration or a rule. It is
a declaration if it can be read as one and no block follows.
-/

namespace StyleBuild.Scss

open Text

inductive Item where
  /-- A guarded assignment does nothing when the variable has a value. -/
  | assign (name : List Char) (value : Expression) (guarded : Bool)
  /-- A comment, and how many characters stand in front of it on its line. -/
  | comment (text : List Char) (column : Nat)
  | declaration (property : List Char) (value : Expression)
  | rule (selector : List Char) (body : List Item)

inductive Import where
  /-- An import for the reader of the CSS, as it is written. -/
  | plain (text : List Char)
  | sheet (url : List Char)

inductive Statement where
  | item (i : Item)
  | imports (all : List Import)
  | media (query : List Char) (body : List Item)

/-- How many characters stand on the last line of what was taken off a text. -/
def columnOf (whole rest : List Char) : Nat :=
  ((taken whole rest).reverse.takeWhile (· ≠ '\n')).length

/-- A text without spaces at its ends and with single ones inside. -/
def singleSpaced : List Char → List Char
  | [] => []
  | c :: s =>
    let rest := singleSpaced s
    if isSpace c then
      match rest with
      | [] => []
      | ' ' :: _ => rest
      | _ => ' ' :: rest
    else c :: rest

/-- Where the text in front of a block has got to. -/
inductive PreludePart where
  | plain
  | quoted (quote : Char)
  | lineComment
  | blockComment

/-- Splits off the text in front of a block, or of what stands in its place. -/
def scanPrelude : PreludePart → List Char → List Char × List Char
  | _, [] => ([], [])
  | .plain, '/' :: '*' :: s =>
    let (text, rest) := scanPrelude .blockComment s
    ('/' :: '*' :: text, rest)
  | .plain, '/' :: '/' :: s =>
    let (text, rest) := scanPrelude .lineComment s
    ('/' :: '/' :: text, rest)
  | .blockComment, '*' :: '/' :: s =>
    let (text, rest) := scanPrelude .plain s
    ('*' :: '/' :: text, rest)
  | part, c :: s =>
    let go (part : PreludePart) : List Char × List Char :=
      let (text, rest) := scanPrelude part s
      (c :: text, rest)
    match part with
    | .plain =>
      if c = '!' || c = ';' || c = '{' || c = '}' then ([], c :: s)
      else if c = '"' || c = '\'' then go (.quoted c)
      else go .plain
    | .quoted q => go (if c = q || isLineEnd c then .plain else .quoted q)
    | .lineComment => go (if isLineEnd c then .plain else .lineComment)
    | .blockComment => go .blockComment

/-- Passes over the spaces behind a statement, which ends there. -/
def endStatement (s : List Char) : Checked (List Char) :=
  match skipSpace s with
  | [] => .ok []
  | c :: rest => if c = ';' ∨ c = '}' then .ok (c :: rest) else .error (.missing ';')

/-- Splits off the flags of an assignment; tells whether it is guarded. -/
def scanFlags (guarded : Bool) : Nat → List Char → Checked (Bool × List Char)
  | 0, s => .ok (guarded, s)
  | fuel + 1, s =>
    match s with
    | '!' :: rest => do
      let (flag, rest) ← scanName rest
      if flag = "default".toList then scanFlags true fuel (skipGap rest)
      else throw .unknownFlag
    | s => .ok (guarded, s)

/-- Reads an assignment behind its `$`. -/
def readAssignment (s : List Char) : Checked (Item × List Char) := do
  let (name, rest) ← scanName s
  let rest ← expect ':' (skipGap rest)
  let (value, rest) ← readExpression rest
  let (guarded, rest) ← scanFlags false rest.length rest
  return (.assign name value guarded, ← endStatement rest)

/-- What an item in a rule turns out to be. -/
inductive Start where
  | declaration (property : List Char) (value : Expression)
  /-- The selector of a rule. -/
  | rule (selector : List Char)

/-- The start of a rule whose selector starts with what was read. -/
def ruleStart (before s : List Char) : Start × List Char :=
  let (text, rest) := scanPrelude .plain s
  (.rule (before ++ text), rest)

/-- Reads the value of a declaration. -/
def readDeclared (s : List Char) : Checked (Expression × List Char) := do
  let (value, rest) ← readExpression s
  return (value, ← endStatement rest)

/-- Reads an item behind its name and colon. -/
def readAfterColon (property before s : List Char) : Checked (Start × List Char) :=
  let afterGap := skipGap s
  let mayBeSelector := afterGap.length = s.length && atName s
  match readDeclared afterGap with
  | .ok (value, rest) => .ok (.declaration property value, rest)
  | .error complaint =>
    if mayBeSelector then
      match ruleStart before s with
      | (_, ';' :: _) => .error complaint
      | started => .ok started
    else .error complaint

/-- Reads the start of an item in a rule. -/
def readStart (s : List Char) : Checked (Start × List Char) := do
  let (mark, rest) := match s with
    | c :: rest => if [':', '*', '.', '#'].contains c then (taken s (skipGap rest), skipGap rest)
      else ([], s)
    | [] => ([], [])
  if !atName rest then return ruleStart mark rest
  let (name, rest) ← scanName rest
  let property := mark ++ name
  let afterGap := skipGap rest
  let gap := taken rest afterGap
  match afterGap with
  | ':' :: ':' :: rest => return ruleStart (property ++ gap ++ [':', ':']) rest
  | ':' :: rest => readAfterColon property (property ++ gap ++ [':']) rest
  | rest => return ruleStart (property ++ if gap.isEmpty then [] else [' ']) rest

/-- Passes over the opening brace of a block, in front of which something has to stand. -/
def openBlock (before s : List Char) : Checked (List Char) :=
  if before.isEmpty then .error (.missing '{') else expect '{' s

/-- Reads the items of a block up to its closing brace; `whole` is the whole text. -/
def readItems (whole : List Char) : Nat → Bool → List Char → Checked (List Item × List Char)
  | 0, _, _ => .error (.missing '}')
  | fuel + 1, inRule, s =>
    let more (i : Item) (rest : List Char) : Checked (List Item × List Char) :=
      (readItems whole fuel inRule rest).map fun (items, rest) => (i :: items, rest)
    let s := skipSpace s
    match s with
    | [] => .error (.missing '}')
    | '}' :: rest => .ok ([], rest)
    | ';' :: rest => readItems whole fuel inRule rest
    | '$' :: rest => do
      let (i, rest) ← readAssignment rest
      more i rest
    | '/' :: '/' :: rest => readItems whole fuel inRule (skipLine rest)
    | '/' :: '*' :: rest => do
      let (text, rest) ← scanComment rest
      more (.comment ('/' :: '*' :: text) (columnOf whole s)) rest
    | '@' :: _ => .error .strayAtRule
    | s => do
      let (start, rest) ← if inRule then readStart s else pure (ruleStart [] s)
      match start with
      | .declaration property value => more (.declaration property value) rest
      | .rule selector =>
        let (body, rest) ← readItems whole fuel true (← openBlock selector rest)
        more (.rule selector body) rest

/-- Whether an import is not the business of a compiler. -/
def isPlainUrl (url : List Char) : Bool :=
  let url := url.map Char.toLower
  5 ≤ (String.ofList url).utf8ByteSize &&
    (endsWith ".css".toList url || startsWith "http://".toList url ||
      startsWith "https://".toList url || startsWith "//".toList url)

/-- Splits off what follows the address of a plain import. -/
def scanModifiers (s : List Char) : List Char × List Char :=
  if atName s || s.head? = some '(' then
    let (text, rest) := scanPrelude .plain s
    (singleSpaced text, rest)
  else ([], s)

/-- Reads one import. -/
def readImport (s : List Char) : Checked (Import × List Char) := do
  let plain (address : List Char) (rest : List Char) : Import × List Char :=
    let (modifiers, rest) := scanModifiers (skipGap rest)
    (.plain (address ++ if modifiers.isEmpty then [] else ' ' :: modifiers), rest)
  match s with
  | c :: _ =>
    if c = 'u' ∨ c = 'U' then
      match ← readSingle (2 * s.length + 2) s with
      | (.value (.word address), rest) => return plain address.toList rest
      | (_, rest) => return plain (taken s rest) rest
    else
      let (url, rest) ← scanString s
      let address := taken s rest
      let rest := skipGap rest
      if isPlainUrl url || !(scanModifiers rest).1.isEmpty then return plain address rest
      else return (.sheet url, rest)
  | [] => throw .missingString

/-- Reads imports with commas between them. -/
def readImports : Nat → List Char → Checked (List Import × List Char)
  | 0, _ => .error .missingString
  | fuel + 1, s => do
    let (first, rest) ← readImport (skipGap s)
    match skipGap rest with
    | ',' :: rest =>
      let (others, rest) ← readImports fuel rest
      return (first :: others, rest)
    | rest => return ([first], ← endStatement rest)

/-- Reads an at-rule behind its `@`. -/
def readAtRule (whole s : List Char) : Checked (Statement × List Char) := do
  let (name, rest) ← scanName s
  if name = "import".toList then
    let (all, rest) ← readImports (rest.length + 1) rest
    return (.imports all, rest)
  else if name = "media".toList then
    let (query, rest) := scanPrelude .plain (skipGap rest)
    let (body, rest) ← readItems whole (rest.length + 1) false (← openBlock query rest)
    return (.media (singleSpaced query) body, rest)
  else throw .strayAtRule

/-- Reads statements; `whole` is the whole text. -/
def readStatements (whole : List Char) : Nat → List Char → Checked (List Statement)
  | 0, _ => .ok []
  | fuel + 1, s =>
    let more (statement : Statement) (rest : List Char) : Checked (List Statement) :=
      (readStatements whole fuel rest).map (statement :: ·)
    let s := skipSpace s
    match s with
    | [] => .ok []
    | '}' :: _ => .error .unmatchedBrace
    | ';' :: rest => readStatements whole fuel rest
    | '$' :: rest => do
      let (i, rest) ← readAssignment rest
      more (.item i) rest
    | '/' :: '/' :: rest => readStatements whole fuel (skipLine rest)
    | '/' :: '*' :: rest => do
      let (text, rest) ← scanComment rest
      more (.item (.comment ('/' :: '*' :: text) (columnOf whole s))) rest
    | '@' :: rest => do
      let (statement, rest) ← readAtRule whole rest
      more statement rest
    | s => do
      let (selector, rest) := scanPrelude .plain s
      let (body, rest) ← readItems whole (rest.length + 1) true (← openBlock selector rest)
      more (.item (.rule selector body)) rest

/-- The style sheet in a text. A byte order mark at its start does not count. -/
def readSheet (s : List Char) : Checked (List Statement) :=
  let s := match s with
    | '\uFEFF' :: rest => rest
    | s => s
  readStatements s (s.length + 1) s

end StyleBuild.Scss
