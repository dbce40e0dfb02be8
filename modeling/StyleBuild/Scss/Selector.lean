import StyleBuild.Engine.Basic
import StyleBuild.Scss.Scan

/-!
# Selectors

A selector list holds complex selectors, which are compounds with combinators
between them; two compounds without one are parent and descendant. A compound is
kept as it is written.

`Selector.resolve` puts a nested selector below its parents: in front of it, or
where it has `&`. With several parents, the selectors for the first one come
first.
-/

namespace StyleBuild.Scss

inductive SelectorPart where
  | combinator (c : Char)
  | compound (text : List Char)
  deriving DecidableEq, Repr

structure Selector where
  parts : List SelectorPart
  /-- Whether it starts a line of its list. -/
  ownLine : Bool
  deriving DecidableEq, Repr

def isCombinator (c : Char) : Bool := c = '>' || c = '+' || c = '~'

/-- Splits off a compound, which goes to the next space, comma or combinator outside of
brackets and strings. -/
def scanCompound (depth : Nat) (quote : Option Char) : List Char → List Char × List Char
  | [] => ([], [])
  | '\\' :: c :: s =>
    let (text, rest) := scanCompound depth quote s
    ('\\' :: c :: text, rest)
  | c :: s =>
    let go (depth : Nat) (quote : Option Char) : List Char × List Char :=
      let (text, rest) := scanCompound depth quote s
      (c :: text, rest)
    match quote with
    | some q => go depth (if c = q then none else quote)
    | none =>
      if depth = 0 &&
          (isSpace c || c = ',' || isCombinator c || (c = '/' && s.head? = some '*')) then
        ([], c :: s)
      else if c = '"' || c = '\'' then go depth (some c)
      else if c = '(' || c = '[' then go (depth + 1) none
      else if c = ')' || c = ']' then go (depth - 1) none
      else go depth none

/-- Reads the parts of a complex selector. -/
def readParts : Nat → List Char → List SelectorPart × List Char
  | 0, s => ([], s)
  | fuel + 1, s =>
    match skipGap s with
    | [] => ([], [])
    | ',' :: rest => ([], ',' :: rest)
    | c :: rest =>
      if isCombinator c then
        let (parts, rest) := readParts fuel rest
        (.combinator c :: parts, rest)
      else
        let (text, rest) := scanCompound 0 none (c :: rest)
        let (parts, rest) := readParts fuel rest
        (.compound text :: parts, rest)

/-- Reads selectors, the first one of which may start a line. -/
def readSelectors : Nat → Bool → List Char → Checked (List Selector)
  | 0, _, _ => .error .missingSelector
  | fuel + 1, ownLine, s =>
    let (parts, rest) := readParts (s.length + 1) s
    if parts.isEmpty then .error .missingSelector
    else
      match rest with
      | ',' :: rest =>
        let after := skipGap (rest.dropWhile fun c => c = ',' || isSpace c)
        if after.isEmpty then .ok [⟨parts, ownLine⟩]
        else
          (readSelectors fuel ((taken rest after).contains '\n') after).map
            fun selectors => ⟨parts, ownLine⟩ :: selectors
      | _ => .ok [⟨parts, ownLine⟩]

namespace Selector

/-- The selectors in a text. -/
def ofText (s : List Char) : Checked (List Selector) := readSelectors (s.length + 1) false s

/-- What follows a `&`. -/
def afterParent? : SelectorPart → Option (List Char)
  | .compound ('&' :: rest) => some rest
  | _ => none

/-- The parts of a parent with a text attached to the last compound. -/
def attach (parts : List SelectorPart) (text : List Char) : List SelectorPart :=
  match text, parts.getLast? with
  | [], _ => parts
  | text, some (.compound last) => parts.dropLast ++ [.compound (last ++ text)]
  | text, _ => parts ++ [.compound text]

/-- The selectors with their next part put in place. -/
def placePart (parents : List Selector) (part : SelectorPart) (made : List Selector) :
    List Selector :=
  match afterParent? part with
  | some text =>
    made.flatMap fun m => parents.map fun p =>
      ⟨m.parts ++ attach p.parts text, m.ownLine || p.ownLine⟩
  | none => made.map fun m => { m with parts := m.parts ++ [part] }

/-- A selector below each of its parents. -/
def below (parents : List Selector) (s : Selector) : List Selector :=
  if s.parts.any fun part => (afterParent? part).isSome then
    s.parts.foldl (fun made part => placePart parents part made) [⟨[], false⟩]
  else parents.map fun p => ⟨p.parts ++ s.parts, s.ownLine || p.ownLine⟩

/-- The first of each list, then the second of each, and so on. -/
def interleaved {α : Type} (lists : List (List α)) : List α :=
  let longest := (lists.map List.length).foldl max 0
  (List.range longest).flatMap fun i => lists.filterMap (·[i]?)

/-- The selectors of a rule inside of a rule with some selectors, or of one at the top. -/
def resolve (parents : Option (List Selector)) (selectors : List Selector) :
    Checked (List Selector) :=
  match parents with
  | some parents => .ok (interleaved (selectors.map (below parents)))
  | none =>
    if selectors.any fun s => s.parts.any fun part => (afterParent? part).isSome then
      .error .parentAtTop
    else .ok selectors

def partText : SelectorPart → List Char
  | .combinator c => [c]
  | .compound text => text

/-- The text of parts; short CSS has no space beside a combinator. -/
def partsText (format : OutputFormat) : List SelectorPart → List Char
  | [] => []
  | [part] => partText part
  | part :: next :: rest =>
    let tight : Bool := match part, next with
      | .compound _, .compound _ => false
      | _, _ => format == .crunched
    partText part ++ (if tight then [] else [' ']) ++ partsText format (next :: rest)

/-- The text of selectors behind the first one. -/
def othersText (format : OutputFormat) : List Selector → List Char
  | [] => []
  | s :: rest =>
    let gap := match format with
      | .crunched => []
      | .expanded => if s.ownLine then ['\n'] else [' ']
    ',' :: gap ++ partsText format s.parts ++ othersText format rest

def listText (format : OutputFormat) : List Selector → List Char
  | [] => []
  | s :: rest => partsText format s.parts ++ othersText format rest

end Selector

end StyleBuild.Scss
