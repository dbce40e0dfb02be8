import StyleBuild.Lookup
import StyleBuild.Yaml.Scan

/-!
# Nodes of YAML documents

A document is a tree of scalars, sequences, mappings, and aliases of other
nodes. The nodes of a mapping are its keys and values by turns.

When a text is malformed, the tree reaches up to the fault: a collection that
was not read to its end holds what was read of it, and the fault.
-/

namespace StyleBuild.Yaml

inductive Node where
  | scalar (mark : Mark) (tag : Option String) (style : ScalarStyle) (text : String)
      (anchor : Option Nat)
  | sequence (mark : Mark) (tag : Option String) (items : List Node) (fault : Option Fault)
      (anchor : Option Nat)
  | mapping (mark : Mark) (tag : Option String) (items : List Node) (fault : Option Fault)
      (anchor : Option Nat)
  | aliasOf (mark : Mark) (anchor : Nat)
  deriving Repr

namespace Node

def mark : Node → Mark
  | scalar mark .. => mark
  | sequence mark .. => mark
  | mapping mark .. => mark
  | aliasOf mark _ => mark

mutual

/-- How many steps it takes to tell a node: one, and one more for the end of a collection. -/
def eventCount : Node → Nat
  | scalar .. => 1
  | sequence _ _ items fault _ => eventCounts items + if fault.isSome then 1 else 2
  | mapping _ _ items fault _ => eventCounts items + if fault.isSome then 1 else 2
  | aliasOf .. => 1

def eventCounts : List Node → Nat
  | [] => 0
  | n :: ns => eventCount n + eventCounts ns

end

mutual

/-- The last node with an anchor, at or below a node. -/
def findAnchor? (id : Nat) : Node → Option Node
  | scalar mark tag style text anchor =>
    if anchor = some id then some (scalar mark tag style text anchor) else none
  | sequence mark tag items fault anchor =>
    match findAnchorIn? id items with
    | some found => some found
    | none => if anchor = some id then some (sequence mark tag items fault anchor) else none
  | mapping mark tag items fault anchor =>
    match findAnchorIn? id items with
    | some found => some found
    | none => if anchor = some id then some (mapping mark tag items fault anchor) else none
  | aliasOf .. => none

def findAnchorIn? (id : Nat) : List Node → Option Node
  | [] => none
  | n :: ns =>
    match findAnchorIn? id ns with
    | some found => some found
    | none => findAnchor? id n

end

end Node

/-- The first document of a text. -/
structure Document where
  /-- Missing when a fault comes first, or when the text has no document. -/
  root : Option Node
  /-- The fault that ends the document. -/
  fault : Option Fault
  /-- Whether the text goes on behind the document. -/
  more : Bool

/-- What is left of the tokens, and the names given so far. -/
structure Reader where
  tokens : List Token
  fault : Option Fault
  anchors : List (List Char × Nat)
  handles : List (List Char × List Char)

/-- A node that was begun, and how to go on. -/
abbrev Begun := Option Node × Except Fault Reader

/-- Some nodes of a collection, and how to go on. -/
abbrev BegunItems := List Node × Except Fault Reader

namespace Reader

/-- The fault behind the last token; there is none behind the end of a text. -/
def ending (r : Reader) : Fault := r.fault.getD .endOfText

def next (r : Reader) : Reader := { r with tokens := r.tokens.tail }

/-- The next token. -/
def peek (r : Reader) : Except Fault Token :=
  match r.tokens with
  | token :: _ => .ok token
  | [] => .error r.ending

def faultAt (began : Mark) (activity : Activity) (problem : Problem) (token : Token) : Fault :=
  .malformed problem token.first (some (activity, began))

def emptyScalar (mark : Mark) : Node := .scalar mark none .plain "" none

end Reader

/-- The anchor and tag in front of a node. -/
structure Properties where
  began : Option Mark
  anchor : Option (List Char)
  tag : Option (List Char × List Char × Mark)

namespace Properties

def none : Properties := ⟨.none, .none, .none⟩

/-- Reads an anchor and a tag, in any order; at most two tokens. -/
def read : Nat → Properties → Reader → Except Fault (Properties × Reader)
  | 0, p, r => .ok (p, r)
  | n + 1, p, r => do
    let token ← r.peek
    let began := some (p.began.getD token.first)
    match token.kind with
    | .anchor name =>
      if p.anchor.isSome then return (p, r) else read n { p with began, anchor := name } r.next
    | .tag handle suffix =>
      if p.tag.isSome then return (p, r)
      else read n { p with began, tag := some (handle, suffix, token.first) } r.next
    | _ => return (p, r)

/-- The whole tag. -/
def fullTag (p : Properties) (r : Reader) (began : Mark) : Except Fault (Option (List Char)) :=
  match p.tag with
  | .none => .ok .none
  | some (handle, suffix, mark) =>
    if handle.isEmpty then .ok (some suffix)
    else
      match r.handles.lookup handle with
      | some start => .ok (some (start ++ suffix))
      | .none => .error (.malformed .undefinedHandle mark (some (.parsingNode, began)))

end Properties

/-- The tag of a scalar: `!` says no more than that it is not a plain one. -/
def scalarTag (tag : Option (List Char)) : Option String :=
  match tag with
  | none => none
  | some tag => if tag = ['!'] then none else some (String.ofList tag)

/-- Gives a node its anchor, whose number is the count of the names so far. A name that is
given again does not add to the count, so the next new name takes the same number, and both then
mean the last node with it. -/
def Reader.bindAnchor (r : Reader) (name : Option (List Char)) : Option Nat × Reader :=
  match name with
  | none => (none, r)
  | some name =>
    let id := r.anchors.length
    (some id, { r with anchors := Lookup.setFirst name id r.anchors })

mutual

/-- Reads a node; `fuel` bounds the number of calls. In a block, blocks may follow; a sequence
in a mapping need not be indented. -/
def readNode : Nat → Bool → Bool → Reader → Begun
  | 0, _, _, r => (none, .error r.ending)
  | fuel + 1, block, indentless, r =>
    match r.peek with
    | .error fault => (none, .error fault)
    | .ok token =>
      match token.kind with
      | .aliasOf name =>
        match r.anchors.lookup name with
        | none => (none, .error (.unknownAnchor token.first))
        | some id => (some (.aliasOf token.first id), .ok r.next)
      | _ =>
        match Properties.read 2 .none r with
        | .error fault => (none, .error fault)
        | .ok (p, r) =>
          match r.peek with
          | .error fault => (none, .error fault)
          | .ok token =>
            let began := p.began.getD token.first
            match p.fullTag r began with
            | .error fault => (none, .error fault)
            | .ok tag =>
              let name := tag.map String.ofList
              let (anchor, bound) := r.bindAnchor p.anchor
              let collection (make : Mark → Option String → List Node → Option Fault →
                  Option Nat → Node) (read : BegunItems) : Begun :=
                match read with
                | (items, .error fault) =>
                  (some (make began name items (some fault) anchor), .error fault)
                | (items, .ok r) => (some (make began name items none anchor), .ok r)
              match token.kind with
              | .scalar text style =>
                (some (.scalar began (scalarTag tag) style (String.ofList text) anchor),
                  .ok bound.next)
              | .flowSequenceStart =>
                collection .sequence (readFlowItems fuel true token.first bound.next)
              | .flowMappingStart =>
                collection .mapping (readFlowEntries fuel true token.first bound.next)
              | kind =>
                if indentless && kind == .blockEntry then
                  collection .sequence (readIndentlessItems fuel bound)
                else if block && kind == .blockSequenceStart then
                  collection .sequence (readBlockItems fuel token.first bound.next)
                else if block && kind == .blockMappingStart then
                  collection .mapping (readBlockEntries fuel token.first bound.next)
                else if p.anchor.isSome || p.tag.isSome then
                  (some (.scalar began (scalarTag tag) .plain "" anchor), .ok bound)
                else
                  let activity := if block then Activity.parsingBlockNode else .parsingFlowNode
                  (none, .error (Reader.faultAt began activity .missingContent token))

/-- Reads a node unless one of some tokens follows, which stands for an empty one at a mark. -/
def readNodeOrEmpty : Nat → Bool → Bool → List TokenKind → Option Mark → Reader → Begun
  | 0, _, _, _, _, r => (none, .error r.ending)
  | fuel + 1, block, indentless, stops, mark, r =>
    match r.peek with
    | .error fault => (none, .error fault)
    | .ok token =>
      if stops.contains token.kind then
        (some (Reader.emptyScalar (mark.getD token.first)), .ok r)
      else readNode fuel block indentless r

/-- Reads items with a dash at the column of their mapping. -/
def readIndentlessItems : Nat → Reader → BegunItems
  | 0, r => ([], .error r.ending)
  | fuel + 1, r =>
    match r.peek with
    | .error fault => ([], .error fault)
    | .ok token =>
      if token.kind = .blockEntry then
        match readNodeOrEmpty fuel true false [.blockEntry, .key, .value, .blockEnd]
            (some token.last) r.next with
        | (node, .error fault) => (node.toList, .error fault)
        | (node, .ok r) =>
          let (items, after) := readIndentlessItems fuel r
          (node.toList ++ items, after)
      else ([], .ok r)

/-- Reads the items of a block sequence that began at a mark. -/
def readBlockItems : Nat → Mark → Reader → BegunItems
  | 0, _, r => ([], .error r.ending)
  | fuel + 1, began, r =>
    match r.peek with
    | .error fault => ([], .error fault)
    | .ok token =>
      match token.kind with
      | .blockEntry =>
        match readNodeOrEmpty fuel true false [.blockEntry, .blockEnd] (some token.last)
            r.next with
        | (node, .error fault) => (node.toList, .error fault)
        | (node, .ok r) =>
          let (items, after) := readBlockItems fuel began r
          (node.toList ++ items, after)
      | .blockEnd => ([], .ok r.next)
      | _ => ([], .error (Reader.faultAt began .parsingBlockCollection .missingDash token))

/-- Reads the entries of a block mapping that began at a mark. -/
def readBlockEntries : Nat → Mark → Reader → BegunItems
  | 0, _, r => ([], .error r.ending)
  | fuel + 1, began, r =>
    let value (key : Node) (r : Reader) : BegunItems :=
      match readBlockValue fuel r with
      | (node, .error fault) => (key :: node.toList, .error fault)
      | (node, .ok r) =>
        let (items, after) := readBlockEntries fuel began r
        (key :: node.toList ++ items, after)
    match r.peek with
    | .error fault => ([], .error fault)
    | .ok token =>
      match token.kind with
      | .key =>
        match readNodeOrEmpty fuel true true [.key, .value, .blockEnd] (some token.last)
            r.next with
        | (node, .error fault) => (node.toList, .error fault)
        | (node, .ok r) => value (node.getD (Reader.emptyScalar token.last)) r
      | .value => value (Reader.emptyScalar token.first) r
      | .blockEnd => ([], .ok r.next)
      | _ => ([], .error (Reader.faultAt began .parsingBlockMapping .missingKey token))

/-- Reads the value behind a key of a block mapping; without a colon it is empty. -/
def readBlockValue : Nat → Reader → Begun
  | 0, r => (none, .error r.ending)
  | fuel + 1, r =>
    match r.peek with
    | .error fault => (none, .error fault)
    | .ok token =>
      if token.kind = .value then
        readNodeOrEmpty fuel true true [.key, .value, .blockEnd] (some token.last) r.next
      else (some (Reader.emptyScalar token.first), .ok r)

/-- Reads the items of a flow sequence that began at a mark. -/
def readFlowItems : Nat → Bool → Mark → Reader → BegunItems
  | 0, _, _, r => ([], .error r.ending)
  | fuel + 1, first, began, r =>
    let item (r : Reader) : BegunItems :=
      match r.peek with
      | .error fault => ([], .error fault)
      | .ok token =>
        if token.kind = .flowSequenceEnd then ([], .ok r.next)
        else
          let read := if token.kind = .key then readFlowPair fuel token.first r.next
            else readNode fuel false false r
          match read with
          | (node, .error fault) => (node.toList, .error fault)
          | (node, .ok r) =>
            let (items, after) := readFlowItems fuel false began r
            (node.toList ++ items, after)
    match r.peek with
    | .error fault => ([], .error fault)
    | .ok token =>
      if token.kind = .flowSequenceEnd then ([], .ok r.next)
      else if first then item r
      else if token.kind = .flowEntry then item r.next
      else ([], .error (Reader.faultAt began .parsingFlowSequence .missingCommaOrBracket token))

/-- Reads a mapping of one entry in a flow sequence, behind its key indicator. -/
def readFlowPair : Nat → Mark → Reader → Begun
  | 0, _, r => (none, .error r.ending)
  | fuel + 1, began, r =>
    let pair (items : List Node) (fault : Option Fault) : Option Node :=
      some (.mapping began none items fault none)
    match r.peek with
    | .error fault => (pair [] (some fault), .error fault)
    | .ok token =>
      let (key, after) : Begun :=
        if [.value, .flowEntry, .flowSequenceEnd].contains token.kind then
          (some (Reader.emptyScalar token.last), .ok r.next)
        else readNode fuel false false r
      match after with
      | .error fault => (pair key.toList (some fault), .error fault)
      | .ok r =>
        match r.peek with
        | .error fault => (pair key.toList (some fault), .error fault)
        | .ok token =>
          let (value, after) : Begun :=
            if token.kind = .value then
              readNodeOrEmpty fuel false false [.flowEntry, .flowSequenceEnd] none r.next
            else (some (Reader.emptyScalar token.first), .ok r)
          match after with
          | .error fault => (pair (key.toList ++ value.toList) (some fault), .error fault)
          | .ok r => (pair (key.toList ++ value.toList) none, .ok r)

/-- Reads the entries of a flow mapping that began at a mark. -/
def readFlowEntries : Nat → Bool → Mark → Reader → BegunItems
  | 0, _, _, r => ([], .error r.ending)
  | fuel + 1, first, began, r =>
    let close (key value : Begun) (more : Reader → BegunItems) : BegunItems :=
      match value with
      | (node, .error fault) => (key.1.toList ++ node.toList, .error fault)
      | (node, .ok r) =>
        let (items, after) := more r
        (key.1.toList ++ node.toList ++ items, after)
    let rest (r : Reader) : BegunItems := readFlowEntries fuel false began r
    let entry (r : Reader) : BegunItems :=
      match r.peek with
      | .error fault => ([], .error fault)
      | .ok token =>
        if token.kind = .flowMappingEnd then ([], .ok r.next)
        else if token.kind = .key then
          match readNodeOrEmpty fuel false false [.value, .flowEntry, .flowMappingEnd] none
              r.next with
          | (node, .error fault) => (node.toList, .error fault)
          | (node, .ok r) => close (node, .ok r) (readFlowValue fuel r) rest
        else
          match readNode fuel false false r with
          | (node, .error fault) => (node.toList, .error fault)
          | (node, .ok r) =>
            match r.peek with
            | .error fault => (node.toList, .error fault)
            | .ok token =>
              close (node, .ok r) (some (Reader.emptyScalar token.first), .ok r) rest
    match r.peek with
    | .error fault => ([], .error fault)
    | .ok token =>
      if token.kind = .flowMappingEnd then ([], .ok r.next)
      else if first then entry r
      else if token.kind = .flowEntry then entry r.next
      else ([], .error (Reader.faultAt began .parsingFlowMapping .missingCommaOrBrace token))

/-- Reads the value behind a key of a flow mapping. -/
def readFlowValue : Nat → Reader → Begun
  | 0, r => (none, .error r.ending)
  | fuel + 1, r =>
    match r.peek with
    | .error fault => (none, .error fault)
    | .ok token =>
      if token.kind = .value then
        readNodeOrEmpty fuel false false [.flowEntry, .flowMappingEnd] none r.next
      else (some (Reader.emptyScalar token.first), .ok r)

end

/-- The handles that need no directive. -/
def defaultHandles : List (List Char × List Char) :=
  [(['!'], ['!']), (['!', '!'], "tag:yaml.org,2002:".toList)]

/-- Reads directives. -/
def readDirectives : Nat → Bool → Reader → Except Fault Reader
  | 0, _, r => .ok r
  | fuel + 1, versioned, r => do
    let token ← r.peek
    match token.kind with
    | .versionDirective major minor =>
      if versioned then throw (.malformed .duplicateVersion token.first none)
      if major ≠ 1 ∨ (minor ≠ 1 ∧ minor ≠ 2) then
        throw (.malformed .incompatibleVersion token.first none)
      readDirectives fuel true r.next
    | .tagDirective handle start =>
      if (r.handles.lookup handle).isSome then
        throw (.malformed .duplicateTagDirective token.first none)
      readDirectives fuel versioned { r.next with handles := r.handles ++ [(handle, start)] }
    | _ => return r

/-- Whether a token can only come before a document's content or behind a text. -/
def endsContent : TokenKind → Bool
  | .versionDirective .. | .tagDirective .. | .documentStart | .documentEnd | .streamEnd => true
  | _ => false

/-- Reads the start of a document. `none` at the end of the text. -/
def readDocumentStart (r : Reader) : Except Fault (Option (Bool × Reader)) := do
  let token ← r.peek
  match token.kind with
  | .streamEnd => return none
  | .versionDirective .. | .tagDirective .. | .documentStart =>
    let r ← readDirectives (r.tokens.length + 1) false r
    let token ← r.peek
    if token.kind ≠ .documentStart then
      throw (.malformed .missingDocumentStart token.first none)
    return some (true, r.next)
  | _ => return some (false, r)

/-- Whether anything, be it a fault, stands behind a document and its end. -/
def goesOn : List Token → Bool
  | [] => true
  | token :: rest => if token.kind = .documentEnd then goesOn rest else token.kind ≠ .streamEnd

/-- The first document of a text. -/
def Document.ofText (text : List Char) : Document :=
  let cut := tokens text
  let r : Reader := ⟨cut.all.tail, cut.fault, [], []⟩
  if cut.all.isEmpty then ⟨none, cut.fault, false⟩
  else
    match readDocumentStart r with
    | .error fault => ⟨none, some fault, false⟩
    | .ok none => ⟨none, none, false⟩
    | .ok (some (explicit, r)) =>
      let r := { r with handles := r.handles ++ defaultHandles }
      let fuel := 8 * r.tokens.length + 8
      let (root, after) : Begun :=
        match r.peek with
        | .error fault => (none, .error fault)
        | .ok token =>
          if explicit && endsContent token.kind then
            (some (Reader.emptyScalar token.first), .ok r)
          else readNode fuel true false r
      match after with
      | .error fault => ⟨root, some fault, false⟩
      | .ok r =>
        match r.peek with
        | .error fault => ⟨root, some fault, false⟩
        | .ok token =>
          let r := if token.kind = .documentEnd then r.next else r
          ⟨root, none, goesOn r.tokens⟩

end StyleBuild.Yaml
