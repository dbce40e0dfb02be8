import StyleBuild.Dictionary
import StyleBuild.Yaml.Node
import StyleBuild.Yaml.Value

/-!
# Reading YAML nodes of a known kind

A reader takes a node and the way to it. A mismatch is placed at the innermost
node whose reader met it. An alias is read as the node that it stands for, whose
way is the one of the alias; how often aliases may be followed is bounded by the
size of the document.

An empty plain scalar is an empty collection. Collections do not nest deeper
than `deepest`.
-/

namespace StyleBuild.Yaml

/-- What aliases stand for. -/
structure Anchors where
  root : Node
  /-- How many aliases may be followed. -/
  limit : Nat

def Anchors.ofRoot (root : Node) : Anchors := ⟨root, root.eventCount * 100⟩

/-- A step of reading, which counts the aliases followed so far. -/
abbrev Reading := StateT Nat (Except Fault)

/-- How deep collections nest. -/
def deepest : Nat := 128

/-- The node itself, or the one that an alias stands for. -/
def follow (anchors : Anchors) (node : Node) : Reading Node := do
  match node with
  | .aliasOf _ id =>
    let followed := (← get) + 1
    set followed
    if anchors.limit < followed then throw .tooManyRepetitions
    match anchors.root.findAnchor? id with
    | some found => return found
    | none => throw .endOfText
  | node => return node

def mismatched {α : Type} (m : Mismatch) : Reading α := throw (.mismatch m none)

/-- Places a mismatch that has no place yet. -/
def placed {α : Type} (steps : List Step) (mark : Mark) (r : Reading α) : Reading α :=
  fun followed =>
    match r followed with
    | .error (.mismatch m none) => .error (.mismatch m (some ⟨steps, mark⟩))
    | result => result

/-- Goes on behind the items of a collection, unless it was not read to its end. -/
def finish {α : Type} (fault : Option Fault) (a : α) : Reading α :=
  match fault with
  | none => return a
  | some fault => throw fault

/-- A mismatch for a node that is not of the kind that is wanted. -/
def unsuited {α : Type} (wanted : Wanted) : Node → Reading α
  | .scalar _ tag style text _ =>
    match scalarFound tag style text with
    | .ok found => mismatched (.wrongType found wanted)
    | .error m => mismatched m
  | .sequence .. => mismatched (.wrongType .sequence wanted)
  | .mapping .. => mismatched (.wrongType .map wanted)
  | .aliasOf .. => mismatched (.wrongType .null wanted)

def isEmptyScalar : Node → Bool
  | .scalar _ _ style text _ => style = .plain && text = ""
  | _ => false

/-- The step to the value of a key. -/
def stepOf : Node → Step
  | .scalar _ _ _ text _ => .key text
  | _ => .unnamedKey

/-- Passes over a node. -/
def ignore : Node → Reading Unit
  | .sequence _ _ _ fault _ => finish fault ()
  | .mapping _ _ _ fault _ => finish fault ()
  | _ => return ()

def readBoolean (anchors : Anchors) (steps : List Step) (node : Node) : Reading Bool := do
  let node ← follow anchors node
  placed steps node.mark <|
    match node with
    | .scalar _ tag style text _ =>
      let bare := style = .plain ∨ (style = .literal ∧ tag = some booleanTag)
      match if bare then booleanOfSpelling? text else none with
      | some b => return b
      | none => unsuited .boolean node
    | node => unsuited .boolean node

/-- Reads any scalar as it is written. -/
def readText (wanted : Wanted) (anchors : Anchors) (steps : List Step) (node : Node) :
    Reading String := do
  let node ← follow anchors node
  placed steps node.mark <|
    match node with
    | .scalar _ _ _ text _ => return text
    | node => unsuited wanted node

/-- Reads what need not be there: a plain null stands for nothing. -/
def readOption {α : Type} (read : Anchors → List Step → Node → Reading α) (anchors : Anchors)
    (steps : List Step) (node : Node) : Reading (Option α) := do
  let node ← follow anchors node
  match node with
  | .scalar _ tag .plain text _ =>
    if tag = some nullTag then
      if nullSpellings.contains text then return none
      else mismatched (.wrongValue (.text text) .null)
    else if tag.isNone ∧ (text = "" ∨ nullSpellings.contains text) then return none
    else return some (← read anchors steps node)
  | node => return some (← read anchors steps node)

/-- Reads the items of a sequence, counted from `index`. -/
def readItems {α : Type} (read : List Step → Node → Reading α) (steps : List Step) :
    Nat → List Node → Reading (List α)
  | _, [] => return []
  | index, node :: nodes => do
    let item ← read (.index index :: steps) node
    let items ← readItems read steps (index + 1) nodes
    return item :: items

/-- Reads the entries of a mapping one after the other, each key before its value. -/
def readEntries {κ σ : Type} (key : σ → Node → Reading κ) (value : σ → κ → Node → Node → Reading σ)
    (fault : Option Fault) : σ → List Node → Reading σ
  | s, [] => finish fault s
  | s, [k] => do
    let _ ← key s k
    throw (fault.getD .endOfText)
  | s, k :: v :: rest => do
    let name ← key s k
    let s ← value s name k v
    readEntries key value fault s rest

/-- Reads a sequence at a depth where collections may nest `depth` deep. -/
def readList {α : Type} (read : Anchors → List Step → Node → Reading α) (depth : Nat)
    (anchors : Anchors) (steps : List Step) (node : Node) : Reading (List α) := do
  let node ← follow anchors node
  placed steps node.mark <|
    match node with
    | .sequence mark _ items fault _ => do
      if depth = 0 then throw (.tooDeep mark)
      let items ← readItems (read anchors) steps 0 items
      finish fault items
    | node => if isEmptyScalar node then return [] else unsuited .sequence node

/-- Reads the entries of a mapping; an empty scalar has none. -/
def readMapping {κ σ : Type} (wanted : Wanted) (depth : Nat) (key : σ → Node → Reading κ)
    (value : σ → κ → Node → Node → Reading σ) (start : σ) (anchors : Anchors)
    (steps : List Step) (node : Node) : Reading σ := do
  let node ← follow anchors node
  placed steps node.mark <|
    match node with
    | .mapping mark _ items fault _ => do
      if depth = 0 then throw (.tooDeep mark)
      readEntries key value fault start items
    | node => if isEmptyScalar node then return start else unsuited wanted node

/-- Reads a mapping of texts to values; later entries win. -/
def readDictionary {α : Type} (read : Anchors → List Step → Node → Reading α) (depth : Nat)
    (anchors : Anchors) (steps : List Step) (node : Node) : Reading (Dictionary α) :=
  readMapping .map depth (fun _ k => readText .string anchors steps k)
    (fun d name k v => do return d.insert name (← read anchors (stepOf k :: steps) v))
    .empty anchors steps node

/-- The value of a node whose items are read by `read`. -/
def valueOf (read : List Step → Node → Reading Value) (depth : Nat) (steps : List Step) :
    Node → Reading Value
  | .scalar _ tag style text _ =>
    match (scalarFound tag style text).bind Value.ofFound with
    | .ok value => return value
    | .error m => mismatched m
  | .sequence mark _ items fault _ => do
    if depth = 0 then throw (.tooDeep mark)
    let items ← readItems read steps 0 items
    finish fault (.sequence items)
  | .mapping mark _ items fault _ => do
    if depth = 0 then throw (.tooDeep mark)
    let key (entries : List Value) (k : Node) : Reading Value := do
      let key ← read steps k
      match (keysOf entries).find? key.same with
      | some key => mismatched (.duplicateEntry key.asRepeatedKey)
      | none => return key
    let value (entries : List Value) (key : Value) (k v : Node) : Reading (List Value) := do
      return entries ++ [key, ← read (stepOf k :: steps) v]
    let entries ← readEntries key value fault [] items
    return .mapping entries
  | .aliasOf .. => throw .endOfText

def Node.tag? : Node → Option String
  | .scalar _ tag _ _ _ => tag
  | .sequence _ tag _ _ _ => tag
  | .mapping _ tag _ _ _ => tag
  | .aliasOf .. => none

/-- Reads any value at a depth where collections may nest `depth` deep. -/
def readValue (anchors : Anchors) : Nat → List Step → Node → Reading Value
  | depth, steps, node => do
    let node ← follow anchors node
    placed steps node.mark do
      let value : Reading Value :=
        match depth with
        | 0 => valueOf (fun _ _ => throw .endOfText) 0 steps node
        | depth + 1 => valueOf (readValue anchors depth) (depth + 1) steps node
      match localTag? node.tag? with
      | none => value
      | some tag =>
        if tag = "" then mismatched .emptyTag
        return .tagged tag (← value)

/-- Reads the first document of a text; a text without one is read as `void`. A fault behind
what was read comes last. -/
def readDocument {α : Type} (text : List Char) (void : α)
    (read : Anchors → List Step → Node → Reading α) : Except Fault α := do
  let document := Document.ofText text
  let result ← match document.root with
    | none => match document.fault with
      | none => pure void
      | some fault => throw fault
    | some root => (read (.ofRoot root) [] root).run' 0
  match document.fault with
  | some fault => throw fault
  | none => if document.more then throw .moreThanOneDocument else return result

end StyleBuild.Yaml
