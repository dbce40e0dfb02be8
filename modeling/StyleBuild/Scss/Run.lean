import StyleBuild.Engine.Dialogue
import StyleBuild.Scss.Css
import StyleBuild.Scss.Scopes
import StyleBuild.Scss.Sheet

/-!
# Running style sheets

Statements are run in order. An import runs the statements of another file in
its place, with the same global variables; a file is not imported while it is
being run. The rules inside of a rule follow it, and the last rule that comes of
a rule at the top ends a group. Imports for the reader of the CSS come before
everything else.
-/

namespace StyleBuild.Scss

/-- What comes of items: the lines of the block around them, and the rules behind it. -/
structure Made where
  lines : List CssLine
  rules : List CssRule

def Made.nothing : Made := ⟨[], []⟩

def Made.append (a b : Made) : Made := ⟨a.lines ++ b.lines, a.rules ++ b.rules⟩

/-- The variables after an assignment. -/
def assigned (scopes : Scopes) (name : List Char) (value : Expression) (guarded : Bool) :
    Checked Scopes :=
  match guarded, scopes.find? name with
  | false, _ | true, none | true, some .null => (value.eval scopes).map (scopes.assign name)
  | true, some _ => .ok scopes

mutual

/-- Runs an item, inside of a rule if there are parents. -/
def Item.run (parents : Option (List Selector)) (scopes : Scopes) :
    Item → Checked (Made × Scopes)
  | .assign name value guarded => do return (.nothing, ← assigned scopes name value guarded)
  | .comment text column => .ok (⟨[.comment text column], []⟩, scopes)
  | .declaration property value => do
    let v ← value.eval scopes
    return (if v.isBlank then .nothing else ⟨[.declaration property v], []⟩, scopes)
  | .rule selector body => do
    let selectors ← Selector.resolve parents (← Selector.ofText selector)
    let (made, scopes) ← runItems (some selectors) scopes.enter body
    return (⟨[], ⟨selectors, made.lines⟩ :: made.rules⟩, scopes.leave)

def runItems (parents : Option (List Selector)) (scopes : Scopes) :
    List Item → Checked (Made × Scopes)
  | [] => .ok (.nothing, scopes)
  | i :: items => do
    let (made, scopes) ← i.run parents scopes
    let (others, scopes) ← runItems parents scopes items
    return (made.append others, scopes)

end

/-- What comes of an item outside of rules. -/
def blocksOf (made : Made) : List CssBlock := made.lines.map .line ++ made.rules.map .rule

/-- Runs the items of a `@media` block. -/
def runBlocks (scopes : Scopes) : List Item → Checked (List CssBlock × Scopes)
  | [] => .ok ([], scopes)
  | i :: items => do
    let (made, scopes) ← i.run none scopes
    let (others, scopes) ← runBlocks scopes items
    return (blocksOf made ++ others, scopes)

/-- The pieces of a group of blocks, of which the last one ends the group if it is a rule. -/
def groupOf : List CssBlock → List (CssPiece × Bool)
  | [] => []
  | [.rule r] => [(.block (.rule r), true)]
  | b :: bs => (.block b, false) :: groupOf bs

/-- What was made so far of style sheets. -/
structure Progress where
  scopes : Scopes
  imports : List (List Char)
  pieces : List (CssPiece × Bool)
  /-- The files that are being run. -/
  running : List Path

abbrev Running := StateT Progress (ExceptT Complaint Dialogue)

def Running.check {α : Type} (r : Checked α) : Running α :=
  match r with
  | .ok a => pure a
  | .error complaint => throw complaint

def Running.isFile (p : Path) : Running Bool := StateT.lift (ExceptT.lift (.isFile p .done))

def Running.read (p : Path) : Running String := StateT.lift (ExceptT.lift (.read p .done))

/-- The path with `_` before its file name. -/
def partialPath (p : Path) : Path :=
  p.directory.join (.ofChars ('_' :: p.fileName?.getD ['.', '.']))

/-- The paths of the files that an import may mean, in order. -/
def importPaths (importer : Path) (url : List Char) : List Path :=
  let p := importer.directory.join (.ofChars url)
  let stems :=
    match p.extension?.map String.ofList with
    | some "scss" => [p.withExtension ".importscss", p]
    | some "sass" => [p.withExtension ".importsass", p]
    | _ => ["import.sass", "import.scss", "import.css", "sass", "scss", "css"].map p.withExtension
  stems.flatMap fun p => [p, partialPath p]

/-- The first of some paths with a file. -/
def firstFile : List Path → Running (Option Path)
  | [] => return none
  | p :: rest => do
    if ← Running.isFile p then return some p else firstFile rest

/-- How deep imports nest. -/
def deepestImport : Nat := 500

/-- Runs statements of the file `file`, with imports run by `load`. -/
def runStatements (load : Path → Running Unit) (file : Path) : List Statement → Running Unit
  | [] => return
  | .item i :: rest => do
    let (made, scopes) ← Running.check (i.run none (← get).scopes)
    modify fun p => { p with scopes, pieces := p.pieces ++ groupOf (blocksOf made) }
    runStatements load file rest
  | .media query body :: rest => do
    let (blocks, scopes) ← Running.check (runBlocks (← get).scopes.enter body)
    modify fun p =>
      { p with scopes := scopes.leave, pieces := p.pieces ++ [(.media query blocks, false)] }
    runStatements load file rest
  | .imports all :: rest => do
    for i in all do
      match i with
      | .plain text => modify fun p => { p with imports := p.imports ++ [text] }
      | .sheet url =>
        match ← firstFile (importPaths file url) with
        | some found => load found
        | none => throw .importNotFound
    runStatements load file rest

/-- Runs the file at a path; `depth` files may follow it. -/
def runFile : Nat → Path → Running Unit
  | 0, _ => throw .importsTooDeep
  | depth + 1, p => do
    let text ← Running.read p
    let statements ← Running.check (readSheet text.toList)
    if (← get).running.any fun q => q.components == p.components then throw .importLoop
    modify fun s => { s with running := p :: s.running }
    runStatements (runFile depth) p statements
    modify fun s => { s with running := s.running.tail }

/-- Runs a program and answers its CSS. The program itself is a file of no directory. -/
def compile (format : OutputFormat) (program : String) : Dialogue (Except String String) := do
  let run : Running Unit := do
    let statements ← Running.check (readSheet program.toList)
    runStatements (runFile deepestImport) .empty statements
  match ← (run.run ⟨.empty, [], [], []⟩).run with
  | .error complaint => return .error complaint.message
  | .ok ((), made) =>
    let imports := made.imports.map fun text => (CssPiece.plainImport text, false)
    return .ok (cssText format (imports ++ made.pieces))

end StyleBuild.Scss
