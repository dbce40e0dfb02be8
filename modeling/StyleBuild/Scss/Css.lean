import StyleBuild.Scss.Selector
import StyleBuild.Scss.Value
import StyleBuild.Text.Blank
import StyleBuild.Text.Lines

/-!
# CSS

What a style sheet becomes: imports, comments, rules and `@media` blocks of
comments and rules. A rule without lines is not written, and neither is an
`@media` block of such rules.

Readable CSS indents by two spaces and leaves a line free behind a piece that
ends a group. Short CSS has no comments but those that start with `/*!`.
-/

namespace StyleBuild.Scss

open Text

inductive CssLine where
  | declaration (property : List Char) (value : Value)
  /-- A comment, and how many characters stood in front of it. -/
  | comment (text : List Char) (column : Nat)

structure CssRule where
  selectors : List Selector
  lines : List CssLine

inductive CssBlock where
  | line (l : CssLine)
  | rule (r : CssRule)

inductive CssPiece where
  | plainImport (text : List Char)
  | block (b : CssBlock)
  | media (query : List Char) (body : List CssBlock)

def CssBlock.isVisible : CssBlock → Bool
  | .line _ => true
  | .rule r => !r.lines.isEmpty

def CssPiece.isVisible : CssPiece → Bool
  | .plainImport _ => true
  | .block b => b.isVisible
  | .media _ body => body.any CssBlock.isVisible

/-- The text of CSS in some format, `indent` spaces from the left. -/
structure CssPrinter where
  format : OutputFormat
  indent : Nat

namespace CssPrinter

def isShort (p : CssPrinter) : Bool := p.format == .crunched

def margin (p : CssPrinter) : List Char := if p.isShort then [] else List.replicate p.indent ' '

def lineEnd (p : CssPrinter) : List Char := if p.isShort then [] else ['\n']

def deeper (p : CssPrinter) : CssPrinter := { p with indent := p.indent + 2 }

/-- A line of a comment behind the first one, as far from the left as it was from the start of
its comment. -/
def continued (column : Nat) (line : List Char) : List Char :=
  let text := trimStart line
  let indented := line.take (line.length - text.length)
  '\n' :: List.replicate ((String.ofList indented).utf8ByteSize - column) ' ' ++ text

/-- A comment; nothing for one that is left out. -/
def commentText (p : CssPrinter) (text : List Char) (column : Nat) : Option (List Char) :=
  if p.isShort && text.take 3 != ['/', '*', '!'] then none
  else
    match (keptLines text).map fun line => line.filter (· ≠ '\n') with
    | [] => some p.margin
    | first :: rest => some (p.margin ++ trimStart first ++ (rest.map (continued column)).flatten)

def declarationText (p : CssPrinter) (property : List Char) (value : Value) : List Char :=
  p.margin ++ property ++ (if p.isShort then [':'] else [':', ' ']) ++ (value.text p.format).toList

/-- The lines of a block. The last one has a semicolon in readable CSS only. -/
def linesText (p : CssPrinter) : List CssLine → List Char
  | [] => []
  | l :: rest =>
    let text := match l with
      | .comment text column =>
        match p.commentText text column with
        | none => []
        | some text => text ++ p.lineEnd
      | .declaration property value =>
        let semicolon := if p.isShort && rest.isEmpty then [] else [';']
        p.declarationText property value ++ semicolon ++ p.lineEnd
    text ++ linesText p rest

/-- A block in braces, with its inside given. -/
def braced (p : CssPrinter) (head inside : List Char) : List Char :=
  p.margin ++ head ++ (if p.isShort then ['{'] else [' ', '{', '\n']) ++ inside ++ p.margin ++ ['}']

def ruleText (p : CssPrinter) (r : CssRule) : List Char :=
  p.braced (Selector.listText p.format r.selectors) (p.deeper.linesText r.lines)

def blockText (p : CssPrinter) : CssBlock → List Char
  | .line l => p.linesText [l]
  | .rule r => p.ruleText r ++ p.lineEnd

/-- A piece without its line feed. -/
def pieceText (p : CssPrinter) : CssPiece → List Char
  | .plainImport text => p.margin ++ "@import ".toList ++ text
  | .block (.line (.comment text column)) => (p.commentText text column).getD []
  | .block (.line (.declaration property value)) => p.declarationText property value
  | .block (.rule r) => p.ruleText r
  | .media query body =>
    let inside := (body.filter CssBlock.isVisible).map p.deeper.blockText
    p.braced ("@media ".toList ++ query) inside.flatten

end CssPrinter

/-- What stands between two pieces. -/
structure Gap where
  semicolon : Bool
  /-- A free line follows. -/
  groupEnd : Bool

/-- The pieces of a file one after the other, behind what was written so far. -/
def writePieces (p : CssPrinter) (written : List Char) (gap : Gap) :
    List (CssPiece × Bool) → List Char
  | [] => written ++ if gap.semicolon then [';'] else []
  | (piece, groupEnd) :: rest =>
    let written := written ++ if gap.semicolon then [';'] else []
    let feeds := if written.isEmpty then []
      else p.lineEnd ++ if gap.groupEnd then p.lineEnd else []
    let semicolon := match piece with
      | .plainImport _ => true
      | _ => false
    writePieces p (written ++ feeds ++ p.pieceText piece) ⟨semicolon, groupEnd⟩ rest

/-- The mark of a text that is not ASCII. -/
def charsetMark : OutputFormat → List Char
  | .expanded => "@charset \"UTF-8\";\n".toList
  | .crunched => ['\uFEFF']

/-- The text of pieces, each with whether it ends a group. -/
def cssText (format : OutputFormat) (pieces : List (CssPiece × Bool)) : String :=
  let p : CssPrinter := ⟨format, 0⟩
  let body := writePieces p [] ⟨false, false⟩ (pieces.filter (·.1.isVisible))
  let text := if body.isEmpty then [] else body ++ p.lineEnd
  String.ofList ((if text.any fun c => 0x80 ≤ c.toNat then charsetMark format else []) ++ text)

end StyleBuild.Scss
