import StyleBuild.Json.Quote
import StyleBuild.Record.Basic

/-!
# Writing compile records

A record is written as a JSON object with its fields in the order of the
structure, indented by two spaces. A record without imports has no such field.
-/

namespace StyleBuild.CompileRecord

open Json (quote)

/-- Lines at one depth between brackets, a comma after each but the last; nothing between the
brackets when there are none. -/
def block (opening closing : Char) (depth : Nat) (lines : List (List Char)) : List Char :=
  let margin (n : Nat) : List Char := '\n' :: List.replicate (2 * n) ' '
  match lines with
  | [] => [opening, closing]
  | line :: lines =>
    opening :: (margin (depth + 1) ++ line ++
      lines.flatMap (fun l => ',' :: (margin (depth + 1) ++ l)) ++ margin depth ++ [closing])

def field (name : String) (value : List Char) : List Char :=
  quote name.toList ++ ':' :: ' ' :: value

def numberText (n : Nat) : List Char := Nat.toDigits 10 n

def booleanText (b : Bool) : List Char := (if b then "true" else "false").toList

/-- The fields of a record in their order. -/
def fields (r : CompileRecord) : List (List Char) :=
  [field "version" (numberText r.version.toNat),
    field "file" (quote r.file.toList),
    field "fingerprint" (quote r.fingerprint.text.toList),
    field "compiled_at" (numberText r.compiledAt.toNat),
    field "production" (booleanText r.production),
    field "variables" (block '{' '}' 1 (r.bindings.entries.map fun e =>
      field e.1 (quote e.2.toList)))] ++
  (if r.imports.isEmpty then []
  else [field "imports" (block '[' ']' 1 (r.imports.map fun p => quote p.chars))])

def writeChars (r : CompileRecord) : List Char := block '{' '}' 0 r.fields

/-- The text of a record. -/
def write (r : CompileRecord) : String := String.ofList r.writeChars

end StyleBuild.CompileRecord
