import StyleBuild.Decimal.Shortest
import StyleBuild.Text.Quoted

/-!
# Faults in JSON texts

A fault says what is wrong and where: lines count from one, and the column is
the number of bytes of the line that were read.
-/

namespace StyleBuild.Json

/-- A value as it was found, for the text of a fault. -/
inductive Found where
  | null
  | boolean (b : Bool)
  | integer (n : Int)
  | float (x : Decimal.Double)
  | text (s : String)
  | sequence
  | map
  deriving DecidableEq, Repr

/-- What a reader asks for at a place. -/
inductive Wanted where
  | natural32
  | natural64
  | string
  | path
  | boolean
  | map
  | sequence
  | record (name : String)
  deriving DecidableEq, Repr

inductive Problem where
  | endInValue
  | endInObject
  | endInList
  | endInString
  | expectedColon
  | expectedCommaInList
  | expectedCommaInObject
  | expectedValue
  | expectedWord
  | invalidEscape
  | invalidNumber
  | numberOutOfRange
  | controlCharacter
  | keyNotString
  | loneSurrogate
  | halfSurrogatePair
  | trailingComma
  | trailingCharacters
  | wrongType (found : Found) (wanted : Wanted)
  | wrongValue (found : Found) (wanted : Wanted)
  | missingField (name : String)
  | duplicateField (name : String)
  | tooShort (size : Nat) (wanted : Wanted) (full : Nat)
  deriving DecidableEq, Repr

structure Fault where
  problem : Problem
  line : Nat
  column : Nat
  deriving DecidableEq, Repr

/-- Numbers in faults are positional between five zeros after the point and sixteen places
before it. -/
def numberStyle : Decimal.NumberStyle := ⟨some 16, some 4, true, 2, "inf", "NaN"⟩

def Found.message : Found → String
  | .null => "null"
  | .boolean b => "boolean `" ++ (if b then "true" else "false") ++ "`"
  | .integer n => "integer `" ++ toString n ++ "`"
  | .float x => "floating point `" ++ numberStyle.write x ++ "`"
  | .text s => "string " ++ Text.quoted s
  | .sequence => "sequence"
  | .map => "map"

def Wanted.message : Wanted → String
  | .natural32 => "u32"
  | .natural64 => "u64"
  | .string => "a string"
  | .path => "path string"
  | .boolean => "a boolean"
  | .map => "a map"
  | .sequence => "a sequence"
  | .record name => "struct " ++ name

def Problem.message : Problem → String
  | .endInValue => "EOF while parsing a value"
  | .endInObject => "EOF while parsing an object"
  | .endInList => "EOF while parsing a list"
  | .endInString => "EOF while parsing a string"
  | .expectedColon => "expected `:`"
  | .expectedCommaInList => "expected `,` or `]`"
  | .expectedCommaInObject => "expected `,` or `\x7d`"
  | .expectedValue => "expected value"
  | .expectedWord => "expected ident"
  | .invalidEscape => "invalid escape"
  | .invalidNumber => "invalid number"
  | .numberOutOfRange => "number out of range"
  | .controlCharacter => "control character (\\u0000-\\u001F) found while parsing a string"
  | .keyNotString => "key must be a string"
  | .loneSurrogate => "lone leading surrogate in hex escape"
  | .halfSurrogatePair => "unexpected end of hex escape"
  | .trailingComma => "trailing comma"
  | .trailingCharacters => "trailing characters"
  | .wrongType found wanted => "invalid type: " ++ found.message ++ ", expected " ++ wanted.message
  | .wrongValue found wanted =>
    "invalid value: " ++ found.message ++ ", expected " ++ wanted.message
  | .missingField name => "missing field `" ++ name ++ "`"
  | .duplicateField name => "duplicate field `" ++ name ++ "`"
  | .tooShort size wanted full =>
    "invalid length " ++ toString size ++ ", expected " ++ wanted.message ++ " with " ++
      toString full ++ " elements"

def Fault.message (f : Fault) : String :=
  f.problem.message ++ " at line " ++ toString f.line ++ " column " ++ toString f.column

end StyleBuild.Json
