import StyleBuild.Decimal.Shortest
import StyleBuild.Text.Quoted
import StyleBuild.Yaml.Mark

/-!
# Faults in YAML texts

A text can be malformed, which is found while it is scanned and parsed, or it
can be well formed and not fit what is asked for. The first kind names a
problem and what was being read; the second names the place in the document.
-/

namespace StyleBuild.Yaml

/-- What was being read when a problem was met. -/
inductive Activity where
  | scanningToken
  | scanningSimpleKey
  | scanningDirective
  | scanningVersion
  | scanningTagDirective
  | scanningTagDirectiveHandle
  | parsingTagDirective
  | parsingTagDirectiveHandle
  | scanningAnchor
  | scanningAlias
  | scanningTag
  | parsingTag
  | scanningBlockScalar
  | scanningQuoted
  | parsingQuoted
  | scanningPlain
  | parsingNode
  | parsingBlockNode
  | parsingFlowNode
  | parsingBlockCollection
  | parsingBlockMapping
  | parsingFlowSequence
  | parsingFlowMapping
  deriving DecidableEq, Repr

inductive Problem where
  | missingColon
  | entryNotAllowed
  | keyNotAllowed
  | valueNotAllowed
  | noTokenStart
  | unknownDirective
  | missingDirectiveName
  | strayDirectiveCharacter
  | missingCommentOrBreak
  | longVersion
  | missingVersion
  | missingVersionDigitOrDot
  | missingBlank
  | missingBlankOrBreak
  | missingAnchorCharacter
  | missingTagEnd
  | missingBang
  | missingTagUri
  | missingUriEscape
  | badLeadingOctet
  | badTrailingOctet
  | zeroIndentation
  | tabInIndentation
  | documentIndicatorInQuoted
  | endInQuoted
  | unknownEscape
  | missingHexDigits
  | badCharacterCode
  | tabInPlain
  | colonInFlow
  | missingDocumentStart
  | undefinedHandle
  | missingContent
  | missingDash
  | missingKey
  | missingCommaOrBracket
  | missingCommaOrBrace
  | duplicateVersion
  | incompatibleVersion
  | duplicateTagDirective
  deriving DecidableEq, Repr

/-- A value as it was found, for the text of a fault. -/
inductive Found where
  | null
  | boolean (b : Bool)
  | integer (n : Int)
  | wideInteger (n : Int)
  | float (x : Decimal.Double)
  | text (s : String)
  | sequence
  | map
  deriving DecidableEq, Repr

/-- What was asked for at a place. -/
inductive Wanted where
  | null
  | boolean
  | tagBoolean
  | tagInteger
  | tagFloat
  | string
  | path
  | sequence
  | map
  | record (name : String)
  | fieldName
  | anyValue
  deriving DecidableEq, Repr

/-- The key of an entry that occurs twice. -/
inductive RepeatedKey where
  | null
  | boolean (b : Bool)
  | number (digits : String)
  | text (s : String)
  | other
  deriving DecidableEq, Repr

/-- A well-formed document that does not fit. -/
inductive Mismatch where
  | wrongType (found : Found) (wanted : Wanted)
  | wrongValue (found : Found) (wanted : Wanted)
  | duplicateField (name : String)
  | duplicateEntry (key : RepeatedKey)
  | emptyTag
  | notScalar (variableName : String)
  deriving DecidableEq, Repr

/-- The way from the top of a document to a place in it, innermost step first. -/
inductive Step where
  | index (n : Nat)
  | key (name : String)
  | unnamedKey
  deriving DecidableEq, Repr

structure Place where
  steps : List Step
  mark : Mark
  deriving DecidableEq, Repr

inductive Fault where
  | malformed (problem : Problem) (mark : Mark) (activity : Option (Activity × Mark))
  /-- A character that a text may not hold, `offset` bytes after its start. -/
  | badCharacter (offset : Nat)
  | unknownAnchor (mark : Mark)
  | moreThanOneDocument
  | endOfText
  | tooDeep (mark : Mark)
  | tooManyRepetitions
  | mismatch (mismatch : Mismatch) (place : Option Place)
  deriving DecidableEq, Repr

def Activity.message : Activity → String
  | .scanningToken => "while scanning for the next token"
  | .scanningSimpleKey => "while scanning a simple key"
  | .scanningDirective => "while scanning a directive"
  | .scanningVersion => "while scanning a %YAML directive"
  | .scanningTagDirective => "while scanning a %TAG directive"
  | .scanningTagDirectiveHandle => "while scanning a tag directive"
  | .parsingTagDirective => "while parsing a %TAG directive"
  | .parsingTagDirectiveHandle => "while parsing a tag directive"
  | .scanningAnchor => "while scanning an anchor"
  | .scanningAlias => "while scanning an alias"
  | .scanningTag => "while scanning a tag"
  | .parsingTag => "while parsing a tag"
  | .scanningBlockScalar => "while scanning a block scalar"
  | .scanningQuoted => "while scanning a quoted scalar"
  | .parsingQuoted => "while parsing a quoted scalar"
  | .scanningPlain => "while scanning a plain scalar"
  | .parsingNode => "while parsing a node"
  | .parsingBlockNode => "while parsing a block node"
  | .parsingFlowNode => "while parsing a flow node"
  | .parsingBlockCollection => "while parsing a block collection"
  | .parsingBlockMapping => "while parsing a block mapping"
  | .parsingFlowSequence => "while parsing a flow sequence"
  | .parsingFlowMapping => "while parsing a flow mapping"

def Problem.message : Problem → String
  | .missingColon => "could not find expected ':'"
  | .entryNotAllowed => "block sequence entries are not allowed in this context"
  | .keyNotAllowed => "mapping keys are not allowed in this context"
  | .valueNotAllowed => "mapping values are not allowed in this context"
  | .noTokenStart => "found character that cannot start any token"
  | .unknownDirective => "found unknown directive name"
  | .missingDirectiveName => "could not find expected directive name"
  | .strayDirectiveCharacter => "found unexpected non-alphabetical character"
  | .missingCommentOrBreak => "did not find expected comment or line break"
  | .longVersion => "found extremely long version number"
  | .missingVersion => "did not find expected version number"
  | .missingVersionDigitOrDot => "did not find expected digit or '.' character"
  | .missingBlank => "did not find expected whitespace"
  | .missingBlankOrBreak => "did not find expected whitespace or line break"
  | .missingAnchorCharacter => "did not find expected alphabetic or numeric character"
  | .missingTagEnd => "did not find the expected '>'"
  | .missingBang => "did not find expected '!'"
  | .missingTagUri => "did not find expected tag URI"
  | .missingUriEscape => "did not find URI escaped octet"
  | .badLeadingOctet => "found an incorrect leading UTF-8 octet"
  | .badTrailingOctet => "found an incorrect trailing UTF-8 octet"
  | .zeroIndentation => "found an indentation indicator equal to 0"
  | .tabInIndentation => "found a tab character where an indentation space is expected"
  | .documentIndicatorInQuoted => "found unexpected document indicator"
  | .endInQuoted => "found unexpected end of stream"
  | .unknownEscape => "found unknown escape character"
  | .missingHexDigits => "did not find expected hexdecimal number"
  | .badCharacterCode => "found invalid Unicode character escape code"
  | .tabInPlain => "found a tab character that violates indentation"
  | .colonInFlow => "found unexpected ':'"
  | .missingDocumentStart => "did not find expected <document start>"
  | .undefinedHandle => "found undefined tag handle"
  | .missingContent => "did not find expected node content"
  | .missingDash => "did not find expected '-' indicator"
  | .missingKey => "did not find expected key"
  | .missingCommaOrBracket => "did not find expected ',' or ']'"
  | .missingCommaOrBrace => "did not find expected ',' or '\x7d'"
  | .duplicateVersion => "found duplicate %YAML directive"
  | .incompatibleVersion => "found incompatible YAML document"
  | .duplicateTagDirective => "found duplicate %TAG directive"

/-- Numbers in faults are always positional. -/
def faultNumberStyle : Decimal.NumberStyle := ⟨none, none, false, 1, "inf", "NaN"⟩

def Found.message : Found → String
  | .null => "unit value"
  | .boolean b => "boolean `" ++ (if b then "true" else "false") ++ "`"
  | .integer n => "integer `" ++ toString n ++ "`"
  | .wideInteger n =>
    "integer `" ++ toString n ++ (if n < 0 then "` as i128" else "` as u128")
  | .float x => "floating point `" ++ faultNumberStyle.write x ++ "`"
  | .text s => "string " ++ Text.quoted s
  | .sequence => "sequence"
  | .map => "map"

def Wanted.message : Wanted → String
  | .null => "null"
  | .boolean => "a boolean"
  | .tagBoolean => "a boolean"
  | .tagInteger => "an integer"
  | .tagFloat => "a float"
  | .string => "a string"
  | .path => "path string"
  | .sequence => "a sequence"
  | .map => "a map"
  | .record name => "struct " ++ name
  | .fieldName => "field identifier"
  | .anyValue => "any YAML value"

def RepeatedKey.message : RepeatedKey → String
  | .null => "duplicate entry with null key"
  | .boolean b => "duplicate entry with key `" ++ (if b then "true" else "false") ++ "`"
  | .number n => "duplicate entry with key " ++ n
  | .text s => "duplicate entry with key " ++ Text.quoted s
  | .other => "duplicate entry in YAML map"

def Mismatch.message : Mismatch → String
  | .wrongType found wanted => "invalid type: " ++ found.message ++ ", expected " ++ wanted.message
  | .wrongValue found wanted =>
    "invalid value: " ++ found.message ++ ", expected " ++ wanted.message
  | .duplicateField name => "duplicate field `" ++ name ++ "`"
  | .duplicateEntry key => key.message
  | .emptyTag => "empty YAML tag is not allowed"
  | .notScalar name => "variable `" ++ name ++ "` must be a scalar"

/-- The text of a way: indices in brackets, keys after dots. -/
def wayText : List Step → String
  | [] => ""
  | .index n :: up => (if up.isEmpty then "." else wayText up) ++ "[" ++ toString n ++ "]"
  | .key name :: up => (if up.isEmpty then "" else wayText up ++ ".") ++ name
  | .unnamedKey :: up => (if up.isEmpty then "" else wayText up ++ ".") ++ "?"

def Fault.message : Fault → String
  | .malformed problem mark activity =>
    let context := match activity with
      | none => ""
      | some (a, m) => ", " ++ a.message ++ (if m = mark then "" else m.suffix)
    problem.message ++ mark.suffix ++ context
  | .badCharacter offset =>
    "control characters are not allowed" ++
      (if offset = 0 then "" else " at position " ++ toString offset)
  | .unknownAnchor mark => "unknown anchor" ++ mark.suffix
  | .moreThanOneDocument =>
    "deserializing from YAML containing more than one document is not supported"
  | .endOfText => "EOF while parsing a value"
  | .tooDeep mark => "recursion limit exceeded" ++ mark.suffix
  | .tooManyRepetitions => "repetition limit exceeded"
  | .mismatch m none => m.message
  | .mismatch m (some place) =>
    (if place.steps.isEmpty then "" else wayText place.steps ++ ": ") ++ m.message ++
      place.mark.suffix

end StyleBuild.Yaml
