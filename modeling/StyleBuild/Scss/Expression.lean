import StyleBuild.Scss.Scan
import StyleBuild.Scss.Scopes

/-!
# Expressions

What a declaration or a variable holds, as it is written. Expressions next to
each other are a list with spaces, and such lists a list with commas. A function
is not computed: its call stays, with the values of its arguments.

`Expression.value` replaces variables by their values.
-/

namespace StyleBuild.Scss

open Decimal (Double)

inductive Expression where
  | value (v : Value)
  | variable (name : List Char)
  | call (name : String) (args : List Expression)
  | list (separator : Separator) (items : List Expression)

/-- An expression, or the list of several. -/
def Expression.ofItems (separator : Separator) : List Expression → Expression
  | [e] => e
  | items => .list separator items

mutual

def Expression.eval (scopes : Scopes) : Expression → Checked Value
  | .value v => .ok v
  | .variable name =>
    match scopes.find? name with
    | some v => .ok v
    | none => .error .undefinedVariable
  | .call name args => (evalAll scopes args).map (.call name)
  | .list separator items => (evalAll scopes items).map (.list separator)

def evalAll (scopes : Scopes) : List Expression → Checked (List Value)
  | [] => .ok []
  | e :: es => do
    let v ← e.eval scopes
    let vs ← evalAll scopes es
    return v :: vs

end

/-- Whether a number stands at the start of a text. -/
def atNumber : List Char → Bool
  | '.' :: _ => true
  | c :: _ => c.isDigit
  | [] => false

/-- Splits off an exponent. -/
def scanExponent (s : List Char) : Int × List Char :=
  let digits (negative : Bool) (s : List Char) : Int × List Char :=
    let n : Nat := (s.takeWhile Char.isDigit).foldl (fun n c => n * 10 + (c.toNat - 48)) 0
    (if negative then -(n : Int) else n, s.dropWhile Char.isDigit)
  let startsDigit : List Char → Bool
    | c :: _ => c.isDigit
    | [] => false
  match s with
  | e :: '-' :: rest =>
    if (e = 'e' ∨ e = 'E') ∧ startsDigit rest then digits true rest else (0, s)
  | e :: '+' :: rest =>
    if (e = 'e' ∨ e = 'E') ∧ startsDigit rest then digits false rest else (0, s)
  | e :: rest => if (e = 'e' ∨ e = 'E') ∧ startsDigit rest then digits false rest else (0, s)
  | [] => (0, [])

/-- Splits off the unit of a number. -/
def scanUnit : List Char → List Char × List Char
  | '%' :: s => (['%'], s)
  | s => if atName s && s.take 2 != ['-', '-'] then scanNameParts true s else ([], s)

/-- Splits off a number behind its sign. -/
def scanNumber (negative : Bool) (s : List Char) : Checked (Expression × List Char) := do
  let whole := s.takeWhile Char.isDigit
  let rest := s.dropWhile Char.isDigit
  let (places, rest) ← match rest with
    | '.' :: c :: more =>
      if c.isDigit then
        pure ((c :: more).takeWhile Char.isDigit, (c :: more).dropWhile Char.isDigit)
      else if whole.isEmpty then throw .missingDigit
      else pure ([], rest)
    | _ => if whole.isEmpty then throw .missingDigit else pure ([], rest)
  let (exponent, rest) := scanExponent rest
  let (unit, rest) := scanUnit rest
  let digits : Nat := (whole ++ places).foldl (fun n c => n * 10 + (c.toNat - 48)) 0
  let x := Double.ofScientific negative digits (exponent - places.length)
  return (.value (.number x (String.ofList unit)), rest)

/-- Splits off a color in hexadecimal digits, or a word, behind its `#`. -/
def scanHash (s : List Char) : Checked (Expression × List Char) :=
  let digits := (s.takeWhile isNamePart).map fun c => (c, hexDigit? c)
  let color :=
    if digits.all (·.2.isSome) then
      Color.ofDigits? (digits.filterMap fun (c, d) => d.map fun d => (c, d))
    else none
  match color with
  | some c => .ok (.value (.color c), s.dropWhile isNamePart)
  | none =>
    if digits.isEmpty then .error .missingName
    else .ok (.value (.word (String.ofList ('#' :: digits.map (·.1)))), s.dropWhile isNamePart)

/-- The value of a word that stands by itself. -/
def wordValue (name : List Char) : Value :=
  if name = "null".toList then .null
  else
    match Color.ofName? name with
    | some c => .color c
    | none => .word (String.ofList name)

/-- Whether an expression can start with this text. -/
def startsExpression : List Char → Bool
  | '-' :: s => atNumber s || atName ('-' :: s)
  | '+' :: s => atNumber s
  | c :: s => c = '"' || c = '\'' || c = '#' || c = '$' || atNumber (c :: s) || atName (c :: s)
  | [] => false

mutual

/-- Reads one expression; `fuel` bounds the number of calls. -/
def readSingle : Nat → List Char → Checked (Expression × List Char)
  | 0, _ => .error .missingExpression
  | fuel + 1, s =>
    match s with
    | '$' :: rest => (scanName rest).map fun (name, rest) => (.variable name, rest)
    | '#' :: rest => scanHash rest
    | '+' :: rest => scanNumber false rest
    | c :: rest =>
      if c = '"' ∨ c = '\'' then
        (scanString s).map fun (text, rest) => (.value (.quoted (String.ofList text)), rest)
      else if c = '-' ∧ atNumber rest then scanNumber true rest
      else if atNumber s then scanNumber false s
      else do
        let (name, rest) ← scanName s
        match rest with
        | '(' :: inside =>
          let address :=
            if name.map Char.toLower = "url".toList then scanAddress? inside else none
          match address with
          | some (address, rest) =>
            let word := "url(" ++ String.ofList address ++ ")"
            return (.value (.word word), rest)
          | none =>
            let (args, rest) ← readArguments fuel (skipGap inside)
            return (.call (String.ofList name) args, rest)
        | _ => return (.value (wordValue name), rest)
    | [] => .error .missingExpression

/-- Reads the arguments of a call up to its closing parenthesis. -/
def readArguments : Nat → List Char → Checked (List Expression × List Char)
  | 0, _ => .error (.missing ')')
  | fuel + 1, s =>
    if startsExpression s then do
      let (items, rest) ← readSpaced fuel s
      let arg := Expression.ofItems .space items
      match rest with
      | ',' :: rest =>
        let (args, rest) ← readArguments fuel (skipGap rest)
        return (arg :: args, rest)
      | rest => return ([arg], ← expect ')' rest)
    else (expect ')' s).map fun rest => ([], rest)

/-- Reads expressions next to each other, and the gap behind them. -/
def readSpaced : Nat → List Char → Checked (List Expression × List Char)
  | 0, s => .ok ([], s)
  | fuel + 1, s =>
    if startsExpression s then do
      let (item, rest) ← readSingle fuel s
      let (items, rest) ← readSpaced fuel (skipGap rest)
      return (item :: items, rest)
    else .ok ([], s)

end

/-- Reads lists with commas between them; nothing need follow the last comma. -/
def readCommas : Nat → List Char → Checked (List Expression × List Char)
  | 0, s => .ok ([], s)
  | fuel + 1, s => do
    let (items, rest) ← readSpaced (2 * s.length + 2) s
    match items, rest with
    | [], ',' :: _ => throw .missingExpression
    | [], rest => return ([], rest)
    | items, ',' :: rest =>
      let (others, rest) ← readCommas fuel (skipGap rest)
      return (.ofItems .space items :: others, rest)
    | items, rest => return ([.ofItems .space items], rest)

/-- Reads an expression and the gap behind it. -/
def readExpression (s : List Char) : Checked (Expression × List Char) := do
  let s := skipGap s
  let (items, rest) ← readCommas (s.length + 1) s
  if items.isEmpty then throw .missingExpression
  return (.ofItems .comma items, rest)

end StyleBuild.Scss
