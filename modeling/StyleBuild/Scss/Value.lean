import StyleBuild.Decimal.Double
import StyleBuild.Scss.Color

/-!
# Values in CSS

What a declaration can hold once its variables are replaced, and its text. In a
list nothing is written for a blank value, and a blank value makes no
declaration.

Numbers have ten places at most and no zero at their end. Short CSS has no zero
before the point.
-/

namespace StyleBuild.Scss

open Decimal (Double)

inductive Separator where
  | space
  | comma
  deriving DecidableEq, Repr

inductive Value where
  | null
  | word (text : String)
  | quoted (text : String)
  | number (x : Double) (unit : String)
  | color (c : Color)
  | call (name : String) (args : List Value)
  | list (separator : Separator) (items : List Value)
  deriving Repr

/-- The most places that are written behind the point. -/
def mostPlaces : Nat := 10

/-- A fraction in units of the last place, to the nearest whole number, a tie to the even one. -/
def inLastPlace (num den : Nat) : Nat :=
  let num := num * Nat.pow 10 mostPlaces
  let below := num / den
  let twice := 2 * (num % den)
  if den < twice ∨ (twice = den ∧ below % 2 = 1) then below + 1 else below

/-- The text of a number without sign. -/
def magnitudeText (format : OutputFormat) (units : Nat) : List Char :=
  let digits := Nat.toDigits 10 (units % Nat.pow 10 mostPlaces)
  let places := List.replicate (mostPlaces - digits.length) '0' ++ digits
  let places := (places.reverse.dropWhile (· = '0')).reverse
  let whole := units / Nat.pow 10 mostPlaces
  if places.isEmpty then Nat.toDigits 10 whole
  else
    (if whole = 0 ∧ format = .crunched then [] else Nat.toDigits 10 whole) ++ '.' :: places

def numberText (format : OutputFormat) : Double → List Char
  | .finite negative m e =>
    let units :=
      if e < 0 then inLastPlace m (Nat.pow 2 (-e).toNat)
      else inLastPlace (m * Nat.pow 2 e.toNat) 1
    (if negative && units != 0 then ['-'] else []) ++ magnitudeText format units
  | .infinite negative => (if negative then "-Infinity" else "Infinity").toList
  | .notANumber => "NaN".toList

/-- A control character in a string: its code in hexadecimal digits, and a space when the text
goes on with a digit or a space. -/
def escapedControl (c : Char) (rest : List Char) : List Char :=
  let space := match rest with
    | d :: _ => d.isDigit || ('a' ≤ d && d ≤ 'f') || ('A' ≤ d && d ≤ 'F') || d = ' ' || d = '\t'
    | [] => false
  '\\' :: Nat.toDigits 16 c.toNat ++ if space then [' '] else []

/-- The inside of a string. -/
def stringBody (escapeQuotes : Bool) : List Char → List Char
  | [] => []
  | c :: s =>
    let rest := stringBody escapeQuotes s
    if c = '\\' then '\\' :: '\\' :: rest
    else if c = '"' ∧ escapeQuotes then '\\' :: '"' :: rest
    else if c.toNat < 0x20 ∧ c ≠ '\t' then escapedControl c s ++ rest
    else c :: rest

/-- A string in double quotes, or in single ones when only double ones are in it. -/
def stringText (s : List Char) : List Char :=
  if s.contains '"' then
    if s.contains '\'' then '"' :: stringBody true s ++ ['"']
    else '\'' :: stringBody false s ++ ['\'']
  else '"' :: stringBody false s ++ ['"']

def Separator.text (format : OutputFormat) : Separator → String
  | .space => " "
  | .comma => if format = .crunched then "," else ", "

mutual

/-- Whether nothing is written for a value. -/
def Value.isBlank : Value → Bool
  | .null => true
  | .word text => text.isEmpty
  | .list _ items => allBlank items
  | _ => false

def allBlank : List Value → Bool
  | [] => true
  | v :: vs => v.isBlank && allBlank vs

end

mutual

def Value.text (format : OutputFormat) : Value → String
  | .null => ""
  | .word text => text
  | .quoted text => String.ofList (stringText text.toList)
  | .number x unit => String.ofList (numberText format x) ++ unit
  | .color c => c.text format
  | .call name args => name ++ "(" ++ ", ".intercalate (valueTexts format args) ++ ")"
  | .list separator items =>
    (separator.text format).intercalate (visibleTexts format items)

def valueTexts (format : OutputFormat) : List Value → List String
  | [] => []
  | v :: vs => v.text format :: valueTexts format vs

def visibleTexts (format : OutputFormat) : List Value → List String
  | [] => []
  | v :: vs =>
    if v.isBlank then visibleTexts format vs else v.text format :: visibleTexts format vs

end

end StyleBuild.Scss
