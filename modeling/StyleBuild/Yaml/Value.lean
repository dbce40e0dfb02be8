import StyleBuild.Yaml.Fault
import StyleBuild.Yaml.Token

/-!
# Values of YAML scalars

A plain scalar means null, a boolean, a number or a text, by its spelling; a
quoted or block scalar is a text. The standard tags ask for one of these
meanings. A local tag, which starts with `!`, does not change the meaning of
the scalar behind it.

A number with a leading zero is a text, and so is one out of range of a double.
-/

namespace StyleBuild.Yaml

open Decimal (Double)

def nullSpellings : List String := ["null", "Null", "NULL", "~"]

def booleanOfSpelling? (s : String) : Option Bool :=
  if ["true", "True", "TRUE"].contains s then some true
  else if ["false", "False", "FALSE"].contains s then some false
  else none

/-- The value of a digit in some base. -/
def digitOf? (base : Nat) (c : Char) : Option Nat :=
  let n :=
    if c.isDigit then some (c.toNat - '0'.toNat)
    else if 'a' ≤ c ∧ c ≤ 'z' then some (c.toNat - 'a'.toNat + 10)
    else if 'A' ≤ c ∧ c ≤ 'Z' then some (c.toNat - 'A'.toNat + 10)
    else none
  n.filter (· < base)

/-- The number with some digits; there has to be one. -/
def natural? (base : Nat) (digits : List Char) : Option Nat :=
  if digits.isEmpty then none
  else digits.foldlM (fun n c => (digitOf? base c).map (n * base + ·)) 0

/-- Splits off a sign. -/
def splitSign : List Char → Option Bool × List Char
  | '+' :: s => (some false, s)
  | '-' :: s => (some true, s)
  | s => (none, s)

/-- A number with a zero in front, which is a text. -/
def isZeroPadded (s : List Char) : Bool :=
  match (splitSign s).2 with
  | '0' :: c :: rest => (c :: rest).all Char.isDigit
  | _ => false

/-- The base that two characters announce. -/
def baseOf? : List Char → Option (Nat × List Char)
  | '0' :: 'x' :: s => some (16, s)
  | '0' :: 'o' :: s => some (8, s)
  | '0' :: 'b' :: s => some (2, s)
  | _ => none

/-- The whole number that a scalar spells, of any size. -/
def integer? (s : List Char) : Option Int :=
  let (sign, digits) := splitSign s
  let magnitude :=
    match baseOf? digits with
    | some (base, digits) => natural? base digits
    | none => if isZeroPadded s then none else natural? 10 digits
  magnitude.map fun n => if sign = some true then -(n : Int) else n

/-- A whole number within 64 bits, signed or not, is an integer; one within 128 bits is known to
be too wide. -/
def integerFound? (s : List Char) : Option Found :=
  match integer? s with
  | none => none
  | some n =>
    if -(Nat.pow 2 63 : Int) ≤ n ∧ n < Nat.pow 2 64 then some (.integer n)
    else if -(Nat.pow 2 127 : Int) ≤ n ∧ n < Nat.pow 2 128 then some (.wideInteger n)
    else none

/-- The decimal that a scalar spells: digits around a point, at least one of them, and an
exponent. -/
def decimal? (negative : Bool) (s : List Char) : Option Double :=
  let whole := s.takeWhile Char.isDigit
  let s := s.dropWhile Char.isDigit
  let (places, s) := match s with
    | '.' :: s => (s.takeWhile Char.isDigit, s.dropWhile Char.isDigit)
    | s => ([], s)
  let exponent : Option Int := match s with
    | [] => some 0
    | e :: s =>
      if e = 'e' ∨ e = 'E' then
        let (sign, digits) := splitSign s
        let magnitude := if digits.all Char.isDigit then natural? 10 digits else none
        magnitude.map fun n => if sign = some true then -(n : Int) else n
      else none
  match natural? 10 (whole ++ places), exponent with
  | some digits, some exponent =>
    some (Double.ofScientific negative digits (exponent - places.length))
  | _, _ => none

/-- The float that a scalar spells. -/
def float? (s : String) : Option Double :=
  if [".inf", ".Inf", ".INF", "+.inf", "+.Inf", "+.INF"].contains s then some (.infinite false)
  else if ["-.inf", "-.Inf", "-.INF"].contains s then some (.infinite true)
  else if [".nan", ".NaN", ".NAN"].contains s then some .notANumber
  else
    let (sign, rest) := splitSign s.toList
    (decimal? (sign = some true) rest).filter Double.isFinite

/-- What a plain scalar means. -/
def plainFound (s : String) : Found :=
  if s = "" ∨ nullSpellings.contains s then .null
  else
    match booleanOfSpelling? s with
    | some b => .boolean b
    | none =>
      match integerFound? s.toList with
      | some found => found
      | none =>
        match if isZeroPadded s.toList then none else float? s with
        | some x => .float x
        | none => .text s

/-- The name in a local tag. -/
def localTag? (tag : Option String) : Option String :=
  match tag.map String.toList with
  | some ('!' :: name) => some (String.ofList name)
  | _ => none

/-- The tag that asks for null. -/
def nullTag : String := "tag:yaml.org,2002:null"

def booleanTag : String := "tag:yaml.org,2002:bool"

/-- What a scalar means, unless it is not what its tag asks for. -/
def scalarFound (tag : Option String) (style : ScalarStyle) (text : String) :
    Except Mismatch Found :=
  let asTagged (found : Option Found) (wanted : Wanted) : Except Mismatch Found :=
    match found with
    | some found => .ok found
    | none => .error (.wrongValue (.text text) wanted)
  let unmarked : Found := if style = .plain then plainFound text else .text text
  match tag with
  | none => .ok unmarked
  | some tag =>
    if tag = booleanTag then
      asTagged ((booleanOfSpelling? text).map .boolean) .tagBoolean
    else if tag = "tag:yaml.org,2002:int" then
      asTagged (integerFound? text.toList) .tagInteger
    else if tag = "tag:yaml.org,2002:float" then
      asTagged ((float? text).map .float) .tagFloat
    else if tag = nullTag then
      asTagged (if nullSpellings.contains text then some .null else none) .null
    else if (localTag? (some tag)).isSome then .ok unmarked
    else .ok (.text text)

/-- Any value. -/
inductive Value where
  | null
  | boolean (b : Bool)
  | integer (n : Int)
  | float (x : Double)
  | text (s : String)
  | sequence (items : List Value)
  /-- Keys and values by turns. -/
  | mapping (items : List Value)
  | tagged (tag : String) (value : Value)

/-- Floats in values are positional up to sixteen digits before the point and four zeros
behind it. -/
def floatStyle : Decimal.NumberStyle := ⟨some 16, some 4, false, 1, ".inf", ".nan"⟩

/-- Whether two floats are the same key. -/
def sameFloat : Double → Double → Bool
  | .finite s m e, .finite s' m' e' => (m = 0 && m' = 0) || (s = s' && m = m' && e = e')
  | x, y => x = y

mutual

/-- Whether two values are the same key. The order in a mapping does not matter. -/
def Value.same : Value → Value → Bool
  | .null, .null => true
  | .boolean b, .boolean b' => b = b'
  | .integer n, .integer n' => n = n'
  | .float x, .float y => sameFloat x y
  | .text s, .text s' => s = s'
  | .sequence items, .sequence items' => sameItems items items'
  | .mapping items, .mapping items' => items.length = items'.length && allEntriesIn items items'
  | .tagged tag v, .tagged tag' v' => tag = tag' && Value.same v v'
  | _, _ => false

def sameItems : List Value → List Value → Bool
  | [], [] => true
  | v :: vs, v' :: vs' => Value.same v v' && sameItems vs vs'
  | _, _ => false

def allEntriesIn : List Value → List Value → Bool
  | k :: v :: rest, items => anyEntry (Value.same k) (Value.same v) items && allEntriesIn rest items
  | _, _ => true

def anyEntry (key value : Value → Bool) : List Value → Bool
  | k :: v :: rest => (key k && value v) || anyEntry key value rest
  | _ => false

end

/-- The keys of entries. -/
def keysOf : List Value → List Value
  | k :: _ :: rest => k :: keysOf rest
  | _ => []

def Value.asRepeatedKey : Value → RepeatedKey
  | .null => .null
  | .boolean b => .boolean b
  | .integer n => .number (toString n)
  | .float x => .number (floatStyle.write x)
  | .text s => .text s
  | _ => .other

/-- The text of a scalar. -/
def Value.scalarText? : Value → Option String
  | .null => some ""
  | .boolean b => some (if b then "true" else "false")
  | .integer n => some (toString n)
  | .float x => some (floatStyle.write x)
  | .text s => some s
  | _ => none

/-- The value of a scalar. A number that is too wide has none. -/
def Value.ofFound : Found → Except Mismatch Value
  | .null => .ok .null
  | .boolean b => .ok (.boolean b)
  | .integer n => .ok (.integer n)
  | .wideInteger n => .error (.wrongType (.wideInteger n) .anyValue)
  | .float x => .ok (.float x)
  | .text s => .ok (.text s)
  | .sequence => .ok (.sequence [])
  | .map => .ok (.mapping [])

end StyleBuild.Yaml
