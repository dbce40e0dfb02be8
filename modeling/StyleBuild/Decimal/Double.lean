/-!
# Double precision numbers

A double is a finite number `± mantissa * 2 ^ exponent`, an infinity, or not a
number. `ofRatio` and `ofScientific` round an exact ratio and a decimal to the
nearest double, a tie going to the even mantissa; they use whole numbers only.
-/

namespace StyleBuild.Decimal

inductive Double where
  | finite (negative : Bool) (mantissa : Nat) (exponent : Int)
  | infinite (negative : Bool)
  | notANumber
  deriving DecidableEq, Repr

namespace Double

/-- Mantissas stay below this bound. -/
def mantissaBound : Nat := Nat.pow 2 53

/-- The least exponent, which the numbers closest to zero have. -/
def minExponent : Int := -1074

def maxExponent : Int := 971

/-- `num / den` divided by `2 ^ e`, rounded to a whole number, ties to even. -/
def scaledQuotient (num den : Nat) (e : Int) : Nat :=
  let n := if e < 0 then num * Nat.pow 2 (-e).toNat else num
  let d := if e < 0 then den else den * Nat.pow 2 e.toNat
  let q := n / d
  let r := n % d
  if 2 * r < d then q
  else if d < 2 * r then q + 1
  else if q % 2 = 0 then q else q + 1

/-- The exponent that leaves 53 binary digits before the point of `num / den`. -/
def fittingExponent (num den : Nat) : Int :=
  let e : Int := (Nat.log2 num : Int) - (Nat.log2 den : Int) - 52
  let e := if (if e < 0 then num * Nat.pow 2 (-e).toNat else num) <
      Nat.pow 2 52 * (if e < 0 then den else den * Nat.pow 2 e.toNat) then e - 1 else e
  max e minExponent

/-- The double nearest to `± num / den`. -/
def ofRatio (negative : Bool) (num den : Nat) : Double :=
  if num = 0 then finite negative 0 minExponent
  else
    let e := fittingExponent num den
    let m := scaledQuotient num den e
    let (m, e) := if m = mantissaBound then (m / 2, e + 1) else (m, e)
    if maxExponent < e then infinite negative else finite negative m e

/-- The double nearest to `± digits * 10 ^ exponent`. Beyond four hundred places on either
side of the point nothing is left to decide. -/
def ofScientific (negative : Bool) (digits : Nat) (exponent : Int) : Double :=
  let magnitude : Int := ((Nat.toDigits 10 digits).length : Int) + exponent
  if digits = 0 then finite negative 0 minExponent
  else if 400 < magnitude then infinite negative
  else if magnitude < -400 then finite negative 0 minExponent
  else if exponent < 0 then ofRatio negative digits (Nat.pow 10 (-exponent).toNat)
  else ofRatio negative (digits * Nat.pow 10 exponent.toNat) 1

def isFinite : Double → Bool
  | finite .. => true
  | _ => false

end Double

end StyleBuild.Decimal
