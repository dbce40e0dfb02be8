import StyleBuild.Decimal.Double

/-!
# Shortest decimals of a double

`shortest m e` is the decimal with the fewest digits among those that round to
the double `m * 2 ^ e`, and the nearest of them where there are several. The
decimals that round to a double lie between the midpoints to its neighbours,
the midpoints included exactly when the mantissa is even.

`NumberStyle` says how such a decimal is written.
-/

namespace StyleBuild.Decimal

/-- `digits * 10 ^ exponent`. -/
structure Scientific where
  digits : Nat
  exponent : Int
  deriving DecidableEq, Repr

/-- `m * 2 ^ e * 10 ^ k` as numerator and denominator. -/
def scaledRatio (m : Nat) (e k : Int) : Nat × Nat :=
  (m * (if e < 0 then 1 else Nat.pow 2 e.toNat) * (if k < 0 then 1 else Nat.pow 10 k.toNat),
    (if e < 0 then Nat.pow 2 (-e).toNat else 1) * (if k < 0 then Nat.pow 10 (-k).toNat else 1))

/-- Whether `digits` lies between the midpoints around `m * 2 ^ e`, after both are multiplied
by `10 ^ k`. -/
def roundsBack (m : Nat) (e k : Int) (digits : Nat) : Bool :=
  let nearBelow := m = Nat.pow 2 52 ∧ Double.minExponent < e
  let low := scaledRatio (if nearBelow then 4 * m - 1 else 4 * m - 2) (e - 2) k
  let high := scaledRatio (4 * m + 2) (e - 2) k
  if m % 2 = 0 then low.1 ≤ digits * low.2 && digits * high.2 ≤ high.1
  else low.1 < digits * low.2 && digits * high.2 < high.1

/-- The nearer of the two whole numbers around `m * 2 ^ e * 10 ^ k` that round back. -/
def gridHit (m : Nat) (e k : Int) : Option Nat :=
  let (num, den) := scaledRatio m e k
  let below := num / den
  let twice := 2 * (num % den)
  let upFirst := den < twice || (twice == den && below % 2 == 1)
  let first := if upFirst then below + 1 else below
  let second := if upFirst then below else below + 1
  if roundsBack m e k first then some first
  else if roundsBack m e k second then some second
  else none

/-- How many decimal places in front of the point `m * 2 ^ e` needs; negative when zeros follow
the point. -/
def placesBeforePoint (m : Nat) (e : Int) : Int :=
  let (num, den) := scaledRatio m e 0
  if den ≤ num then (Nat.toDigits 10 (num / den)).length
  else
    let zeros : Nat := (List.range 400).findIdx (fun i => den ≤ num * Nat.pow 10 (i + 1))
    Int.neg zeros

/-- Drops zeros at the end of the digits; `fuel` bounds their number. -/
def dropZeros : Nat → Scientific → Scientific
  | 0, s => s
  | fuel + 1, s =>
    if s.digits ≠ 0 ∧ s.digits % 10 = 0 then dropZeros fuel ⟨s.digits / 10, s.exponent + 1⟩
    else s

/-- The shortest decimal of `m * 2 ^ e`. -/
def shortest (m : Nat) (e : Int) : Scientific :=
  if m = 0 then ⟨0, 0⟩
  else
    let places := placesBeforePoint m e
    let hit := (List.range 17).findSome? fun (n : Nat) =>
      let k : Int := (n : Int) + 1 - places
      (gridHit m e k).map fun digits => (⟨digits, -k⟩ : Scientific)
    dropZeros 20 (hit.getD ⟨0, 0⟩)

/-- How numbers are written: positionally while the point stands after at most `mostPlaces`
digits and at most `mostZeros` zeros follow it, else with one digit before the point and an
exponent. -/
structure NumberStyle where
  mostPlaces : Option Nat
  mostZeros : Option Nat
  plusSign : Bool
  exponentWidth : Nat
  infinity : String
  notANumber : String

namespace NumberStyle

def digitsText (n : Nat) : List Char := Nat.toDigits 10 n

/-- `exponent` written with its sign and at least `exponentWidth` digits. -/
def exponentText (style : NumberStyle) (exponent : Int) : List Char :=
  let digits := digitsText exponent.natAbs
  let padded := List.replicate (style.exponentWidth - digits.length) '0' ++ digits
  if exponent < 0 then '-' :: padded else if style.plusSign then '+' :: padded else padded

def positional (digits : List Char) (point : Int) : List Char :=
  if point ≤ 0 then '0' :: '.' :: (List.replicate (-point).toNat '0' ++ digits)
  else
    let n := point.toNat
    if digits.length ≤ n then digits ++ List.replicate (n - digits.length) '0' ++ ['.', '0']
    else digits.take n ++ '.' :: digits.drop n

def scientific (style : NumberStyle) (digits : List Char) (point : Int) : List Char :=
  let mantissa := match digits with
    | [] => ['0']
    | [d] => [d]
    | d :: rest => d :: '.' :: rest
  mantissa ++ 'e' :: style.exponentText (point - 1)

def magnitude (style : NumberStyle) (m : Nat) (e : Int) : List Char :=
  if m = 0 then ['0', '.', '0']
  else
    let s := shortest m e
    let digits := digitsText s.digits
    let point : Int := digits.length + s.exponent
    let fitsLeft := match style.mostPlaces with
      | none => true
      | some p => decide (point ≤ (p : Int))
    let fitsRight := match style.mostZeros with
      | none => true
      | some z => decide (-(z : Int) ≤ point)
    if fitsLeft && fitsRight then positional digits point else style.scientific digits point

def write (style : NumberStyle) : Double → String
  | .finite negative m e =>
    String.ofList ((if negative then ['-'] else []) ++ style.magnitude m e)
  | .infinite negative => (if negative then "-" else "") ++ style.infinity
  | .notANumber => style.notANumber

end NumberStyle

end StyleBuild.Decimal
