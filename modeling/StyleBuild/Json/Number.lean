import StyleBuild.Json.Scan

/-!
# JSON numbers

A whole number in the range of 64 bits, with or without sign, is kept as it is.
Every other number is a float: one with a point or an exponent, one out of
range, and `-0`. A float is made from its digits as a whole number, as many as
fit 64 bits, and one multiplication or division by a power of ten.
-/

namespace StyleBuild.Json

open Decimal (Double)

inductive Number where
  | natural (n : Nat)
  | negative (n : Nat)
  | float (x : Double)
  deriving DecidableEq, Repr

def Number.found : Number → Found
  | .natural n => .integer n
  | .negative n => .integer (-(n : Int))
  | .float x => .float x

/-- The bound of the digits that are kept. -/
def digitBound : Nat := Nat.pow 2 64

def digitValue (c : Char) : Nat := c.toNat - 48

/-- Reads digits while their value stays in bounds; answers the value, how many there were, and
whether a digit was left out. -/
def scanDigits (value count : Nat) : List Char → Nat × Nat × Bool × List Char
  | [] => (value, count, false, [])
  | c :: s =>
    if c.isDigit then
      if value * 10 + digitValue c < digitBound then
        scanDigits (value * 10 + digitValue c) (count + 1) s
      else (value, count, true, c :: s)
    else (value, count, false, c :: s)

/-- The mantissa and exponent of a finite double. -/
def parts : Double → Nat × Int
  | .finite _ m e => (m, e)
  | _ => (0, 0)

/-- `x * 10 ^ k` for a table entry `10 ^ k`, `k ≤ 308`. -/
def timesTen (x : Double) (k : Nat) : Double :=
  let (m, e) := parts x
  let (m', e') := parts (Double.ofScientific false 1 k)
  let e := e + e'
  if e < 0 then Double.ofRatio false (m * m') (Nat.pow 2 (-e).toNat)
  else Double.ofRatio false (m * m' * Nat.pow 2 e.toNat) 1

/-- `x / 10 ^ k` for a table entry `10 ^ k`, `k ≤ 308`. -/
def overTen (x : Double) (k : Nat) : Double :=
  let (m, e) := parts x
  let (m', e') := parts (Double.ofScientific false 1 k)
  let e := e - e'
  if e < 0 then Double.ofRatio false m (m' * Nat.pow 2 (-e).toNat)
  else Double.ofRatio false (m * Nat.pow 2 e.toNat) m'

def isZero (x : Double) : Bool := (parts x).1 == 0 && x.isFinite

/-- `x * 10 ^ exponent`, or `none` when that is out of range. The power table ends at 308. -/
def scaleTen : Nat → Double → Int → Option Double
  | 0, x, _ => some x
  | fuel + 1, x, exponent =>
    if exponent.natAbs ≤ 308 then
      if 0 ≤ exponent then
        let y := timesTen x exponent.toNat
        if y.isFinite then some y else none
      else some (overTen x exponent.natAbs)
    else if isZero x then some x
    else if 0 ≤ exponent then none
    else scaleTen fuel (overTen x 308) (exponent + 308)

def negate : Double → Double
  | .finite s m e => .finite (!s) m e
  | .infinite s => .infinite (!s)
  | .notANumber => .notANumber

/-- The float `± digits * 10 ^ exponent`, for a number that ends before `rest`. -/
def floatOf (positive : Bool) (digits : Nat) (exponent : Int) (rest : List Char) :
    Except Stop (Number × List Char) :=
  match scaleTen 8 (Double.ofRatio false digits 1) exponent with
  | none => .error (stopAt .numberOutOfRange rest)
  | some x => .ok (.float (if positive then x else negate x), rest)

/-- The bound of an exponent. -/
def exponentBound : Nat := Nat.pow 2 31

/-- Reads the digits of an exponent; `none` when they leave the bound, then with what follows the
digit that did. -/
def scanExponentDigits (value : Nat) : List Char → Option Nat × List Char
  | [] => (some value, [])
  | c :: s =>
    if c.isDigit then
      if value * 10 + digitValue c < exponentBound then
        scanExponentDigits (value * 10 + digitValue c) s
      else (none, s)
    else (some value, c :: s)

/-- Reads an exponent behind its letter. -/
def scanExponent (positive : Bool) (digits : Nat) (exponent : Int) (s : List Char) :
    Except Stop (Number × List Char) :=
  let (up, s) := match s with
    | '+' :: s => (true, s)
    | '-' :: s => (false, s)
    | s => (true, s)
  match s with
  | [] => .error (stopAt .endInValue [])
  | c :: _ =>
    if c.isDigit then
      match scanExponentDigits 0 s with
      | (some n, rest) =>
        floatOf positive digits (if up then exponent + n else exponent - n) rest
      | (none, rest) =>
        if digits ≠ 0 ∧ up then .error (stopAt .numberOutOfRange rest)
        else
          let zero := Double.finite false 0 Double.minExponent
          .ok (.float (if positive then zero else negate zero), rest.dropWhile Char.isDigit)
    else .error (stopBehind .invalidNumber s)

/-- What may follow the digits of a float. -/
def scanFloatEnd (positive : Bool) (digits : Nat) (exponent : Int) (s : List Char) :
    Except Stop (Number × List Char) :=
  match s with
  | 'e' :: rest => scanExponent positive digits exponent rest
  | 'E' :: rest => scanExponent positive digits exponent rest
  | _ => floatOf positive digits exponent s

/-- Reads the digits behind a point. -/
def scanFraction (positive : Bool) (digits : Nat) (exponent : Int) (s : List Char) :
    Except Stop (Number × List Char) :=
  match scanDigits digits 0 s with
  | (digits, count, true, rest) =>
    scanFloatEnd positive digits (exponent - count) (rest.dropWhile Char.isDigit)
  | (_, 0, false, []) => .error (stopAt .endInValue [])
  | (_, 0, false, rest) => .error (stopBehind .invalidNumber rest)
  | (digits, count, false, rest) => scanFloatEnd positive digits (exponent - count) rest

/-- What may follow the digits of a whole number that is in bounds. -/
def scanNumberEnd (positive : Bool) (digits : Nat) (s : List Char) :
    Except Stop (Number × List Char) :=
  match s with
  | '.' :: rest => scanFraction positive digits 0 rest
  | 'e' :: rest => scanExponent positive digits 0 rest
  | 'E' :: rest => scanExponent positive digits 0 rest
  | _ =>
    if positive then .ok (.natural digits, s)
    else if digits = 0 ∨ Nat.pow 2 63 < digits then
      .ok (.float (negate (Double.ofRatio false digits 1)), s)
    else .ok (.negative digits, s)

/-- Reads a number behind its sign. -/
def scanNumber (positive : Bool) (s : List Char) : Except Stop (Number × List Char) :=
  match s with
  | [] => .error (stopAt .endInValue [])
  | '0' :: rest =>
    match rest with
    | c :: _ =>
      if c.isDigit then .error (stopBehind .invalidNumber rest) else scanNumberEnd positive 0 rest
    | [] => scanNumberEnd positive 0 rest
  | c :: _ =>
    if c.isDigit then
      match scanDigits 0 0 s with
      | (digits, _, false, rest) => scanNumberEnd positive digits rest
      | (digits, _, true, rest) =>
        let more := (rest.takeWhile Char.isDigit).length
        match rest.dropWhile Char.isDigit with
        | '.' :: rest => scanFraction positive digits more rest
        | rest => scanFloatEnd positive digits more rest
    else .error (stopBehind .invalidNumber s)

end StyleBuild.Json
