import Mathlib.Algebra.Order.Ring.Nat
import StyleBuild.Json.Quote
import StyleBuild.Json.Typed

/-!
# Reading scalars back

What is written as a scalar is read as that scalar, whatever follows it: a
quoted text behind its opening quote (`scanString_quote`), and a whole number in
decimal digits (`readNatural_toDigits`). Every text can be quoted, control
characters included.
-/

namespace StyleBuild.Json

open Digest (hexByte hexDigit hexValue?)

/-- A digit in hexadecimal is a character of one byte. -/
theorem utf8Size_hexDigit : ∀ n, n < 16 → (hexDigit n).utf8Size = 1 := by decide

theorem scanHex4_control {n : Nat} (hn : n < 0x20) (rest : List Char) :
    scanHex4 ('0' :: '0' :: (hexByte n.toUInt8 ++ rest)) = .ok (n, rest) := by
  have hbyte : n.toUInt8.toNat = n := by
    rw [Nat.toUInt8, UInt8.toNat_ofNat', Nat.mod_eq_of_lt (by omega)]
  have hhigh := Digest.hexValue?_hexDigit (n / 16) (by omega)
  have hlow := Digest.hexValue?_hexDigit (n % 16) (by omega)
  have hzero : hexValue? '0' = some 0 := by decide
  have hsize : utf8Length ['0', '0', hexDigit (n / 16), hexDigit (n % 16)] = 4 := by
    simp only [utf8Length, List.foldr_cons, List.foldr_nil, utf8Size_hexDigit (n / 16) (by omega),
      utf8Size_hexDigit (n % 16) (by omega)]
    decide
  simp only [hexByte, hbyte, List.cons_append, List.nil_append, scanHex4, List.take_succ_cons,
    List.take_zero, hsize, hzero, hhigh, hlow]
  have hvalue : ((0 * 16 + 0) * 16 + n / 16) * 16 + n % 16 = n := by omega
  rw [hvalue]
  simp

/-- An escape by number is the character with that number. -/
theorem scanEscape_control {c : Char} (hc : c.toNat < 0x20) (rest : List Char) :
    scanEscape ('u' :: '0' :: '0' :: (hexByte c.toNat.toUInt8 ++ rest)) = .ok (c, rest) := by
  have hsimple : simpleEscape? 'u' = none := by decide
  have htrailing : isTrailing c.toNat = false := by simp [isTrailing]; omega
  have hleading : isLeading c.toNat = false := by simp [isLeading]; omega
  have hchar : Char.ofNat c.toNat = c := Char.ofNat_toNat c
  simp only [scanEscape, hsimple, if_true, scanCodePoint, scanHex4_control hc, bind, Except.bind,
    htrailing, hleading, Bool.false_eq_true, if_false, hchar]
  rfl

/-- Reads one more character of a string that is written as an escape. -/
theorem scanString_escape {c : Char} {s rest t u : List Char} (he : scanEscape s = .ok (c, rest))
    (hs : scanString rest = .ok (t, u)) : scanString ('\\' :: s) = .ok (c :: t, u) := by
  rw [scanString, if_neg (by decide), if_pos rfl]
  split
  · next e h => rw [he] at h; cases h
  · next d rest' h =>
    rw [he] at h
    cases h
    rw [hs]

theorem scanString_plain {c : Char} {s t u : List Char} (hq : c ≠ '"') (hb : c ≠ '\\')
    (hc : ¬ c.toNat < 0x20) (hs : scanString s = .ok (t, u)) :
    scanString (c :: s) = .ok (c :: t, u) := by
  rw [scanString, if_neg hq, if_neg hb, if_neg hc, hs]

theorem scanString_quoteChar (c : Char) {s t u : List Char} (hs : scanString s = .ok (t, u)) :
    scanString (quoteChar c ++ s) = .ok (c :: t, u) := by
  have escaped : ∀ letter, simpleEscape? letter = some c →
      scanString ('\\' :: letter :: s) = .ok (c :: t, u) := fun letter hl =>
    scanString_escape (by simp [scanEscape, hl]) hs
  unfold quoteChar
  split
  · next h => exact escaped _ (by rw [h]; decide)
  · next hq =>
    split
    · next h => exact escaped _ (by rw [h]; decide)
    · next hb =>
      split
      · next h => exact escaped _ (by rw [h]; decide)
      · split
        · next h => exact escaped _ (by rw [h]; decide)
        · split
          · next h => exact escaped _ (by rw [h]; decide)
          · split
            · next h => exact escaped _ (by rw [h]; decide)
            · split
              · next h => exact escaped _ (by rw [h]; decide)
              · split
                · next h => exact scanString_escape (scanEscape_control h s) hs
                · next h => exact scanString_plain hq hb h hs

/-- A text is read back from what is written between its quotes. -/
theorem scanString_quote (s rest : List Char) :
    scanString (s.flatMap quoteChar ++ '"' :: rest) = .ok (s, rest) := by
  induction s with
  | nil => rw [List.flatMap_nil, List.nil_append, scanString, if_pos rfl]
  | cons c s ih =>
      rw [List.flatMap_cons, List.append_assoc]
      exact scanString_quoteChar c ih

theorem quote_append (s rest : List Char) :
    quote s ++ rest = '"' :: (s.flatMap quoteChar ++ '"' :: rest) := by
  simp [quote]

theorem readString_quote (wanted : Wanted) {text : List Char} (s rest : List Char)
    (h : skipBlank text = quote s ++ rest) : readString wanted text = .ok (s, rest) := by
  rw [readString, h, quote_append]
  exact scanString_quote s rest

/-! ## Whole numbers -/

/-- The value of digits behind a value. -/
def digitsValue (value : Nat) (digits : List Char) : Nat :=
  digits.foldl (fun v c => v * 10 + digitValue c) value

theorem le_digitsValue (value : Nat) (digits : List Char) : value ≤ digitsValue value digits := by
  induction digits generalizing value with
  | nil => exact le_rfl
  | cons c digits ih => exact le_trans (by omega) (ih (value * 10 + digitValue c))

theorem scanDigits_append {digits rest : List Char} (hd : ∀ c ∈ digits, c.isDigit = true)
    (hr : ∀ c ∈ rest.head?, c.isDigit = false) (value count : Nat)
    (hv : digitsValue value digits < digitBound) :
    scanDigits value count (digits ++ rest) =
      (digitsValue value digits, count + digits.length, false, rest) := by
  induction digits generalizing value count with
  | nil =>
      cases rest with
      | nil => rfl
      | cons c rest =>
          have hc := hr c (by simp)
          simp [scanDigits, hc, digitsValue]
  | cons c digits ih =>
      have hc := hd c List.mem_cons_self
      have hlt : value * 10 + digitValue c < digitBound :=
        lt_of_le_of_lt (le_digitsValue _ digits) hv
      rw [List.cons_append, scanDigits, if_pos hc, if_pos hlt,
        ih (fun d h => hd d (List.mem_cons_of_mem c h)) _ _ hv, List.length_cons]
      have hcount : count + 1 + digits.length = count + (digits.length + 1) := by omega
      rw [hcount]
      rfl

theorem digitsValue_toDigits (n : Nat) : digitsValue 0 (Nat.toDigits 10 n) = n := by
  induction n using Nat.strong_induction_on with
  | _ n ih =>
      rw [Nat.toDigits_eq_if (by decide)]
      split
      · next h =>
        have hd := Nat.toNat_digitChar_sub_48_of_lt_ten h
        simp [digitsValue, digitValue, hd]
      · next h =>
        have hprev := ih (n / 10) (by omega)
        have hd := Nat.toNat_digitChar_sub_48_of_lt_ten (Nat.mod_lt n (by decide : 0 < 10))
        unfold digitsValue at hprev ⊢
        rw [List.foldl_append, hprev, List.foldl_cons, List.foldl_nil, digitValue, hd]
        omega

theorem head?_toDigits_ne_zero {n : Nat} (hn : 0 < n) : (Nat.toDigits 10 n).head? ≠ some '0' := by
  induction n using Nat.strong_induction_on with
  | _ n ih =>
      rw [Nat.toDigits_eq_if (by decide)]
      split
      · simp
        omega
      · have hprev := ih (n / 10) (by omega) (by omega)
        cases hd : Nat.toDigits 10 (n / 10) with
        | nil => exact absurd hd Nat.toDigits_ne_nil
        | cons c digits =>
            rw [hd] at hprev
            exact hprev

/-- Digits that a comma follows are the whole number they write. -/
theorem scanNumber_toDigits {n : Nat} (hn : n < digitBound) (rest : List Char) :
    scanNumber true (Nat.toDigits 10 n ++ ',' :: rest) = .ok (.natural n, ',' :: rest) := by
  rcases Nat.eq_zero_or_pos n with rfl | hpos
  · rw [Nat.toDigits_zero]
    simp [scanNumber, scanNumberEnd]
  · have hdigits : ∀ c ∈ Nat.toDigits 10 n, c.isDigit = true := fun c hc =>
      Nat.isDigit_of_mem_toDigits (by decide) (by decide) hc
    have hscan := scanDigits_append hdigits
      (show ∀ c ∈ (',' :: rest).head?, c.isDigit = false by simp) 0 0
      (by rw [digitsValue_toDigits]; exact hn)
    rw [digitsValue_toDigits] at hscan
    cases hd : Nat.toDigits 10 n with
    | nil => exact absurd hd Nat.toDigits_ne_nil
    | cons c digits =>
        have hc : c ≠ '0' := fun h0 => head?_toDigits_ne_zero hpos (by rw [hd, h0]; rfl)
        have hdigit := hdigits c (by rw [hd]; exact List.mem_cons_self)
        rw [hd] at hscan
        rw [List.cons_append] at hscan ⊢
        rw [scanNumber]
        · rw [if_pos hdigit, hscan]
          simp [scanNumberEnd]
        · exact fun h => hc h

theorem readNatural_toDigits (wanted : Wanted) {bound n : Nat} (hn : n < bound)
    (hbound : bound ≤ digitBound) (rest : List Char) :
    readNatural wanted bound (' ' :: (Nat.toDigits 10 n ++ ',' :: rest)) =
      .ok (n, ',' :: rest) := by
  have hscan := scanNumber_toDigits (lt_of_lt_of_le hn hbound) rest
  have hdigits : ∀ c ∈ Nat.toDigits 10 n, c.isDigit = true := fun c hc =>
    Nat.isDigit_of_mem_toDigits (by decide) (by decide) hc
  cases hd : Nat.toDigits 10 n with
  | nil => exact absurd hd Nat.toDigits_ne_nil
  | cons c digits =>
      have hdigit := hdigits c (by rw [hd]; exact List.mem_cons_self)
      have hblank : isBlank c = false := by
        cases hb : isBlank c with
        | false => rfl
        | true =>
            simp only [isBlank, Bool.or_eq_true, beq_iff_eq] at hb
            rcases hb with ((rfl | rfl) | rfl) | rfl <;> revert hdigit <;> decide
      have hminus : c ≠ '-' := by
        rintro rfl
        revert hdigit
        decide
      have hskip : skipBlank (' ' :: (c :: digits ++ ',' :: rest)) =
          c :: digits ++ ',' :: rest := by
        rw [skipBlank, List.dropWhile_cons_of_pos (by decide), List.cons_append,
          List.dropWhile_cons_of_neg (by simp [hblank])]
      rw [hd] at hscan
      rw [readNatural, hskip, List.cons_append]
      rw [List.cons_append] at hscan
      simp only [hdigit, if_true, hscan, bind, Except.bind, natural, hn]

end StyleBuild.Json
