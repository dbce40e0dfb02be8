import Mathlib.Data.List.Basic

/-!
# Bytes of a text

A text is stored as the bytes of its characters, one to four for each. An ASCII
character is one byte, which is part of no other character
(`mem_utf8EncodeChar_iff`), so a byte that is met tells whether that character
stands there (`head?_utf8_iff`).

A text can be cut at a byte where a character starts, or at its end, and nowhere
else: `cutAt?` and `slice?` have no outcome at other bytes, and `isValid_iff` says
that these places are the valid positions of the string.
-/

namespace StyleBuild.Text

variable {s a b : List Char} {c d : Char} {i j k : Nat}

def utf8 (s : List Char) : List UInt8 := s.flatMap String.utf8EncodeChar

def byteSize (s : List Char) : Nat := (utf8 s).length

/-- The byte in front of which `k` characters stand. -/
def byteOffset (s : List Char) (k : Nat) : Nat := byteSize (s.take k)

@[simp] theorem utf8_nil : utf8 [] = [] := rfl

@[simp] theorem utf8_cons (c : Char) (s : List Char) :
    utf8 (c :: s) = String.utf8EncodeChar c ++ utf8 s := List.flatMap_cons

@[simp] theorem utf8_append (a b : List Char) : utf8 (a ++ b) = utf8 a ++ utf8 b :=
  List.flatMap_append

@[simp] theorem byteSize_nil : byteSize [] = 0 := rfl

@[simp] theorem byteSize_cons (c : Char) (s : List Char) :
    byteSize (c :: s) = c.utf8Size + byteSize s := by
  rw [byteSize, utf8_cons, List.length_append, String.length_utf8EncodeChar, byteSize]

@[simp] theorem byteSize_append (a b : List Char) :
    byteSize (a ++ b) = byteSize a + byteSize b := by
  rw [byteSize, utf8_append, List.length_append, byteSize, byteSize]

theorem byteSize_pos (hs : s ≠ []) : 0 < byteSize s := by
  obtain ⟨c, s, rfl⟩ := List.exists_cons_of_ne_nil hs
  have hc := c.utf8Size_pos
  rw [byteSize_cons]
  omega

/-- The bytes of a string are those that it is stored in. -/
theorem toList_toUTF8 (source : String) : source.toUTF8.data.toList = utf8 source.toList := by
  have hbytes : source.toUTF8 = source.toList.utf8Encode := String.utf8Encode_toList.symm
  rw [hbytes, List.utf8Encode, List.toList_data_toByteArray, utf8]

theorem byteSize_toList (source : String) : byteSize source.toList = source.utf8ByteSize := by
  rw [byteSize, ← toList_toUTF8, Array.length_toList, ← String.size_toByteArray]
  rfl

section Ascii

theorem utf8EncodeChar_of_lt (hc : c.toNat < 128) : String.utf8EncodeChar c = [c.toUInt8] := by
  have hsize : c.utf8Size = 1 := by
    rw [Char.utf8Size_eq_one_iff, UInt32.le_iff_toNat_le]
    exact Nat.le_of_lt_succ hc
  exact String.utf8EncodeChar_eq_singleton hsize

theorem utf8Size_of_lt (hc : c.toNat < 128) : c.utf8Size = 1 := by
  rw [← String.length_utf8EncodeChar, utf8EncodeChar_of_lt hc, List.length_singleton]

/-- The bytes of any other character have the upper bit. -/
theorem le_of_mem_utf8EncodeChar (hc : 128 ≤ c.toNat) :
    ∀ x ∈ String.utf8EncodeChar c, 128 ≤ x.toNat := by
  have hval : 128 ≤ c.val.toNat := hc
  intro x hx
  unfold String.utf8EncodeChar at hx
  simp only at hx
  split at hx
  · omega
  · split at hx
    · simp only [List.mem_cons, List.not_mem_nil, or_false] at hx
      rcases hx with rfl | rfl <;> rw [UInt8.toNat_ofNat'] <;> omega
    · split at hx
      · simp only [List.mem_cons, List.not_mem_nil, or_false] at hx
        rcases hx with rfl | rfl | rfl <;> rw [UInt8.toNat_ofNat'] <;> omega
      · simp only [List.mem_cons, List.not_mem_nil, or_false] at hx
        rcases hx with rfl | rfl | rfl | rfl <;> rw [UInt8.toNat_ofNat'] <;> omega

theorem toNat_toUInt8 (hc : c.toNat < 128) : c.toUInt8.toNat = c.toNat := by
  rw [Char.toUInt8, UInt32.toNat_toUInt8]
  exact Nat.mod_eq_of_lt (Nat.lt_trans hc (by decide))

theorem ne_toUInt8_of_le {x : UInt8} (hx : 128 ≤ x.toNat) (hd : d.toNat < 128) :
    x ≠ d.toUInt8 := by
  rintro rfl
  rw [toNat_toUInt8 hd] at hx
  omega

/-- Behind its first byte a character has no byte of an ASCII character. -/
theorem le_of_utf8EncodeChar_eq_cons {x : UInt8} {more : List UInt8}
    (h : String.utf8EncodeChar c = x :: more) : ∀ y ∈ more, 128 ≤ y.toNat := by
  intro y hy
  rcases Nat.lt_or_ge c.toNat 128 with hc | hc
  · rw [utf8EncodeChar_of_lt hc] at h
    rw [← (List.cons.inj h).2] at hy
    cases hy
  · exact le_of_mem_utf8EncodeChar hc y (by rw [h]; exact List.mem_cons_of_mem _ hy)

/-- The byte of an ASCII character is part of no other one. -/
theorem mem_utf8EncodeChar_iff (hd : d.toNat < 128) :
    d.toUInt8 ∈ String.utf8EncodeChar c ↔ c = d := by
  constructor
  · intro hmem
    rcases Nat.lt_or_ge c.toNat 128 with hc | hc
    · rw [utf8EncodeChar_of_lt hc, List.mem_singleton] at hmem
      have hnat := congrArg UInt8.toNat hmem
      rw [toNat_toUInt8 hd, toNat_toUInt8 hc] at hnat
      exact (Char.toNat_inj.1 hnat).symm
    · have hhigh := le_of_mem_utf8EncodeChar hc _ hmem
      rw [toNat_toUInt8 hd] at hhigh
      omega
  · rintro rfl
    rw [utf8EncodeChar_of_lt hd]
    exact List.mem_singleton_self _

theorem utf8_cons_of_lt (hc : c.toNat < 128) (s : List Char) :
    utf8 (c :: s) = c.toUInt8 :: utf8 s := by
  rw [utf8_cons, utf8EncodeChar_of_lt hc, List.singleton_append]

/-- The first byte tells whether an ASCII character is the first one. -/
theorem head?_utf8_iff (hd : d.toNat < 128) :
    (utf8 s).head? = some d.toUInt8 ↔ s.head? = some d := by
  cases s with
  | nil => simp
  | cons c s =>
      have hne : String.utf8EncodeChar c ≠ [] := String.utf8EncodeChar_ne_nil
      rw [utf8_cons, List.head?_append_of_ne_nil _ hne, List.head?_cons, Option.some_inj]
      constructor
      · intro hhead
        exact (mem_utf8EncodeChar_iff hd).1 (List.mem_of_mem_head? hhead)
      · rintro rfl
        rw [utf8EncodeChar_of_lt hd]
        rfl

/-- The last byte tells whether an ASCII character is the last one. -/
theorem getLast?_utf8_iff (hd : d.toNat < 128) :
    (utf8 s).getLast? = some d.toUInt8 ↔ s.getLast? = some d := by
  rcases List.eq_nil_or_concat' s with rfl | ⟨init, c, rfl⟩
  · simp
  · have hne : utf8 [c] ≠ [] := by simp [utf8]
    rw [utf8_append, List.getLast?_append_of_ne_nil _ hne, List.getLast?_concat, Option.some_inj,
      utf8_cons, utf8_nil, List.append_nil]
    constructor
    · intro hlast
      exact (mem_utf8EncodeChar_iff hd).1 (List.mem_of_getLast? hlast)
    · rintro rfl
      rw [utf8EncodeChar_of_lt hd]
      rfl

end Ascii

section Cut

theorem byteOffset_append (a b : List Char) : byteOffset (a ++ b) a.length = byteSize a := by
  rw [byteOffset, List.take_left]

theorem byteOffset_length (s : List Char) : byteOffset s s.length = byteSize s := by
  rw [byteOffset, List.take_length]

theorem byteOffset_add (s : List Char) (k n : Nat) :
    byteOffset s (k + n) = byteOffset s k + byteSize ((s.drop k).take n) := by
  rw [byteOffset, List.take_add, byteSize_append, byteOffset]

theorem byteOffset_le (hk : k ≤ j) : byteOffset s k ≤ byteOffset s j := by
  obtain ⟨n, rfl⟩ := Nat.exists_eq_add_of_le hk
  rw [byteOffset_add]
  exact Nat.le_add_right _ _

theorem byteOffset_lt (hk : k < j) (hj : j ≤ s.length) : byteOffset s k < byteOffset s j := by
  obtain ⟨n, rfl⟩ := Nat.exists_eq_add_of_lt hk
  have hpos : 0 < byteSize ((s.drop k).take (n + 1)) := by
    refine byteSize_pos fun hnil => ?_
    have hlength := congrArg List.length hnil
    rw [List.length_take, List.length_drop, List.length_nil] at hlength
    omega
  rw [Nat.add_assoc, byteOffset_add]
  omega

theorem byteOffset_le_byteSize (s : List Char) (k : Nat) : byteOffset s k ≤ byteSize s := by
  rcases Nat.le_total k s.length with hle | hge
  · rw [← byteOffset_length]
    exact byteOffset_le hle
  · exact Nat.le_of_eq (by rw [byteOffset, List.take_of_length_le hge])

/-- Bytes and characters have the same order. -/
theorem byteOffset_lt_iff (hk : k ≤ s.length) (hj : j ≤ s.length) :
    byteOffset s k < byteOffset s j ↔ k < j := by
  constructor
  · intro hlt
    by_contra hle
    rcases Nat.eq_or_lt_of_le (Nat.le_of_not_lt hle) with heq | hgt
    · rw [heq] at hlt
      exact Nat.lt_irrefl _ hlt
    · exact Nat.lt_asymm hlt (byteOffset_lt hgt hk)
  · exact fun hlt => byteOffset_lt hlt hj

theorem byteOffset_le_iff (hk : k ≤ s.length) (hj : j ≤ s.length) :
    byteOffset s k ≤ byteOffset s j ↔ k ≤ j := by
  rw [← Nat.not_lt, byteOffset_lt_iff hj hk, Nat.not_lt]

/-- The valid positions of a string are those between two of its characters, and its ends. -/
theorem isValid_iff (source : String) (i : Nat) :
    (String.Pos.Raw.mk i).IsValid source ↔ ∃ a b, source.toList = a ++ b ∧ i = byteSize a := by
  rw [String.Pos.Raw.isValid_iff_exists_append]
  constructor
  · rintro ⟨s, t, rfl, hi⟩
    refine ⟨s.toList, t.toList, String.toList_append, ?_⟩
    rw [byteSize_toList]
    exact congrArg String.Pos.Raw.byteIdx hi
  · rintro ⟨a, b, htext, rfl⟩
    refine ⟨String.ofList a, String.ofList b, ?_, ?_⟩
    · rw [← String.toList_inj, String.toList_append, String.toList_ofList, String.toList_ofList,
        htext]
    · rw [String.Pos.Raw.ext_iff, String.byteIdx_rawEndPos, ← byteSize_toList, String.toList_ofList]

theorem isValid_byteOffset (source : String) (k : Nat) :
    (String.Pos.Raw.mk (byteOffset source.toList k)).IsValid source :=
  (isValid_iff source _).2 ⟨_, _, (List.take_append_drop k source.toList).symm, rfl⟩

/-- The text in front of a byte and the text behind it, when no character is cut in two. -/
def cutAt? : List Char → Nat → Option (List Char × List Char)
  | s, 0 => some ([], s)
  | [], _ + 1 => none
  | c :: s, i + 1 =>
    if c.utf8Size ≤ i + 1 then
      (cutAt? s (i + 1 - c.utf8Size)).map fun parts => (c :: parts.1, parts.2)
    else none

/-- The text between two bytes, when they are in order and no character is cut in two. -/
def slice? (s : List Char) (i j : Nat) : Option (List Char) :=
  (cutAt? s j).bind fun outer => (cutAt? outer.1 i).map fun inner => inner.2

theorem cutAt?_eq_some_iff : cutAt? s i = some (a, b) ↔ s = a ++ b ∧ i = byteSize a := by
  fun_induction cutAt? s i generalizing a b with
  | case1 s =>
      constructor
      · intro h
        cases h
        exact ⟨rfl, rfl⟩
      · rintro ⟨rfl, hsize⟩
        obtain rfl : a = [] := by
          by_contra hne
          have hpos := byteSize_pos hne
          omega
        rfl
  | case2 i =>
      constructor
      · intro h
        cases h
      · rintro ⟨htext, hsize⟩
        rw [(List.append_eq_nil_iff.1 htext.symm).1] at hsize
        cases hsize
  | case3 c s i hle ih =>
      rw [Option.map_eq_some_iff]
      constructor
      · rintro ⟨⟨a', b'⟩, hcut, heq⟩
        cases heq
        obtain ⟨rfl, hsize⟩ : s = a' ++ b' ∧ i + 1 - c.utf8Size = byteSize a' := ih.1 hcut
        refine ⟨rfl, ?_⟩
        simp only [byteSize_cons]
        omega
      · rintro ⟨htext, hsize⟩
        cases a with
        | nil => cases hsize
        | cons d a =>
            obtain ⟨rfl, rfl⟩ := List.cons.inj htext
            rw [byteSize_cons] at hsize
            exact ⟨(a, b), ih.2 ⟨rfl, by omega⟩, rfl⟩
  | case4 c s i hlt =>
      constructor
      · intro h
        cases h
      · rintro ⟨htext, hsize⟩
        cases a with
        | nil => cases hsize
        | cons d a =>
            obtain ⟨rfl, rfl⟩ := List.cons.inj htext
            rw [byteSize_cons] at hsize
            omega

theorem slice?_eq_some_iff : slice? s i j = some b ↔
    ∃ front back, s = front ++ (b ++ back) ∧ i = byteSize front ∧ j = byteSize (front ++ b) := by
  rw [slice?, Option.bind_eq_some_iff]
  constructor
  · rintro ⟨⟨outer, back⟩, hcut, hinner⟩
    obtain ⟨⟨front, b'⟩, hfront, rfl⟩ := Option.map_eq_some_iff.1 hinner
    obtain ⟨rfl, hj⟩ := cutAt?_eq_some_iff.1 hcut
    obtain ⟨rfl, hi⟩ := cutAt?_eq_some_iff.1 hfront
    exact ⟨front, back, List.append_assoc _ _ _, hi, hj⟩
  · rintro ⟨front, back, rfl, hi, hj⟩
    refine ⟨(front ++ b, back), cutAt?_eq_some_iff.2 ⟨(List.append_assoc _ _ _).symm, hj⟩, ?_⟩
    rw [cutAt?_eq_some_iff.2 ⟨rfl, hi⟩]
    rfl

end Cut

end StyleBuild.Text
