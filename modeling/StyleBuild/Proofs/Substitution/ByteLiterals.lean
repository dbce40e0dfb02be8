import StyleBuild.Proofs.Substitution.Literals
import StyleBuild.Proofs.Text.Bytes

/-!
# Literals by bytes

The literals of a text can be read off its bytes, without looking at characters:
a backslash in a string takes the next byte with it, though that may be the first
one of several or lie behind the end, and the end of a comment is searched as a
row of bytes. What is found so are the literals of the text, each at its bytes
(`byteRegions_eq`), since all characters with a meaning are ASCII.
-/

namespace StyleBuild.Substitution

open Text

variable {bytes l m t : List UInt8} {quote x : UInt8} {i n stop : Nat} {front s : List Char}
  {c q : Char} {before : Option Char}

section Scan

/-- Where reading goes on behind a string of which byte `i` is the next one. -/
def stringStop (bytes : List UInt8) (quote : UInt8) (i : Nat) : Nat :=
  if h : i < bytes.length then
    if bytes[i] = '\\'.toUInt8 then stringStop bytes quote (i + 2)
    else if bytes[i] = quote then i + 1
    else stringStop bytes quote (i + 1)
  else i
termination_by bytes.length - i

/-- How many bytes stand in front of the first place of a pattern. -/
def offsetOf? (pattern : List UInt8) : List UInt8 → Option Nat
  | [] => if pattern = [] then some 0 else none
  | x :: s => if pattern.isPrefixOf (x :: s) then some 0 else (offsetOf? pattern s).map (· + 1)

def byteBefore? (bytes : List UInt8) : Nat → Option UInt8
  | 0 => none
  | i + 1 => bytes[i]?

/-- Where the literal that starts at byte `i` ends, when one starts there. -/
def literalStop? (bytes : List UInt8) (i : Nat) : Option Nat :=
  if bytes[i]? = some '"'.toUInt8 then
    some (min (stringStop bytes '"'.toUInt8 (i + 1)) bytes.length)
  else if bytes[i]? = some '\''.toUInt8 then
    some (min (stringStop bytes '\''.toUInt8 (i + 1)) bytes.length)
  else if bytes[i]? = some '/'.toUInt8 ∧ bytes[i + 1]? = some '*'.toUInt8 then
    some ((offsetOf? ['*'.toUInt8, '/'.toUInt8] (bytes.drop (i + 2))).elim bytes.length
      (i + 2 + · + 2))
  else if bytes[i]? = some '/'.toUInt8 ∧ bytes[i + 1]? = some '/'.toUInt8 ∧
      ¬ (byteBefore? bytes i = some ':'.toUInt8 ∨ byteBefore? bytes i = some '('.toUInt8) then
    some ((offsetOf? ['\n'.toUInt8] (bytes.drop i)).elim bytes.length (i + ·))
  else none

theorem le_stringStop (bytes : List UInt8) (quote : UInt8) (i : Nat) :
    i ≤ stringStop bytes quote i := by
  fun_induction stringStop bytes quote i <;> omega

/-- A literal has a byte at least. -/
theorem lt_of_literalStop? (h : literalStop? bytes i = some stop) : i < stop := by
  have hle := le_stringStop bytes
  unfold literalStop? at h
  split_ifs at h with hdouble hsingle hblock hline
  · obtain ⟨hi, -⟩ := List.getElem?_eq_some_iff.1 hdouble
    have := hle '"'.toUInt8 (i + 1)
    cases h
    omega
  · obtain ⟨hi, -⟩ := List.getElem?_eq_some_iff.1 hsingle
    have := hle '\''.toUInt8 (i + 1)
    cases h
    omega
  · obtain ⟨hi, -⟩ := List.getElem?_eq_some_iff.1 hblock.1
    cases h
    cases offsetOf? ['*'.toUInt8, '/'.toUInt8] (bytes.drop (i + 2)) with
    | none => exact hi
    | some n => simp only [Option.elim_some]; omega
  · obtain ⟨hi, hslash⟩ := List.getElem?_eq_some_iff.1 hline.1
    have hne : '\n'.toUInt8 ≠ '/'.toUInt8 := by decide
    cases h
    rw [List.drop_eq_getElem_cons hi, hslash, offsetOf?, if_neg (by simp [List.isPrefixOf, hne])]
    cases offsetOf? ['\n'.toUInt8] (bytes.drop (i + 1)) with
    | none => exact hi
    | some n => simp only [Option.map_some, Option.elim_some]; omega

/-- The literals from byte `i` on, where none is open. -/
def byteRegionsFrom (bytes : List UInt8) (i : Nat) : List Region :=
  if _ : i < bytes.length then
    match hstop : literalStop? bytes i with
    | none => byteRegionsFrom bytes (i + 1)
    | some stop => ⟨i, stop⟩ :: byteRegionsFrom bytes stop
  else []
termination_by bytes.length - i
decreasing_by
  · omega
  · have hlt := lt_of_literalStop? hstop
    omega

/-- The literals of a text at its bytes, in order. -/
def byteRegions (source : String) : List Region := byteRegionsFrom source.toUTF8.data.toList 0

end Scan

section Strings

theorem stringStop_of_getElem? (h : bytes[i]? = some x) : stringStop bytes quote i =
    if x = '\\'.toUInt8 then stringStop bytes quote (i + 2)
    else if x = quote then i + 1 else stringStop bytes quote (i + 1) := by
  obtain ⟨hi, rfl⟩ := List.getElem?_eq_some_iff.1 h
  rw [stringStop, dif_pos hi]

theorem stringStop_of_le (h : bytes.length ≤ i) : stringStop bytes quote i = i := by
  rw [stringStop, dif_neg (Nat.not_lt.2 h)]

theorem getElem?_append_cons (l : List UInt8) (x : UInt8) (t : List UInt8) :
    (l ++ x :: t)[l.length]? = some x := by
  rw [List.getElem?_append_right (Nat.le_refl _), Nat.sub_self, List.getElem?_cons_zero]

theorem getElem?_utf8_iff (hq : q.toNat < 128) (front s : List Char) :
    (utf8 (front ++ s))[byteSize front]? = some q.toUInt8 ↔ ∃ t, s = q :: t := by
  rw [utf8_append, byteSize, List.getElem?_append_right (Nat.le_refl _), Nat.sub_self,
    ← List.head?_eq_getElem?, head?_utf8_iff hq, List.head?_eq_some_iff]

/-- Two ASCII characters in turn are two bytes in turn. -/
theorem getElem?_utf8_iff_cons (hc : c.toNat < 128) (hq : q.toNat < 128) (front s : List Char) :
    ((utf8 (front ++ s))[byteSize front]? = some c.toUInt8 ∧
      (utf8 (front ++ s))[byteSize front + 1]? = some q.toUInt8) ↔ ∃ t, s = c :: q :: t := by
  have hnext := getElem?_utf8_iff hq (front ++ [c])
  have hsize : byteSize (front ++ [c]) = byteSize front + 1 := by
    rw [byteSize_append, byteSize_cons, utf8Size_of_lt hc, byteSize_nil]
  rw [hsize] at hnext
  rw [getElem?_utf8_iff hc]
  constructor
  · rintro ⟨⟨s, rfl⟩, hbyte⟩
    rw [List.append_cons, hnext] at hbyte
    obtain ⟨t, rfl⟩ := hbyte
    exact ⟨t, rfl⟩
  · rintro ⟨t, rfl⟩
    exact ⟨⟨_, rfl⟩, by rw [List.append_cons]; exact (hnext _).2 ⟨t, rfl⟩⟩

/-- Bytes without a meaning are read one by one. -/
theorem stringStop_skip (l t : List UInt8) (hm : ∀ x ∈ m, x ≠ '\\'.toUInt8 ∧ x ≠ quote) :
    stringStop (l ++ (m ++ t)) quote l.length =
      stringStop (l ++ (m ++ t)) quote (l.length + m.length) := by
  induction m generalizing l with
  | nil => rfl
  | cons x m ih =>
      obtain ⟨⟨hescape, hquote⟩, hm⟩ := List.forall_mem_cons.1 hm
      have hrest := ih (l ++ [x]) hm
      rw [List.length_append, List.length_singleton, List.append_assoc, List.singleton_append]
        at hrest
      rw [List.cons_append, stringStop_of_getElem? (getElem?_append_cons l x (m ++ t)),
        if_neg hescape, if_neg hquote, hrest, List.length_cons, Nat.add_assoc, Nat.add_comm 1]

/-- A backslash takes one byte along, which may be the first one of several. -/
theorem stringStop_escape (hq : q.toNat < 128) (front : List Char) (c : Char) (s : List Char) :
    stringStop (utf8 (front ++ '\\' :: c :: s)) q.toUInt8 (byteSize front) =
      stringStop (utf8 (front ++ '\\' :: c :: s)) q.toUInt8 (byteSize (front ++ ['\\', c])) := by
  obtain ⟨x, more, hc⟩ := List.exists_cons_of_ne_nil (String.utf8EncodeChar_ne_nil (c := c))
  have hbytes : utf8 (front ++ '\\' :: c :: s) =
      (utf8 front ++ ['\\'.toUInt8, x]) ++ (more ++ utf8 s) := by
    rw [utf8_append, utf8_cons_of_lt (by decide), utf8_cons, hc]
    simp
  have hplain : ∀ y ∈ more, y ≠ '\\'.toUInt8 ∧ y ≠ q.toUInt8 := by
    intro y hy
    have hle := le_of_utf8EncodeChar_eq_cons hc y hy
    exact ⟨ne_toUInt8_of_le hle (by decide), ne_toUInt8_of_le hle hq⟩
  have hskip := stringStop_skip (utf8 front ++ ['\\'.toUInt8, x]) (utf8 s) hplain
  have hsize : byteSize (front ++ ['\\', c]) = byteSize front + 2 + more.length := by
    rw [byteSize_append, byteSize_cons, byteSize_cons, utf8Size_of_lt (by decide), byteSize_nil,
      ← String.length_utf8EncodeChar, hc, List.length_cons]
    omega
  have hfirst := (getElem?_utf8_iff (q := '\\') (by decide) front ('\\' :: c :: s)).2 ⟨_, rfl⟩
  rw [← hbytes, List.length_append, ← byteSize] at hskip
  rw [stringStop_of_getElem? hfirst, if_pos rfl, hsize]
  exact hskip

theorem stringStop_other (hq : q.toNat < 128) (hescape : c ≠ '\\') (hquote : c ≠ q)
    (front s : List Char) :
    stringStop (utf8 (front ++ c :: s)) q.toUInt8 (byteSize front) =
      stringStop (utf8 (front ++ c :: s)) q.toUInt8 (byteSize (front ++ [c])) := by
  have hplain : ∀ y ∈ String.utf8EncodeChar c, y ≠ '\\'.toUInt8 ∧ y ≠ q.toUInt8 := by
    intro y hy
    constructor
    · rintro rfl
      exact hescape ((mem_utf8EncodeChar_iff (by decide)).1 hy)
    · rintro rfl
      exact hquote ((mem_utf8EncodeChar_iff hq).1 hy)
  have hskip := stringStop_skip (utf8 front) (utf8 s) hplain
  rw [← utf8_cons, ← utf8_append, String.length_utf8EncodeChar] at hskip
  rw [byteSize_append, byteSize_cons, byteSize_nil, Nat.add_zero]
  exact hskip

/-- A string reaches as far in bytes as it does in characters. -/
theorem min_stringStop_utf8 (hq : q.toNat < 128) (hne : q ≠ '\\') (front s : List Char) :
    min (stringStop (utf8 (front ++ s)) q.toUInt8 (byteSize front)) (byteSize (front ++ s)) =
      byteSize (front ++ s.take (quotedLength q s)) := by
  induction s using quoted_induction (q := q) generalizing front with
  | nil =>
      have hend : (utf8 front).length ≤ byteSize front := Nat.le_refl _
      rw [List.append_nil, stringStop_of_le hend, Nat.min_self, quotedLength, List.take_zero,
        List.append_nil]
  | backslash =>
      have hfirst := (getElem?_utf8_iff (q := '\\') (by decide) front ['\\']).2 ⟨[], rfl⟩
      have hend : (utf8 (front ++ ['\\'])).length ≤ byteSize front + 2 := by
        rw [← byteSize, byteSize_append, byteSize_cons, utf8Size_of_lt (by decide), byteSize_nil]
        omega
      rw [stringStop_of_getElem? hfirst, if_pos rfl, stringStop_of_le hend]
      exact Nat.min_eq_right hend
  | escape c s ih =>
      have hrest := ih (front ++ ['\\', c])
      rw [List.append_assoc, List.append_assoc] at hrest
      rw [stringStop_escape hq, quotedLength_escape, Nat.add_comm 2]
      exact hrest
  | quote s _ =>
      have hfirst := (getElem?_utf8_iff hq front (q :: s)).2 ⟨s, rfl⟩
      have hescape : q.toUInt8 ≠ '\\'.toUInt8 := by
        intro heq
        exact hne ((mem_utf8EncodeChar_iff (by decide)).1
          (by rw [utf8EncodeChar_of_lt hq, heq]; exact List.mem_singleton_self _))
      rw [stringStop_of_getElem? hfirst, if_neg hescape, if_pos rfl, quotedLength_quote hne,
        List.take_succ_cons, List.take_zero, byteSize_append, byteSize_append, byteSize_cons,
        byteSize_cons, utf8Size_of_lt hq, byteSize_nil]
      omega
  | other c s hescape hquote ih =>
      have hrest := ih (front ++ [c])
      rw [List.append_assoc, List.append_assoc] at hrest
      rw [stringStop_other hq hescape hquote, quotedLength_other hescape hquote, Nat.add_comm 1]
      exact hrest

end Strings

section Comments

theorem offsetOf?_skip {pattern : List UInt8} (hm : ∀ y ∈ m, y ≠ x) :
    offsetOf? (x :: pattern) (m ++ t) =
      (offsetOf? (x :: pattern) t).map (· + m.length) := by
  induction m with
  | nil => simp
  | cons y m ih =>
      obtain ⟨hy, hm⟩ := List.forall_mem_cons.1 hm
      have hne : (x == y) = false := beq_false_of_ne (Ne.symm hy)
      rw [List.cons_append, offsetOf?, ih hm, if_neg (by simp [List.isPrefixOf, hne]),
        Option.map_map]
      rfl

/-- A block comment reaches as far in bytes as it does in characters. -/
theorem offsetOf?_blockComment (s : List Char) :
    (offsetOf? ['*'.toUInt8, '/'.toUInt8] (utf8 s)).elim (byteSize s) (· + 2) =
      byteSize (s.take (blockCommentLength s)) := by
  fun_induction blockCommentLength s with
  | case1 => rfl
  | case2 s =>
      rw [utf8_cons_of_lt (by decide), utf8_cons_of_lt (by decide), offsetOf?, if_pos]
      · rfl
      · simp [List.isPrefixOf]
  | case3 c s hopen ih =>
      have hstep : offsetOf? ['*'.toUInt8, '/'.toUInt8] (utf8 (c :: s)) =
          (offsetOf? ['*'.toUInt8, '/'.toUInt8] (utf8 s)).map (· + c.utf8Size) := by
        rcases eq_or_ne c '*' with rfl | hc
        · have hnext : ¬ (utf8 s).head? = some '/'.toUInt8 := by
            rw [head?_utf8_iff (by decide)]
            intro hhead
            obtain ⟨rest, rfl⟩ := List.head?_eq_some_iff.1 hhead
            exact hopen rest rfl rfl
          rw [utf8_cons_of_lt (by decide), offsetOf?, if_neg, utf8Size_of_lt (by decide)]
          cases hbytes : utf8 s with
          | nil => simp [List.isPrefixOf]
          | cons y more =>
              rw [hbytes, List.head?_cons, Option.some_inj] at hnext
              simp [List.isPrefixOf, Ne.symm hnext]
        · rw [utf8_cons, ← String.length_utf8EncodeChar]
          refine offsetOf?_skip fun y hy => ?_
          rintro rfl
          exact hc ((mem_utf8EncodeChar_iff (by decide)).1 hy)
      rw [hstep, Nat.add_comm 1, List.take_succ_cons, byteSize_cons, byteSize_cons, ← ih]
      cases offsetOf? ['*'.toUInt8, '/'.toUInt8] (utf8 s) with
      | none => rfl
      | some n => simp only [Option.map_some, Option.elim_some]; omega

/-- A line ends at the same place in bytes and in characters. -/
theorem offsetOf?_line (s : List Char) :
    (offsetOf? ['\n'.toUInt8] (utf8 s)).getD (byteSize s) = byteSize (s.takeWhile (· ≠ '\n')) := by
  induction s with
  | nil => rfl
  | cons c s ih =>
      rcases eq_or_ne c '\n' with rfl | hc
      · rw [utf8_cons_of_lt (by decide), offsetOf?, if_pos]
        · rfl
        · simp [List.isPrefixOf]
      · have hstep : offsetOf? ['\n'.toUInt8] (String.utf8EncodeChar c ++ utf8 s) =
            (offsetOf? ['\n'.toUInt8] (utf8 s)).map (· + (String.utf8EncodeChar c).length) := by
          refine offsetOf?_skip fun y hy => ?_
          rintro rfl
          exact hc ((mem_utf8EncodeChar_iff (by decide)).1 hy)
        rw [utf8_cons, hstep, List.takeWhile_cons_of_pos (by simpa using hc), byteSize_cons,
          byteSize_cons, ← ih, String.length_utf8EncodeChar]
        cases offsetOf? ['\n'.toUInt8] (utf8 s) with
        | none => rfl
        | some n => simp only [Option.map_some, Option.getD_some]; omega

end Comments

section Openings

theorem literalStop?_of_quote (hq : q = '"' ∨ q = '\'') (h : bytes[i]? = some q.toUInt8) :
    literalStop? bytes i = some (min (stringStop bytes q.toUInt8 (i + 1)) bytes.length) := by
  unfold literalStop?
  rcases hq with rfl | rfl
  · rw [if_pos h]
  · rw [if_neg (by rw [h]; decide), if_pos h]

theorem literalStop?_of_blockComment
    (h : bytes[i]? = some '/'.toUInt8 ∧ bytes[i + 1]? = some '*'.toUInt8) :
    literalStop? bytes i =
      some ((offsetOf? ['*'.toUInt8, '/'.toUInt8] (bytes.drop (i + 2))).elim bytes.length
        (i + 2 + · + 2)) := by
  unfold literalStop?
  rw [if_neg (by rw [h.1]; decide), if_neg (by rw [h.1]; decide), if_pos h]

theorem literalStop?_of_lineComment
    (h : bytes[i]? = some '/'.toUInt8 ∧ bytes[i + 1]? = some '/'.toUInt8)
    (haddress : ¬ (byteBefore? bytes i = some ':'.toUInt8 ∨
      byteBefore? bytes i = some '('.toUInt8)) :
    literalStop? bytes i =
      some ((offsetOf? ['\n'.toUInt8] (bytes.drop i)).elim bytes.length (i + ·)) := by
  unfold literalStop?
  rw [if_neg (by rw [h.1]; decide), if_neg (by rw [h.1]; decide), if_neg,
    if_pos ⟨h.1, h.2, haddress⟩]
  rw [h.2]
  exact fun hblock => absurd hblock.2 (by decide)

theorem literalStop?_of_code
    (hquote : ∀ q, q = '"' ∨ q = '\'' → bytes[i]? ≠ some q.toUInt8)
    (hblock : ¬ (bytes[i]? = some '/'.toUInt8 ∧ bytes[i + 1]? = some '*'.toUInt8))
    (hline : bytes[i]? = some '/'.toUInt8 ∧ bytes[i + 1]? = some '/'.toUInt8 →
      byteBefore? bytes i = some ':'.toUInt8 ∨ byteBefore? bytes i = some '('.toUInt8) :
    literalStop? bytes i = none := by
  unfold literalStop?
  rw [if_neg (hquote _ (.inl rfl)), if_neg (hquote _ (.inr rfl)), if_neg hblock, if_neg]
  exact fun h => h.2.2 (hline ⟨h.1, h.2.1⟩)

end Openings

section Literals

theorem byteBefore?_append (l t : List UInt8) : byteBefore? (l ++ t) l.length = l.getLast? := by
  rcases List.eq_nil_or_concat' l with rfl | ⟨init, x, rfl⟩
  · rfl
  · rw [List.length_append, List.length_singleton, byteBefore?, List.append_assoc,
      List.singleton_append, getElem?_append_cons, List.getLast?_concat]

theorem byteBefore?_utf8_iff (hq : q.toNat < 128) (front s : List Char) :
    byteBefore? (utf8 (front ++ s)) (byteSize front) = some q.toUInt8 ↔
      front.getLast? = some q := by
  rw [utf8_append, byteSize, byteBefore?_append, getLast?_utf8_iff hq]

theorem opensAddress_iff : opensAddress before = true ↔
    before = some ':' ∨ before = some '(' := by
  simp [opensAddress]

theorem opensAddress_iff_byteBefore? (front s : List Char) :
    (byteBefore? (utf8 (front ++ s)) (byteSize front) = some ':'.toUInt8 ∨
      byteBefore? (utf8 (front ++ s)) (byteSize front) = some '('.toUInt8) ↔
        opensAddress front.getLast? = true := by
  rw [byteBefore?_utf8_iff (by decide), byteBefore?_utf8_iff (by decide), opensAddress_iff]

theorem drop_utf8 (front s : List Char) : (utf8 (front ++ s)).drop (byteSize front) = utf8 s := by
  rw [utf8_append, byteSize, List.drop_left]

theorem literalStop?_utf8_quote (hq : q = '"' ∨ q = '\'') (front s : List Char) :
    literalStop? (utf8 (front ++ q :: s)) (byteSize front) =
      some (byteSize (front ++ (q :: s).take (1 + quotedLength q s))) := by
  have hlt : q.toNat < 128 := by rcases hq with rfl | rfl <;> decide
  have hescape : q ≠ '\\' := by rcases hq with rfl | rfl <;> decide
  have hstring := min_stringStop_utf8 hlt hescape (front ++ [q]) s
  rw [List.append_assoc, List.append_assoc, byteSize_append front [q], byteSize_cons,
    utf8Size_of_lt hlt] at hstring
  rw [literalStop?_of_quote hq ((getElem?_utf8_iff hlt _ _).2 ⟨s, rfl⟩), Nat.add_comm 1]
  exact congrArg some hstring

theorem literalStop?_utf8_blockComment (front s : List Char) :
    literalStop? (utf8 (front ++ '/' :: '*' :: s)) (byteSize front) =
      some (byteSize (front ++ ('/' :: '*' :: s).take (2 + blockCommentLength s))) := by
  have hopen := (getElem?_utf8_iff_cons (c := '/') (q := '*') (by decide) (by decide) front _).2
    ⟨s, rfl⟩
  have hsize : byteSize (front ++ ['/', '*']) = byteSize front + 2 := by
    rw [byteSize_append]
    rfl
  have hbehind := drop_utf8 (front ++ ['/', '*']) s
  have htext := byteSize_append (front ++ ['/', '*']) s
  have hend := byteSize_append (front ++ ['/', '*']) (s.take (blockCommentLength s))
  rw [hsize, List.append_assoc] at hbehind htext hend
  rw [literalStop?_of_blockComment hopen, Nat.add_comm 2]
  refine congrArg some (Eq.trans ?_ hend.symm)
  refine Eq.trans (congrArg (fun l => (offsetOf? _ l).elim _ _) hbehind) ?_
  rw [← offsetOf?_blockComment]
  cases offsetOf? ['*'.toUInt8, '/'.toUInt8] (utf8 s) with
  | none => exact htext
  | some n => simp only [Option.elim_some]; omega

theorem literalStop?_utf8_lineComment (h : opensAddress front.getLast? = false) (s : List Char) :
    literalStop? (utf8 (front ++ '/' :: '/' :: s)) (byteSize front) =
      some (byteSize (front ++ ('/' :: '/' :: s).take (2 + lineCommentLength s))) := by
  have hopen := (getElem?_utf8_iff_cons (c := '/') (q := '/') (by decide) (by decide) front _).2
    ⟨s, rfl⟩
  have haddress := mt (opensAddress_iff_byteBefore? front ('/' :: '/' :: s)).1
    (Bool.eq_false_iff.1 h)
  have hline : ('/' :: '/' :: s).takeWhile (· ≠ '\n') =
      ('/' :: '/' :: s).take (2 + lineCommentLength s) := by
    rw [Nat.add_comm]
    exact List.prefix_iff_eq_take.1 (List.takeWhile_prefix _)
  rw [literalStop?_of_lineComment hopen haddress, drop_utf8, ← hline, byteSize_append,
    ← offsetOf?_line]
  refine congrArg some ?_
  cases offsetOf? ['\n'.toUInt8] (utf8 ('/' :: '/' :: s)) with
  | none => exact byteSize_append front _
  | some n => rfl

theorem literalStop?_utf8_code (h : literalLength front.getLast? s = 0) :
    literalStop? (utf8 (front ++ s)) (byteSize front) = none := by
  refine literalStop?_of_code (fun q hq hbyte => ?_) (fun hbytes => ?_) fun hbytes => ?_
  · have hlt : q.toNat < 128 := by rcases hq with rfl | rfl <;> decide
    obtain ⟨t, rfl⟩ := (getElem?_utf8_iff hlt _ _).1 hbyte
    rw [literalLength_quote hq] at h
    omega
  · obtain ⟨t, rfl⟩ := (getElem?_utf8_iff_cons (by decide) (by decide) _ _).1 hbytes
    rw [literalLength_blockComment] at h
    omega
  · obtain ⟨t, rfl⟩ := (getElem?_utf8_iff_cons (by decide) (by decide) _ _).1 hbytes
    rw [opensAddress_iff_byteBefore?]
    by_contra hnot
    rw [literalLength_lineComment, if_neg hnot] at h
    omega

/-- Whether a literal starts at a character, and where it ends, can be read off the bytes. -/
theorem literalStop?_utf8 (front s : List Char) :
    literalStop? (utf8 (front ++ s)) (byteSize front) =
      if literalLength front.getLast? s = 0 then none
      else some (byteSize (front ++ s.take (literalLength front.getLast? s))) := by
  rcases eq_or_ne (literalLength front.getLast? s) 0 with hzero | hne
  · rw [if_pos hzero, literalStop?_utf8_code hzero]
  · rw [if_neg hne]
    rcases literal_cases hne with ⟨q, t, hq, rfl, hlength⟩ |
      ⟨c, t, rfl, ⟨rfl, hlength⟩ | ⟨rfl, hlength⟩⟩
    · rw [hlength, literalStop?_utf8_quote hq]
    · rw [hlength, literalStop?_utf8_blockComment]
    · have haddress : opensAddress front.getLast? = false := by
        rw [Bool.eq_false_iff]
        intro hopens
        rw [literalLength_lineComment, if_pos hopens] at hne
        exact hne rfl
      rw [hlength, literalStop?_utf8_lineComment haddress]

end Literals

section Regions

/-- A literal of a text at its bytes. -/
def Region.inBytes (s : List Char) (r : Region) : Region :=
  ⟨byteOffset s r.start, byteOffset s r.stop⟩

theorem byteRegionsFrom_of_none (hi : i < bytes.length) (h : literalStop? bytes i = none) :
    byteRegionsFrom bytes i = byteRegionsFrom bytes (i + 1) := by
  rw [byteRegionsFrom, dif_pos hi]
  split
  · rfl
  · next hsome => rw [h] at hsome; cases hsome

theorem byteRegionsFrom_of_some (hi : i < bytes.length) (h : literalStop? bytes i = some stop) :
    byteRegionsFrom bytes i = ⟨i, stop⟩ :: byteRegionsFrom bytes stop := by
  rw [byteRegionsFrom, dif_pos hi]
  split
  · next hnone => rw [h] at hnone; cases hnone
  · next stop' hsome =>
    rw [h, Option.some_inj] at hsome
    rw [hsome]

/-- No literal starts at a byte that is no ASCII character. -/
theorem literalStop?_of_le (h : bytes[i]? = some x) (hx : 128 ≤ x.toNat) :
    literalStop? bytes i = none := by
  have hne : ∀ d : Char, d.toNat < 128 → bytes[i]? ≠ some d.toUInt8 := by
    intro d hd
    rw [h, Ne, Option.some_inj]
    exact ne_toUInt8_of_le hx hd
  refine literalStop?_of_code (fun q hq => hne q ?_) (fun hbytes => ?_) fun hbytes => ?_
  · rcases hq with rfl | rfl <;> decide
  · exact absurd hbytes.1 (hne '/' (by decide))
  · exact absurd hbytes.1 (hne '/' (by decide))

theorem byteRegionsFrom_skip (l t : List UInt8) (hm : ∀ y ∈ m, 128 ≤ y.toNat) :
    byteRegionsFrom (l ++ (m ++ t)) l.length =
      byteRegionsFrom (l ++ (m ++ t)) (l.length + m.length) := by
  induction m generalizing l with
  | nil => rfl
  | cons y m ih =>
      obtain ⟨hy, hm⟩ := List.forall_mem_cons.1 hm
      have hbyte := getElem?_append_cons l y (m ++ t)
      obtain ⟨hlt, -⟩ := List.getElem?_eq_some_iff.1 hbyte
      have hrest := ih (l ++ [y]) hm
      rw [List.length_append, List.length_singleton, List.append_assoc, List.singleton_append]
        at hrest
      rw [List.cons_append, byteRegionsFrom_of_none hlt (literalStop?_of_le hbyte hy), hrest,
        List.length_cons, Nat.add_assoc, Nat.add_comm 1]

/-- A character of code is passed over with all of its bytes. -/
theorem byteRegionsFrom_code (h : literalLength front.getLast? (c :: s) = 0) :
    byteRegionsFrom (utf8 (front ++ c :: s)) (byteSize front) =
      byteRegionsFrom (utf8 (front ++ c :: s)) (byteSize (front ++ [c])) := by
  obtain ⟨x, more, hc⟩ := List.exists_cons_of_ne_nil (String.utf8EncodeChar_ne_nil (c := c))
  have hbytes : utf8 (front ++ c :: s) = (utf8 front ++ [x]) ++ (more ++ utf8 s) := by
    rw [utf8_append, utf8_cons, hc]
    simp
  have hskip := byteRegionsFrom_skip (utf8 front ++ [x]) (utf8 s)
    (le_of_utf8EncodeChar_eq_cons hc)
  have hsize : byteSize (front ++ [c]) = byteSize front + 1 + more.length := by
    rw [byteSize_append, byteSize_cons, byteSize_nil, ← String.length_utf8EncodeChar, hc,
      List.length_cons]
    omega
  have hlt : byteSize front < (utf8 (front ++ c :: s)).length := by
    have hpos := c.utf8Size_pos
    rw [← byteSize, byteSize_append, byteSize_cons]
    omega
  rw [← hbytes, List.length_append, ← byteSize, List.length_singleton, ← hsize] at hskip
  rw [byteRegionsFrom_of_none hlt (literalStop?_utf8_code h), hskip]

theorem inBytes_append (front s t : List Char) :
    Region.inBytes (front ++ (s ++ t)) ⟨front.length, front.length + s.length⟩ =
      ⟨byteSize front, byteSize (front ++ s)⟩ := by
  rw [Region.inBytes, byteOffset_append, ← List.append_assoc, ← List.length_append,
    byteOffset_append]

/-- The literals that are read off the bytes are those that are read off the characters. -/
theorem byteRegionsFrom_utf8 (front s : List Char) :
    byteRegionsFrom (utf8 (front ++ s)) (byteSize front) =
      (literalRegionsFrom front.length front.getLast? 0 s).map (Region.inBytes (front ++ s)) := by
  generalize hbefore : front.getLast? = before
  induction before, s using literal_induction generalizing front with
  | nil before =>
      rw [List.append_nil, byteRegionsFrom, dif_neg (by rw [byteSize]; exact Nat.lt_irrefl _)]
      rfl
  | code before c s hcode ih =>
      subst hbefore
      have hrest := ih (front ++ [c]) List.getLast?_concat
      rw [List.append_assoc, List.length_append] at hrest
      rw [byteRegionsFrom_code hcode, literalRegionsFrom_code _ hcode]
      exact hrest
  | literal before s hliteral ih =>
      subst hbefore
      obtain ⟨n, hn⟩ : ∃ n, literalLength front.getLast? s = n := ⟨_, rfl⟩
      have hle : n ≤ s.length := hn ▸ literalLength_le front.getLast? s
      have hlength : (s.take n).length = n := List.length_take_of_le hle
      have hne : s.take n ≠ [] := by
        intro hnil
        rw [hnil, List.length_nil] at hlength
        exact hliteral (hn.trans hlength.symm)
      have hstop := literalStop?_utf8 front s
      have hlt : byteSize front < (utf8 (front ++ s)).length := by
        have hs : s ≠ [] := fun hnil => hne (by rw [hnil, List.take_nil])
        have hpos := byteSize_pos hs
        rw [← byteSize, byteSize_append]
        omega
      have hrest := ih (front ++ s.take n) (by rw [hn, List.getLast?_append_of_ne_nil _ hne])
      have hfirst := inBytes_append front (s.take n) (s.drop n)
      rw [if_neg hliteral] at hstop
      rw [hn] at hrest hstop
      rw [List.append_assoc, List.take_append_drop, List.length_append, hlength] at hrest
      rw [List.take_append_drop, hlength] at hfirst
      rw [byteRegionsFrom_of_some hlt hstop, literalRegionsFrom_literal _ hliteral, hn,
        List.map_cons, hfirst, hrest]

theorem byteRegions_eq (source : String) :
    byteRegions source = (literalRegions source.toList).map (Region.inBytes source.toList) := by
  rw [byteRegions, toList_toUTF8]
  exact byteRegionsFrom_utf8 [] source.toList

/-- A literal is as long as it is where it starts. -/
theorem exists_of_mem_literalRegionsFrom {r : Region} {position : Nat}
    (h : r ∈ literalRegionsFrom position before 0 s) :
    ∃ a b last, s = a ++ b ∧ literalLength last b ≠ 0 ∧
      r = ⟨position + a.length, position + a.length + literalLength last b⟩ := by
  induction before, s using literal_induction generalizing position with
  | nil before => cases h
  | code before c s hcode ih =>
      rw [literalRegionsFrom_code position hcode] at h
      obtain ⟨a, b, last, rfl, hliteral, rfl⟩ := ih h
      refine ⟨c :: a, b, last, rfl, hliteral, ?_⟩
      rw [List.length_cons, Nat.add_comm a.length, ← Nat.add_assoc]
  | literal before s hliteral ih =>
      have hlength := List.length_take_of_le (literalLength_le before s)
      rw [literalRegionsFrom_literal position hliteral] at h
      rcases List.mem_cons.1 h with rfl | h
      · exact ⟨[], s, before, rfl, hliteral, rfl⟩
      · obtain ⟨a, b, last, hs, hb, rfl⟩ := ih h
        refine ⟨s.take (literalLength before s) ++ a, b, last, ?_, hb, ?_⟩
        · rw [List.append_assoc, ← hs, List.take_append_drop]
        · rw [List.length_append, hlength, Nat.add_assoc]

/-- These bytes are characters of the text, one at least. When a comment starts there, its two
characters can be cut off, as it is done to search for its end. -/
structure Region.IsSafe (source : String) (r : Region) : Prop where
  nonempty : r.start < r.stop
  inside : r.stop ≤ source.utf8ByteSize
  start : (String.Pos.Raw.mk r.start).IsValid source
  stop : (String.Pos.Raw.mk r.stop).IsValid source
  comment : source.toUTF8.data.toList[r.start]? = some '/'.toUInt8 →
    r.start + 2 ≤ r.stop ∧ (String.Pos.Raw.mk (r.start + 2)).IsValid source

theorem isSafe_of_mem_byteRegions {source : String} {r : Region} (h : r ∈ byteRegions source) :
    r.IsSafe source := by
  rw [byteRegions_eq, List.mem_map] at h
  obtain ⟨r, hr, rfl⟩ := h
  have hle := stop_le_of_mem hr
  rw [Nat.zero_add] at hle
  refine ⟨byteOffset_lt (start_lt_stop_of_mem hr) hle, ?_, isValid_byteOffset source _,
    isValid_byteOffset source _, fun hslash => ?_⟩
  · rw [← byteSize_toList]
    exact byteOffset_le_byteSize _ _
  · obtain ⟨a, b, last, htext, hliteral, rfl⟩ := exists_of_mem_literalRegionsFrom hr
    have hopen : ∃ c t, b = '/' :: c :: t ∧ (c = '*' ∨ c = '/') ∧ 2 ≤ literalLength last b := by
      rw [Region.inBytes, Nat.zero_add, toList_toUTF8, htext, byteOffset_append,
        getElem?_utf8_iff (by decide)] at hslash
      obtain ⟨t, rfl⟩ := hslash
      rcases literal_cases hliteral with ⟨q, u, hq, heq, -⟩ |
        ⟨c, u, heq, ⟨hc, hlength⟩ | ⟨hc, hlength⟩⟩
      · cases heq
        rcases hq with hq | hq <;> cases hq
      · exact ⟨c, u, heq, .inl hc, by omega⟩
      · exact ⟨c, u, heq, .inr hc, by omega⟩
    obtain ⟨c, t, rfl, hc, htwo⟩ := hopen
    have hsize : byteSize (('/' :: c :: t).take 2) = 2 := by rcases hc with rfl | rfl <;> rfl
    have hcut : byteOffset source.toList (a.length + 2) =
        byteOffset source.toList a.length + 2 := by
      rw [byteOffset_add, htext, List.drop_left, hsize]
    simp only [Region.inBytes, Nat.zero_add]
    rw [← hcut]
    exact ⟨byteOffset_le (Nat.add_le_add_left htwo _), isValid_byteOffset source _⟩

theorem pairwise_byteRegions (source : String) :
    (byteRegions source).Pairwise fun a b => a.stop ≤ b.start := by
  rw [byteRegions_eq, List.pairwise_map]
  exact (pairwise_literalRegionsFrom 0 none source.toList).imp fun hle => byteOffset_le hle

end Regions

end StyleBuild.Substitution
