import Mathlib.Data.List.Basic
import Mathlib.Data.List.Pairwise
import StyleBuild.Substitution.Literal

/-!
# Code and literals in turn

A text is read from the front: either a literal starts there, and reading goes on
behind it, or the first character is code (`literal_induction`). The literals
that are listed follow the same steps, and so does the code of the text, the
characters that lie in none of its literals (`codeFrom_code` and
`codeFrom_literal`).
-/

namespace StyleBuild.Substitution

/-- The characters that lie in none of the regions; the text starts at `position`. -/
def outside (regions : List Region) (position : Nat) (s : List Char) : List Char :=
  ((s.zipIdx position).filter fun e => !regions.any fun r => r.has e.2).map fun e => e.1

/-- The characters of a text that lie in none of its literals. -/
def codeOf (s : List Char) : List Char := outside (literalRegions s) 0 s

/-- The code of what is left of a text from `position` on, where no literal is open. -/
def codeFrom (position : Nat) (before : Option Char) (s : List Char) : List Char :=
  outside (literalRegionsFrom position before 0 s) position s

variable {position skip : Nat} {before : Option Char} {s t : List Char} {c q : Char} {r : Region}
  {regions regions' : List Region}

theorem Region.has_iff (r : Region) (p : Nat) : r.has p = true ↔ r.start ≤ p ∧ p < r.stop := by
  simp [Region.has]

/-- Reading a string: a backslash takes the next character with it, and the quote ends it. -/
@[elab_as_elim]
theorem quoted_induction {motive : List Char → Prop} (nil : motive []) (backslash : motive ['\\'])
    (escape : ∀ c s, motive s → motive ('\\' :: c :: s))
    (quote : ∀ s, q ≠ '\\' → motive (q :: s))
    (other : ∀ c s, c ≠ '\\' → c ≠ q → motive s → motive (c :: s)) (s : List Char) :
    motive s := by
  fun_induction quotedLength q s with
  | case1 => exact nil
  | case2 => exact backslash
  | case3 c s ih => exact escape c s ih
  | case4 s hend hescape =>
      refine quote s fun hq => ?_
      cases s with
      | nil => exact hend hq rfl
      | cons c s => exact hescape c s hq rfl
  | case5 c s hend hescape hne ih =>
      refine other c s (fun hc => ?_) hne ih
      cases s with
      | nil => exact hend hc rfl
      | cons d s => exact hescape d s hc rfl

theorem quotedLength_escape (q c : Char) (s : List Char) :
    quotedLength q ('\\' :: c :: s) = 2 + quotedLength q s := rfl

theorem quotedLength_cons (hc : c ≠ '\\') (q : Char) (s : List Char) :
    quotedLength q (c :: s) = if c = q then 1 else 1 + quotedLength q s := by
  rw [quotedLength]
  · exact fun h => absurd h hc
  · exact fun _ _ h => absurd h hc

theorem quotedLength_quote (hq : q ≠ '\\') (s : List Char) : quotedLength q (q :: s) = 1 := by
  rw [quotedLength_cons hq, if_pos rfl]

theorem quotedLength_other (hc : c ≠ '\\') (hne : c ≠ q) (s : List Char) :
    quotedLength q (c :: s) = 1 + quotedLength q s := by
  rw [quotedLength_cons hc, if_neg hne]

theorem blockCommentLength_cons (h : ¬ (c = '*' ∧ s.head? = some '/')) :
    blockCommentLength (c :: s) = 1 + blockCommentLength s := by
  rw [blockCommentLength]
  rintro t rfl rfl
  exact h ⟨rfl, rfl⟩

/-- A line comment ends in front of the first line feed. -/
theorem lineCommentLength_append_newline (hs : '\n' ∉ s) (t : List Char) :
    lineCommentLength (s ++ '\n' :: t) = s.length := by
  have hline : ∀ c ∈ s, decide (c ≠ '\n') = true := fun c hc =>
    decide_eq_true fun hnewline => hs (hnewline ▸ hc)
  rw [lineCommentLength, List.takeWhile_append_of_pos hline, List.takeWhile_cons_of_neg (by simp),
    List.append_nil]

/-- A string that ends within a text does not depend on what is behind the text. -/
theorem quotedLength_of_append (h : quotedLength q (s ++ t) ≤ s.length) :
    quotedLength q s = quotedLength q (s ++ t) := by
  induction s using quoted_induction (q := q) with
  | nil => exact (Nat.le_zero.1 h).symm
  | backslash =>
      cases t with
      | nil => rfl
      | cons c t =>
          rw [List.singleton_append, quotedLength_escape, List.length_singleton] at h
          omega
  | escape c s ih =>
      rw [List.cons_append, List.cons_append, quotedLength_escape] at h ⊢
      rw [List.length_cons, List.length_cons] at h
      rw [quotedLength_escape, ih (by omega)]
  | quote s hq => rw [List.cons_append, quotedLength_quote hq, quotedLength_quote hq]
  | other c s hc hne ih =>
      rw [List.cons_append, quotedLength_other hc hne] at h ⊢
      rw [List.length_cons] at h
      rw [quotedLength_other hc hne, ih (by omega)]

theorem blockCommentLength_of_append (h : blockCommentLength (s ++ t) ≤ s.length) :
    blockCommentLength s = blockCommentLength (s ++ t) := by
  fun_induction blockCommentLength s with
  | case1 => exact (Nat.le_zero.1 h).symm
  | case2 => rfl
  | case3 c s hopen ih =>
      have hcons : ¬ (c = '*' ∧ (s ++ t).head? = some '/') := by
        rintro ⟨rfl, hhead⟩
        cases s with
        | nil =>
            obtain ⟨t, rfl⟩ := List.head?_eq_some_iff.1 hhead
            exact absurd h (by simp [blockCommentLength])
        | cons d s =>
            cases hhead
            exact hopen s rfl rfl
      rw [List.cons_append, blockCommentLength_cons hcons] at h ⊢
      rw [List.length_cons] at h
      rw [ih (by omega)]

theorem lineCommentLength_of_append (h : lineCommentLength (s ++ t) ≤ s.length) :
    lineCommentLength s = lineCommentLength (s ++ t) := by
  unfold lineCommentLength at h ⊢
  rw [List.takeWhile_append] at h ⊢
  split at h
  · next hall =>
    rw [if_pos hall]
    rw [List.length_append] at h ⊢
    omega
  · next hsome => rw [if_neg hsome]

theorem literalLength_quote (hq : q = '"' ∨ q = '\'') (before : Option Char) (s : List Char) :
    literalLength before (q :: s) = 1 + quotedLength q s := by
  rcases hq with rfl | rfl <;> rfl

theorem literalLength_blockComment (before : Option Char) (s : List Char) :
    literalLength before ('/' :: '*' :: s) = 2 + blockCommentLength s := rfl

theorem literalLength_lineComment (before : Option Char) (s : List Char) :
    literalLength before ('/' :: '/' :: s) =
      if opensAddress before then 0 else 2 + lineCommentLength s := rfl

/-- A character of code opens neither a string nor a block comment. -/
theorem ne_quote_of_literalLength (h : literalLength before (c :: s) = 0) :
    c ≠ '"' ∧ c ≠ '\'' ∧ ¬ (c = '/' ∧ s.head? = some '*') := by
  refine ⟨?_, ?_, ?_⟩
  · rintro rfl
    rw [literalLength] at h
    omega
  · rintro rfl
    rw [literalLength] at h
    omega
  · rintro ⟨rfl, hhead⟩
    obtain ⟨t, rfl⟩ := List.head?_eq_some_iff.1 hhead
    rw [literalLength] at h
    omega

/-- A literal is a string, or a comment. -/
theorem literal_cases (h : literalLength before s ≠ 0) :
    (∃ q t, (q = '"' ∨ q = '\'') ∧ s = q :: t ∧ literalLength before s = 1 + quotedLength q t) ∨
      ∃ c t, s = '/' :: c :: t ∧
        ((c = '*' ∧ literalLength before s = 2 + blockCommentLength t) ∨
          (c = '/' ∧ literalLength before s = 2 + lineCommentLength t)) := by
  unfold literalLength at h ⊢
  split at h
  · exact .inl ⟨_, _, .inl rfl, rfl, rfl⟩
  · exact .inl ⟨_, _, .inr rfl, rfl, rfl⟩
  · exact .inr ⟨_, _, rfl, .inl ⟨rfl, rfl⟩⟩
  · next s =>
    refine .inr ⟨_, s, rfl, .inr ⟨rfl, ?_⟩⟩
    split at h
    · exact absurd rfl h
    · next haddress => exact if_neg haddress
  · exact absurd rfl h

/-- No other character than a quote or a slash starts a literal. -/
theorem literalLength_eq_zero (before : Option Char) (s : List Char)
    (hc : c ≠ '"' ∧ c ≠ '\'' ∧ c ≠ '/') : literalLength before (c :: s) = 0 := by
  unfold literalLength
  split
  · next heq => exact absurd (List.cons.inj heq).1 hc.1
  · next heq => exact absurd (List.cons.inj heq).1 hc.2.1
  · next heq => exact absurd (List.cons.inj heq).1 hc.2.2
  · next heq => exact absurd (List.cons.inj heq).1 hc.2.2
  · rfl

/-- Whether a literal starts at `s`, and how long it is, does not depend on what is behind `s` if it
ends there. -/
theorem literalLength_of_append (h : literalLength before (s ++ t) ≤ s.length) :
    literalLength before s = literalLength before (s ++ t) := by
  rcases eq_or_ne (literalLength before (s ++ t)) 0 with hzero | hne
  · rw [hzero]
    by_contra hne
    rcases literal_cases hne with ⟨q, u, hq, rfl, -⟩ | ⟨c, u, rfl, ⟨rfl, -⟩ | ⟨rfl, -⟩⟩
    · rw [List.cons_append, literalLength_quote hq] at hzero
      omega
    · rw [List.cons_append, List.cons_append, literalLength_blockComment] at hzero
      omega
    · rw [literalLength_lineComment] at hne
      rw [List.cons_append, List.cons_append, literalLength_lineComment] at hzero
      split_ifs at hne hzero <;> omega
  · rcases literal_cases hne with ⟨q, u, hq, heq, hlength⟩ | ⟨c, u, heq, hcomment⟩
    · rcases s with _ | ⟨d, s⟩
      · exact absurd (Nat.le_zero.1 h) hne
      · rw [List.cons_append] at heq hlength ⊢
        obtain ⟨rfl, rfl⟩ := List.cons.inj heq
        rw [List.cons_append, hlength, List.length_cons] at h
        have hsame : quotedLength d s = quotedLength d (s ++ t) :=
          quotedLength_of_append (by omega)
        rw [hlength, literalLength_quote hq, hsame]
    · have hlong : 2 ≤ literalLength before (s ++ t) := by omega
      rcases s with _ | ⟨d, _ | ⟨e, s⟩⟩
      · exact absurd (Nat.le_zero.1 h) hne
      · rw [List.length_singleton] at h
        omega
      · rw [List.cons_append, List.cons_append] at h hne heq hcomment ⊢
        obtain ⟨rfl, htail⟩ := List.cons.inj heq
        obtain ⟨rfl, rfl⟩ := List.cons.inj htail
        rw [List.length_cons, List.length_cons] at h
        rcases hcomment with ⟨rfl, hlength⟩ | ⟨rfl, hlength⟩
        · rw [hlength] at h
          have hsame : blockCommentLength s = blockCommentLength (s ++ t) :=
            blockCommentLength_of_append (by omega)
          rw [hlength, literalLength_blockComment, hsame]
        · have haddress : opensAddress before ≠ true := fun haddress =>
            hne (if_pos haddress)
          rw [hlength] at h
          have hsame : lineCommentLength s = lineCommentLength (s ++ t) :=
            lineCommentLength_of_append (by omega)
          rw [hlength, literalLength_lineComment, if_neg haddress, hsame]

/-- A literal is not listed before what is skipped. -/
theorem le_start_of_mem (h : r ∈ literalRegionsFrom position before skip s) :
    position + skip ≤ r.start := by
  induction s generalizing position before skip with
  | nil => cases h
  | cons c s ih =>
      cases skip with
      | succ skip =>
          rw [literalRegionsFrom] at h
          have hle := ih h
          omega
      | zero =>
          rw [literalRegionsFrom] at h
          split at h
          · have hle := ih h
            omega
          · rcases List.mem_cons.1 h with rfl | h
            · exact Nat.le_refl _
            · have hle := ih h
              omega

theorem getLast?_cons_or (c : Char) (s : List Char) (before : Option Char) :
    (c :: s).getLast?.or before = s.getLast?.or (some c) := by
  rw [List.getLast?_cons]
  cases s.getLast? <;> rfl

theorem literalRegionsFrom_skip (position : Nat) (before : Option Char) (s t : List Char) :
    literalRegionsFrom position before s.length (s ++ t) =
      literalRegionsFrom (position + s.length) (s.getLast?.or before) 0 t := by
  induction s generalizing position before with
  | nil => rfl
  | cons c s ih =>
      rw [List.length_cons, List.cons_append, literalRegionsFrom, ih, getLast?_cons_or,
        Nat.add_assoc, Nat.add_comm 1]

theorem literalRegionsFrom_code (position : Nat) (h : literalLength before (c :: s) = 0) :
    literalRegionsFrom position before 0 (c :: s) =
      literalRegionsFrom (position + 1) (some c) 0 s := by
  rw [literalRegionsFrom]
  simp only [h]

theorem literalRegionsFrom_literal (position : Nat) (h : literalLength before s ≠ 0) :
    literalRegionsFrom position before 0 s =
      ⟨position, position + literalLength before s⟩ ::
        literalRegionsFrom (position + literalLength before s)
          (s.take (literalLength before s)).getLast? 0 (s.drop (literalLength before s)) := by
  cases s with
  | nil => exact absurd rfl h
  | cons c s =>
      obtain ⟨n, hn⟩ := Nat.exists_eq_succ_of_ne_zero h
      have hle := literalLength_le before (c :: s)
      rw [hn, List.length_cons, Nat.succ_eq_add_one, Nat.add_le_add_iff_right] at hle
      have hlength : (s.take n).length = n := List.length_take_of_le hle
      have hskip := literalRegionsFrom_skip (position + 1) (some c) (s.take n) (s.drop n)
      rw [List.take_append_drop, hlength] at hskip
      have hlast := getLast?_cons_or c (s.take n) none
      rw [Option.or_none] at hlast
      rw [literalRegionsFrom]
      simp only [hn, Nat.succ_eq_add_one]
      rw [hskip, List.take_succ_cons, List.drop_succ_cons, hlast, Nat.add_right_comm position 1 n]
      rfl

/-- Reading a text: at a literal it goes on behind it, and else behind the first character. -/
@[elab_as_elim]
theorem literal_induction {motive : Option Char → List Char → Prop}
    (nil : ∀ before, motive before [])
    (code : ∀ before c s, literalLength before (c :: s) = 0 → motive (some c) s →
      motive before (c :: s))
    (literal : ∀ before s, literalLength before s ≠ 0 →
      motive (s.take (literalLength before s)).getLast? (s.drop (literalLength before s)) →
      motive before s)
    (before : Option Char) (s : List Char) : motive before s := by
  induction hlength : s.length using Nat.strongRecOn generalizing before s with
  | ind n ih =>
      subst hlength
      rcases eq_or_ne (literalLength before s) 0 with hzero | hne
      · cases s with
        | nil => exact nil before
        | cons c s => exact code before c s hzero (ih _ (Nat.lt_succ_self _) _ _ rfl)
      · have hle := literalLength_le before s
        refine literal before s hne (ih _ ?_ _ _ rfl)
        rw [List.length_drop]
        omega

theorem pairwise_literalRegionsFrom (position : Nat) (before : Option Char) (s : List Char) :
    (literalRegionsFrom position before 0 s).Pairwise fun a b => a.stop ≤ b.start := by
  induction before, s using literal_induction generalizing position with
  | nil before => exact List.Pairwise.nil
  | code before c s hcode ih =>
      rw [literalRegionsFrom_code position hcode]
      exact ih (position + 1)
  | literal before s hliteral ih =>
      rw [literalRegionsFrom_literal position hliteral]
      refine List.pairwise_cons.2 ⟨fun r hr => ?_, ih _⟩
      have hle := le_start_of_mem hr
      rwa [Nat.add_zero] at hle

theorem start_lt_stop_of_mem (h : r ∈ literalRegionsFrom position before 0 s) :
    r.start < r.stop := by
  induction before, s using literal_induction generalizing position with
  | nil before => cases h
  | code before c s hcode ih =>
      rw [literalRegionsFrom_code position hcode] at h
      exact ih h
  | literal before s hliteral ih =>
      rw [literalRegionsFrom_literal position hliteral] at h
      rcases List.mem_cons.1 h with rfl | h
      · exact Nat.lt_add_of_pos_right (Nat.pos_of_ne_zero hliteral)
      · exact ih h

theorem stop_le_of_mem (h : r ∈ literalRegionsFrom position before 0 s) :
    r.stop ≤ position + s.length := by
  induction before, s using literal_induction generalizing position with
  | nil before => cases h
  | code before c s hcode ih =>
      rw [literalRegionsFrom_code position hcode] at h
      have hle := ih h
      rw [List.length_cons]
      omega
  | literal before s hliteral ih =>
      have hlength := literalLength_le before s
      rw [literalRegionsFrom_literal position hliteral] at h
      rcases List.mem_cons.1 h with rfl | h
      · exact Nat.add_le_add_left hlength position
      · have hle := ih h
        rw [List.length_drop] at hle
        omega

/-- A literal goes on from a text to the one behind it. -/
def Region.Crosses (r : Region) (border : Nat) : Prop := r.start < border ∧ border < r.stop

theorem literalLength_le_of_not_crosses (hs : s ≠ [])
    (h : ∀ r ∈ literalRegionsFrom position before 0 (s ++ t), ¬ r.Crosses (position + s.length)) :
    literalLength before (s ++ t) ≤ s.length := by
  rcases eq_or_ne (literalLength before (s ++ t)) 0 with hzero | hne
  · rw [hzero]
    exact Nat.zero_le _
  · have hpos := List.length_pos_of_ne_nil hs
    rw [literalRegionsFrom_literal position hne] at h
    have hcross := h _ List.mem_cons_self
    simp only [Region.Crosses] at hcross
    omega

/-- When no literal goes across, the literals of a text come first among those of the text and of
what is behind it. -/
theorem exists_literalRegionsFrom_append
    (h : ∀ r ∈ literalRegionsFrom position before 0 (s ++ t), ¬ r.Crosses (position + s.length)) :
    ∃ later, literalRegionsFrom position before 0 (s ++ t) =
        literalRegionsFrom position before 0 s ++ later ∧
      ∀ r ∈ later, position + s.length ≤ r.start := by
  induction before, s using literal_induction generalizing position with
  | nil before => exact ⟨_, rfl, fun r hr => le_start_of_mem hr⟩
  | code before c s hcode ih =>
      have heq := literalLength_of_append
        (literalLength_le_of_not_crosses (List.cons_ne_nil c s) h)
      rw [hcode, List.cons_append] at heq
      have hborder : position + 1 + s.length = position + (c :: s).length := by
        rw [List.length_cons]
        omega
      rw [List.cons_append, literalRegionsFrom_code position heq.symm] at h ⊢
      rw [literalRegionsFrom_code position hcode, ← hborder]
      exact ih (hborder ▸ h)
  | literal before s hliteral ih =>
      have hle := literalLength_le_of_not_crosses (by rintro rfl; exact hliteral rfl) h
      have heq := literalLength_of_append hle
      rw [← heq] at hle
      have hborder : position + literalLength before s + (s.drop (literalLength before s)).length =
          position + s.length := by
        rw [List.length_drop]
        omega
      rw [literalRegionsFrom_literal position (heq ▸ hliteral), ← heq,
        List.take_append_of_le_length hle, List.drop_append_of_le_length hle] at h ⊢
      rw [literalRegionsFrom_literal position hliteral, ← hborder]
      obtain ⟨later, hlater, hstart⟩ := ih (hborder ▸ fun r hr => h r (List.mem_cons_of_mem _ hr))
      exact ⟨later, by rw [hlater, List.cons_append], hstart⟩

/-- A position lies in one literal at most. -/
theorem eq_of_has {r' : Region} {p : Nat} (hr : r ∈ literalRegions s) (hr' : r' ∈ literalRegions s)
    (h : r.has p = true) (h' : r'.has p = true) : r = r' := by
  have hpairwise := pairwise_literalRegionsFrom 0 none s
  refine List.Pairwise.forall_of_forall_of_flip
    (R := fun a b => a.has p = true → b.has p = true → a = b) (fun _ _ _ _ => rfl)
    (hpairwise.imp fun {a b} hle ha hb => ?_) (hpairwise.imp fun {a b} hle hb ha => ?_) hr hr' h h'
  all_goals
    rw [Region.has_iff] at ha hb
    omega

theorem outside_append (regions : List Region) (position : Nat) (s t : List Char) :
    outside regions position (s ++ t) =
      outside regions position s ++ outside regions (position + s.length) t := by
  rw [outside, List.zipIdx_append, List.filter_append, List.map_append]
  rfl

/-- Only the positions of the text itself matter. -/
theorem outside_congr (h : ∀ p, position ≤ p → p < position + s.length →
    (regions.any fun r => r.has p) = regions'.any fun r => r.has p) :
    outside regions position s = outside regions' position s := by
  refine congrArg _ (List.filter_congr fun e he => ?_)
  obtain ⟨hle, hlt, -⟩ := List.mem_zipIdx he
  rw [h e.2 hle (by omega)]

/-- Regions behind a text do not matter to it. -/
theorem outside_append_later {later : List Region}
    (h : ∀ r ∈ later, position + s.length ≤ r.start) :
    outside (regions ++ later) position s = outside regions position s := by
  refine outside_congr fun p _ hp => ?_
  have hnone : later.any (fun r => r.has p) = false := by
    refine List.any_eq_false.2 fun r hr => ?_
    have hle := h r hr
    rw [Region.has_iff]
    omega
  rw [List.any_append, hnone, Bool.or_false]

/-- A character that lies in no region. -/
theorem outside_cons (h : ∀ r ∈ regions, r.has position = false) :
    outside regions position (c :: s) = c :: outside regions (position + 1) s := by
  have hfree : regions.any (fun r => r.has position) = false :=
    List.any_eq_false.2 fun r hr => Bool.eq_false_iff.1 (h r hr)
  rw [outside, List.zipIdx_cons, List.filter_cons_of_pos (by rw [hfree]; rfl)]
  rfl

/-- A text of which no character lies in a region. -/
theorem outside_eq_self (h : ∀ r ∈ regions, ∀ p, position ≤ p → p < position + s.length →
    r.has p = false) : outside regions position s = s := by
  induction s generalizing position with
  | nil => rfl
  | cons c s ih =>
      rw [List.length_cons] at h
      rw [outside_cons fun r hr => h r hr position (Nat.le_refl _) (by omega),
        ih fun r hr p hle hlt => h r hr p (by omega) (by omega)]

/-- A text that lies in a region as a whole. -/
theorem outside_eq_nil (hr : r ∈ regions)
    (h : ∀ p, position ≤ p → p < position + s.length → r.has p = true) :
    outside regions position s = [] := by
  rw [outside, List.map_eq_nil_iff, List.filter_eq_nil_iff]
  intro e he
  obtain ⟨hle, hlt, -⟩ := List.mem_zipIdx he
  have hany : regions.any (fun r => r.has e.2) = true :=
    List.any_eq_true.2 ⟨r, hr, h e.2 hle (by omega)⟩
  rw [hany]
  decide

theorem codeFrom_code (position : Nat) (h : literalLength before (c :: s) = 0) :
    codeFrom position before (c :: s) = c :: codeFrom (position + 1) (some c) s := by
  rw [codeFrom, literalRegionsFrom_code position h, outside_cons]
  · rfl
  · intro r hr
    have hle := le_start_of_mem hr
    rw [Bool.eq_false_iff, Ne, Region.has_iff]
    omega

theorem codeFrom_literal (position : Nat) (h : literalLength before s ≠ 0) :
    codeFrom position before s =
      codeFrom (position + literalLength before s) (s.take (literalLength before s)).getLast?
        (s.drop (literalLength before s)) := by
  have hlength : (s.take (literalLength before s)).length = literalLength before s :=
    List.length_take_of_le (literalLength_le before s)
  have hinside : outside (literalRegionsFrom position before 0 s) position
      (s.take (literalLength before s)) = [] := by
    rw [literalRegionsFrom_literal position h]
    exact outside_eq_nil List.mem_cons_self fun p hle hlt =>
      (Region.has_iff _ _).2 ⟨hle, by rwa [hlength] at hlt⟩
  conv_lhs => rw [codeFrom, ← List.take_append_drop (literalLength before s) s, outside_append,
    List.take_append_drop, hinside, hlength, List.nil_append]
  refine outside_congr fun p hp _ => ?_
  have hbehind : Region.has ⟨position, position + literalLength before s⟩ p = false := by
    rw [Bool.eq_false_iff, Ne, Region.has_iff]
    exact fun hhas => Nat.lt_irrefl _ (Nat.lt_of_lt_of_le hhas.2 hp)
  rw [literalRegionsFrom_literal position h, List.any_cons, hbehind, Bool.false_or]

/-- `s` is what is left of a text behind `front`, and no literal is open there. -/
structure Remains (source front : List Char) (before : Option Char) (s : List Char) : Prop where
  text : source = front ++ s
  regions : ∃ earlier,
    literalRegions source = earlier ++ literalRegionsFrom front.length before 0 s ∧
      ∀ r ∈ earlier, r.stop ≤ front.length

namespace Remains

variable {source front : List Char}

theorem start (source : List Char) : Remains source [] none source :=
  ⟨rfl, [], rfl, fun _ h => absurd h List.not_mem_nil⟩

theorem code (h : Remains source front before (c :: s))
    (hcode : literalLength before (c :: s) = 0) : Remains source (front ++ [c]) (some c) s := by
  obtain ⟨earlier, hregions, hstop⟩ := h.regions
  refine ⟨by rw [h.text, List.append_cons], earlier, ?_, fun r hr => ?_⟩
  · rw [hregions, literalRegionsFrom_code _ hcode, List.length_append]
    rfl
  · rw [List.length_append]
    exact Nat.le_add_right_of_le (hstop r hr)

theorem literal (h : Remains source front before s) (hliteral : literalLength before s ≠ 0) :
    Remains source (front ++ s.take (literalLength before s))
      (s.take (literalLength before s)).getLast? (s.drop (literalLength before s)) := by
  have hlength : (front ++ s.take (literalLength before s)).length =
      front.length + literalLength before s := by
    rw [List.length_append, List.length_take_of_le (literalLength_le before s)]
  obtain ⟨earlier, hregions, hstop⟩ := h.regions
  refine ⟨?_, earlier ++ [⟨front.length, front.length + literalLength before s⟩], ?_, ?_⟩
  · rw [List.append_assoc, List.take_append_drop, h.text]
  · rw [hregions, literalRegionsFrom_literal _ hliteral, hlength, List.append_cons]
  · intro r hr
    rw [hlength]
    rcases List.mem_append.1 hr with hr | hr
    · exact Nat.le_add_right_of_le (hstop r hr)
    · exact Nat.le_of_eq (by rw [List.mem_singleton.1 hr])

/-- The first character lies in no literal when none starts there. -/
theorem has_eq_false (h : Remains source front before (c :: s))
    (hcode : literalLength before (c :: s) = 0) :
    ∀ r ∈ literalRegions source, r.has front.length = false := by
  obtain ⟨earlier, hregions, hstop⟩ := h.regions
  intro r hr
  rw [Bool.eq_false_iff, Ne, Region.has_iff]
  rw [hregions, literalRegionsFrom_code _ hcode] at hr
  rcases List.mem_append.1 hr with hr | hr
  · have hle := hstop r hr
    omega
  · have hle := le_start_of_mem hr
    omega

/-- No literal that starts in front is still open. -/
theorem not_inside (h : Remains source front before s) (hr : r ∈ literalRegions source) :
    ¬ (r.start < front.length ∧ front.length < r.stop) := by
  obtain ⟨earlier, hregions, hstop⟩ := h.regions
  rw [hregions] at hr
  rcases List.mem_append.1 hr with hr | hr
  · have hle := hstop r hr
    omega
  · have hle := le_start_of_mem hr
    omega

theorem outside_code (h : Remains source front before (c :: s))
    (hcode : literalLength before (c :: s) = 0) :
    outside (literalRegions source) front.length [c] = [c] :=
  outside_cons (h.has_eq_false hcode)

theorem mem_literalRegions (h : Remains source front before s)
    (hliteral : literalLength before s ≠ 0) :
    ⟨front.length, front.length + literalLength before s⟩ ∈ literalRegions source := by
  obtain ⟨earlier, hregions, -⟩ := h.regions
  rw [hregions, literalRegionsFrom_literal _ hliteral]
  exact List.mem_append_right _ List.mem_cons_self

theorem outside_literal (h : Remains source front before s)
    (hliteral : literalLength before s ≠ 0) :
    outside (literalRegions source) front.length (s.take (literalLength before s)) = [] := by
  refine outside_eq_nil (h.mem_literalRegions hliteral) fun p hle hlt => ?_
  rw [List.length_take_of_le (literalLength_le before s)] at hlt
  exact (Region.has_iff _ _).2 ⟨hle, hlt⟩

theorem getElem? (h : Remains source front before s) (i : Nat) :
    source[front.length + i]? = s[i]? := by
  rw [h.text, List.getElem?_append_right (Nat.le_add_right _ _), Nat.add_sub_cancel_left]

/-- Where a literal with a line feed is a comment, another literal that starts in a text has none
there. -/
theorem newline_notMem (h : Remains source front before (s ++ t))
    (hcomment : ∀ r ∈ literalRegions source, ∀ p < front.length + s.length, r.has p = true →
      source[p]? = some '\n' → source[r.start]? = some '/')
    (hliteral : literalLength before (s ++ t) ≠ 0) (hhead : (s ++ t).head? ≠ some '/') :
    '\n' ∉ s.take (literalLength before (s ++ t)) := by
  intro hmem
  obtain ⟨i, hi, hchar⟩ := List.mem_iff_getElem.1 hmem
  rw [List.length_take, Nat.lt_min] at hi
  rw [List.getElem_take] at hchar
  have hnewline : source[front.length + i]? = some '\n' := by
    rw [h.getElem?, List.getElem?_append_left hi.2, List.getElem?_eq_getElem hi.2, hchar]
  have hstart := hcomment _ (h.mem_literalRegions hliteral) (front.length + i) (by omega)
    ((Region.has_iff _ _).2 ⟨Nat.le_add_right _ _, Nat.add_lt_add_left hi.1 _⟩) hnewline
  have hfirst := h.getElem? 0
  rw [← List.head?_eq_getElem?] at hfirst
  exact hhead (hfirst.symm.trans hstart)

/-- Behind characters that start no literal, none is open. -/
theorem append (h : Remains source front before (t ++ s))
    (ht : ∀ c ∈ t, c ≠ '"' ∧ c ≠ '\'' ∧ c ≠ '/') :
    ∃ before', Remains source (front ++ t) before' s := by
  induction t generalizing front before with
  | nil =>
      rw [List.append_nil]
      exact ⟨before, h⟩
  | cons c t ih =>
      obtain ⟨hc, ht⟩ := List.forall_mem_cons.1 ht
      rw [List.append_cons]
      exact ih (h.code (literalLength_eq_zero before (t ++ s) hc)) ht

/-- At a position that lies in no literal, none is open. -/
theorem of_outside (h : Remains source front before s) {n : Nat} (hn : n ≤ s.length)
    (houtside : ∀ r ∈ literalRegions source, r.has (front.length + n) = false) :
    ∃ before', Remains source (front ++ s.take n) before' (s.drop n) := by
  induction before, s using literal_induction generalizing front n with
  | nil before =>
      rw [Nat.le_zero.1 hn, List.take_zero, List.append_nil]
      exact ⟨before, h⟩
  | code before c s hcode ih =>
      cases n with
      | zero =>
          rw [List.take_zero, List.append_nil]
          exact ⟨before, h⟩
      | succ n =>
          rw [List.take_succ_cons, List.append_cons, List.drop_succ_cons]
          refine ih (h.code hcode) (Nat.le_of_succ_le_succ hn) ?_
          rwa [List.length_append, List.length_singleton, Nat.add_assoc, Nat.add_comm 1]
  | literal before s hliteral ih =>
      rcases Nat.lt_or_ge n (literalLength before s) with hlt | hge
      · have hfree := houtside _ (h.mem_literalRegions hliteral)
        rw [Bool.eq_false_iff, Ne, Region.has_iff] at hfree
        exact absurd ⟨Nat.le_add_right _ _, Nat.add_lt_add_left hlt _⟩ hfree
      · obtain ⟨m, rfl⟩ := Nat.exists_eq_add_of_le hge
        have hlength : (s.take (literalLength before s)).length = literalLength before s :=
          List.length_take_of_le (literalLength_le before s)
        rw [List.take_add, ← List.append_assoc, ← List.drop_drop]
        refine ih (h.literal hliteral) ?_ ?_
        · rw [List.length_drop]
          omega
        · rwa [List.length_append, hlength, Nat.add_assoc]

end Remains

end StyleBuild.Substitution
