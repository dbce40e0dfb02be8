import StyleBuild.Proofs.Substitution.Literals

/-!
# Literals that end in their line

A string is closed by its quote and a block comment by its closing; a line comment
is closed by the end of the line. What is behind a closed literal does not matter
to it. So when the literals of a line are closed, the literals of the line and of
a text behind it are those of each of them (`literalRegions_newline`).
-/

namespace StyleBuild.Substitution

variable {s : List Char} {last : Option Char} {position : Nat} {q : Char}

/-- The string behind an opening quote has a closing one. -/
def closesQuoted (quote : Char) : List Char → Bool
  | [] => false
  | '\\' :: [] => false
  | '\\' :: _ :: s => closesQuoted quote s
  | c :: s => c = quote || closesQuoted quote s

/-- The literal that starts here is closed. A line comment ends at the end of the text, too. -/
def IsClosed : List Char → Prop
  | [] => True
  | '/' :: '*' :: s => "*/".toList <:+: s
  | '/' :: _ => True
  | quote :: s => closesQuoted quote s = true

theorem closesQuoted_cons {c : Char} (hc : c ≠ '\\') (q : Char) (s : List Char) :
    closesQuoted q (c :: s) = (c = q || closesQuoted q s) := by
  rw [closesQuoted]
  · exact fun h => absurd h hc
  · exact fun _ _ h => absurd h hc

/-- What is behind a closed string does not matter. -/
theorem quotedLength_append (h : closesQuoted q s = true) (t : List Char) :
    quotedLength q (s ++ t) = quotedLength q s := by
  induction s using quoted_induction (q := q) with
  | nil => cases h
  | backslash => cases h
  | escape c s ih =>
      rw [List.cons_append, List.cons_append, quotedLength_escape, quotedLength_escape, ih h]
  | quote s hq => rw [List.cons_append, quotedLength_quote hq, quotedLength_quote hq]
  | other c s hc hne ih =>
      rw [closesQuoted_cons hc, decide_eq_false hne, Bool.false_or] at h
      rw [List.cons_append, quotedLength_other hc hne, quotedLength_other hc hne, ih h]

/-- What is behind a closed block comment does not matter. -/
theorem blockCommentLength_append (h : "*/".toList <:+: s) (t : List Char) :
    blockCommentLength (s ++ t) = blockCommentLength s := by
  fun_induction blockCommentLength s with
  | case1 => exact absurd (List.infix_nil.1 h) (by decide)
  | case2 => rfl
  | case3 c s hopen ih =>
      have hs : "*/".toList <:+: s := by
        refine (List.infix_cons_iff.1 h).resolve_left fun hprefix => ?_
        obtain ⟨hc, u, hu⟩ := List.cons_prefix_cons.1 hprefix
        exact hopen u hc.symm hu.symm
      have hhead : (s ++ t).head? = s.head? := by
        rw [List.head?_append_of_ne_nil]
        rintro rfl
        exact absurd (List.infix_nil.1 hs) (by decide)
      have hcons : ¬ (c = '*' ∧ (s ++ t).head? = some '/') := by
        rw [hhead]
        rintro ⟨rfl, hslash⟩
        obtain ⟨u, rfl⟩ := List.head?_eq_some_iff.1 hslash
        exact hopen u rfl rfl
      rw [List.cons_append, blockCommentLength_cons hcons, ih hs]

/-- A line comment does not go beyond its line. -/
theorem lineCommentLength_newline (s t : List Char) :
    lineCommentLength (s ++ '\n' :: t) = lineCommentLength s := by
  induction s with
  | nil => rfl
  | cons c s ih =>
      unfold lineCommentLength at ih ⊢
      rw [List.cons_append, List.takeWhile_cons, List.takeWhile_cons]
      split
      · rw [List.length_cons, List.length_cons, ih]
      · rfl

/-- A literal that is closed when there is one does not go beyond its line. -/
theorem literalLength_newline (hs : s ≠ []) (hclosed : literalLength last s ≠ 0 → IsClosed s)
    (t : List Char) : literalLength last (s ++ '\n' :: t) = literalLength last s := by
  refine (literalLength_of_append ?_).symm
  rcases eq_or_ne (literalLength last (s ++ '\n' :: t)) 0 with hzero | hne
  · rw [hzero]
    exact Nat.zero_le _
  · obtain ⟨c, s, rfl⟩ := List.exists_cons_of_ne_nil hs
    rcases literal_cases hne with ⟨q, u, hq, htext, hlength⟩ | ⟨d, u, htext, hcomment⟩
    · obtain ⟨rfl, htail⟩ := List.cons.inj htext
      have hstring : closesQuoted c s = true := by
        have hthis := hclosed (by rw [literalLength_quote hq]; omega)
        rcases hq with rfl | rfl <;> exact hthis
      have hle := quotedLength_le c s
      rw [hlength, ← show s ++ '\n' :: t = u from htail, quotedLength_append hstring,
        List.length_cons]
      omega
    · rw [List.cons_append] at htext
      obtain ⟨rfl, htail⟩ := List.cons.inj htext
      rcases s with _ | ⟨e, s⟩
      · obtain ⟨rfl, -⟩ := List.cons.inj htail
        rcases hcomment with ⟨hd, -⟩ | ⟨hd, -⟩ <;> exact absurd hd (by decide)
      · rw [List.cons_append] at htail
        obtain ⟨rfl, hu⟩ := List.cons.inj htail
        rw [List.length_cons, List.length_cons]
        rcases hcomment with ⟨rfl, hlength⟩ | ⟨rfl, hlength⟩
        · have hblock : "*/".toList <:+: s :=
            hclosed (by rw [literalLength_blockComment]; omega)
          have hle := blockCommentLength_le s
          rw [hlength, ← hu, blockCommentLength_append hblock]
          omega
        · have hle := lineCommentLength_le s
          rw [hlength, ← hu, lineCommentLength_newline]
          omega

/-- The region of a text that comes behind `k` more characters. -/
def Region.shift (k : Nat) (r : Region) : Region := ⟨r.start + k, r.stop + k⟩

theorem Region.has_shift (k : Nat) (r : Region) (position : Nat) :
    (r.shift k).has (position + k) = r.has position := by
  rw [Bool.eq_iff_iff, has_iff, has_iff]
  simp only [shift]
  omega

theorem literalRegionsFrom_shift (k position : Nat) (last : Option Char) (skip : Nat)
    (s : List Char) : literalRegionsFrom (position + k) last skip s =
      (literalRegionsFrom position last skip s).map (Region.shift k) := by
  induction s generalizing position last skip with
  | nil => rfl
  | cons c s ih =>
      have hnext : ∀ skip, literalRegionsFrom (position + k + 1) (some c) skip s =
          (literalRegionsFrom (position + 1) (some c) skip s).map (Region.shift k) :=
        fun skip => by rw [Nat.add_right_comm, ih]
      cases skip with
      | succ skip =>
          rw [literalRegionsFrom, literalRegionsFrom]
          exact hnext skip
      | zero =>
          rw [literalRegionsFrom, literalRegionsFrom]
          cases literalLength last (c :: s) with
          | zero => exact hnext 0
          | succ n =>
              refine List.cons_eq_cons.2 ⟨?_, hnext n⟩
              simp only [Region.shift, Region.mk.injEq, true_and]
              omega

/-- Behind a line feed, literals start as at the start of a text. -/
theorem literalRegionsFrom_some_newline (position : Nat) (s : List Char) :
    literalRegionsFrom position (some '\n') 0 s = literalRegionsFrom position none 0 s := by
  have hlength : ∀ s, literalLength (some '\n') s = literalLength none s := by
    intro s
    unfold literalLength
    rfl
  cases s with
  | nil => rfl
  | cons c s => rw [literalRegionsFrom, literalRegionsFrom, hlength]

theorem literalRegionsFrom_newline (t : List Char)
    (hclosed : ∀ r ∈ literalRegionsFrom position last 0 s, IsClosed (s.drop (r.start - position))) :
    literalRegionsFrom position last 0 (s ++ '\n' :: t) =
      literalRegionsFrom position last 0 s ++
        literalRegionsFrom (position + s.length + 1) (some '\n') 0 t := by
  induction last, s using literal_induction generalizing position with
  | nil last =>
      exact literalRegionsFrom_code position (literalLength_eq_zero last t (by decide))
  | code last c s hcode ih =>
      have hsame := literalLength_newline (List.cons_ne_nil c s) (fun h => absurd hcode h) t
      rw [hcode, List.cons_append] at hsame
      rw [List.cons_append, literalRegionsFrom_code position hsame,
        literalRegionsFrom_code position hcode, ih, List.length_cons, Nat.add_right_comm position 1,
        Nat.add_assoc position]
      intro r hr
      have hr' := hclosed r (by rwa [literalRegionsFrom_code position hcode])
      have hle := le_start_of_mem hr
      rwa [show r.start - position = r.start - (position + 1) + 1 by omega, List.drop_succ_cons]
        at hr'
  | literal last s hliteral ih =>
      rw [literalRegionsFrom_literal position hliteral] at hclosed ⊢
      obtain ⟨hfirst, hlater⟩ := List.forall_mem_cons.1 hclosed
      rw [Nat.sub_self, List.drop_zero] at hfirst
      have hne : s ≠ [] := by
        rintro rfl
        exact hliteral rfl
      have hle := literalLength_le last s
      have hsame : literalLength last (s ++ '\n' :: t) = literalLength last s :=
        literalLength_newline hne (fun _ => hfirst) t
      rw [literalRegionsFrom_literal position (hsame ▸ hliteral), hsame,
        List.take_append_of_le_length hle, List.drop_append_of_le_length hle, ih,
        List.length_drop, List.cons_append, Nat.add_assoc position, Nat.add_sub_cancel' hle]
      intro r hr
      have hle' := le_start_of_mem hr
      have hr' := hlater r hr
      rwa [List.drop_drop,
        show literalLength last s + (r.start - (position + literalLength last s)) =
          r.start - position by omega]

/-- The literals of two lines, when those of the first one are closed. -/
theorem literalRegions_newline (hclosed : ∀ r ∈ literalRegions s, IsClosed (s.drop r.start))
    (t : List Char) : literalRegions (s ++ '\n' :: t) =
      literalRegions s ++ (literalRegions t).map (Region.shift (s.length + 1)) := by
  rw [literalRegions, literalRegionsFrom_newline t hclosed, literalRegionsFrom_some_newline,
    Nat.add_assoc, literalRegionsFrom_shift]
  rfl

end StyleBuild.Substitution
