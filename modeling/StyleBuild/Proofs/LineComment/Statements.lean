import StyleBuild.Proofs.LineComment.Depth
import StyleBuild.Proofs.LineComment.Placement

/-!
# Line comments and statements

Where every literal ends on its line and no two slashes occur, it can be said of
the text above a line what the reading line by line makes of it: how many braces
and parentheses are open, and whether the last character that shows outside
comments is a comma (`betweenStatements_iff`). A line gets a comment when
nothing is open and there is no comma (`mem_ruleLines_iff`).

So a comma is the only sign that a statement goes on. Above a line with a comment
a statement has ended when the code above does not break off behind anything
else (`annotate_between_statements`); a declaration that goes on behind its
first value is interrupted (`comments_inside_statements`).
-/

namespace StyleBuild.LineComment

open Text Substitution

/-- The text above the line with this number, of which the first one has the number one. -/
def above (s : List Char) (number : Nat) : List Char := ((keptLines s).take (number - 1)).flatten

/-- The comments among the literals of a text. -/
def commentRegions (s : List Char) : List Region :=
  (literalRegions s).filter fun r => s[r.start]? = some '/'

/-- The last character of a text that is not blank. -/
def lastShown (s : List Char) : Option Char := (s.filter fun c => !isBlank c).getLast?

/-- No two slashes occur, and every literal ends on the line on which it starts. -/
structure ClosedOnLine (s : List Char) : Prop where
  slashes : ∀ p < s.length, s[p]? = some '/' → s[p + 1]? ≠ some '/'
  regions : ∀ r ∈ literalRegions s, ∀ p < s.length, r.has p = true → s[p]? ≠ some '\n'

instance (s : List Char) : Decidable (ClosedOnLine s) :=
  decidable_of_iff (_ ∧ _) ⟨fun h => ⟨h.1, h.2⟩, fun h => ⟨h.slashes, h.regions⟩⟩

/-- A text is made up of whole lines. -/
def EndsLine (s : List Char) : Prop := s ≠ [] → s.getLast? = some '\n'

/-- Above the line with this number no brace or parenthesis is open, and the last character that
shows is no comma. -/
structure BetweenStatements (s : List Char) (number : Nat) : Prop where
  braces : depth '{' '}' (outside (literalRegions s) 0 (above s number)) = 0
  parens : depth '(' ')' (outside (literalRegions s) 0 (above s number)) = 0
  comma : lastShown (outside (commentRegions s) 0 (above s number)) ≠ some ','

variable {source front s t : List Char} {before last last' : Option Char} {c q : Char}
  {n n' : Nesting} {N : Nat}

theorem lastShown_append (s t : List Char) :
    lastShown (s ++ t) = (lastShown t).or (lastShown s) := by
  rw [lastShown, List.filter_append, List.getLast?_append]
  rfl

theorem lastShown_cons (c : Char) (s : List Char) :
    lastShown (c :: s) = (lastShown s).or (if isBlank c then none else some c) := by
  rw [← List.singleton_append, lastShown_append]
  cases hc : isBlank c <;> simp [lastShown, hc]

theorem lastShown_of_getLast? (h : s.getLast? = some c) (hc : isBlank c = false) :
    lastShown s = some c := by
  obtain ⟨t, rfl⟩ := List.getLast?_eq_some_iff.1 h
  rw [lastShown_append, lastShown_cons, hc]
  rfl

namespace EndsLine

theorem tail (h : EndsLine (c :: s)) : EndsLine s := fun hs =>
  (List.getLast?_append_of_ne_nil [c] hs).symm.trans (h (List.cons_ne_nil c s))

theorem drop (h : EndsLine s) (k : Nat) : EndsLine (s.drop k) := by
  intro hs
  have hcut := List.getLast?_append_of_ne_nil (s.take k) hs
  rw [List.take_append_drop] at hcut
  refine hcut.symm.trans (h ?_)
  rintro rfl
  exact hs List.drop_nil

/-- What has no line feed does not reach to the end. -/
theorem lt_length (h : EndsLine s) (hs : s ≠ []) {k : Nat} (hfree : '\n' ∉ s.take k) :
    k < s.length := by
  by_contra hle
  rw [List.take_of_length_le (Nat.le_of_not_lt hle)] at hfree
  exact hfree (List.mem_of_getLast? (h hs))

end EndsLine

/-! ### Literals that end on their lines -/

theorem getLast?_take_quotedLength (h : quotedLength q s < s.length) :
    (s.take (quotedLength q s)).getLast? = some q := by
  induction s using quoted_induction (q := q) with
  | nil => exact absurd h (Nat.lt_irrefl 0)
  | backslash => exact absurd h (Nat.lt_irrefl 1)
  | escape c s ih =>
      rw [quotedLength_escape, List.length_cons, List.length_cons] at h
      rw [quotedLength_escape, Nat.add_comm, List.take_succ_cons, List.take_succ_cons,
        List.getLast?_cons, List.getLast?_cons, ih (by omega)]
      rfl
  | quote s hq =>
      rw [quotedLength_quote hq]
      rfl
  | other c s hc hne ih =>
      rw [quotedLength_other hc hne, List.length_cons] at h
      rw [quotedLength_other hc hne, Nat.add_comm, List.take_succ_cons, List.getLast?_cons,
        ih (by omega)]
      rfl

/-- A string that is closed ends with its quote. -/
theorem lastShown_take_literal (hliteral : literalLength before s ≠ 0)
    (hlt : literalLength before s < s.length) (hhead : s.head? ≠ some '/') :
    ∃ q, (q = '"' ∨ q = '\'') ∧ s.head? = some q ∧
      lastShown (s.take (literalLength before s)) = some q := by
  rcases literal_cases hliteral with ⟨q, t, hq, rfl, hlength⟩ | ⟨c, t, rfl, -⟩
  · rw [hlength, List.length_cons, Nat.add_comm, Nat.add_lt_add_iff_right] at hlt
    refine ⟨q, hq, rfl, lastShown_of_getLast? (c := q) ?_ (by rcases hq with rfl | rfl <;> decide)⟩
    rw [hlength, Nat.add_comm, List.take_succ_cons, List.getLast?_cons,
      getLast?_take_quotedLength hlt]
    rfl
  · exact absurd rfl hhead

theorem outside_comments_code (h : Remains source front before (c :: s))
    (hcode : literalLength before (c :: s) = 0) :
    outside (commentRegions source) front.length (c :: s) =
      c :: outside (commentRegions source) (front ++ [c]).length s := by
  rw [List.length_append]
  exact outside_cons fun r hr => h.has_eq_false hcode r (List.mem_of_mem_filter hr)

theorem outside_comments_literal (h : Remains source front before s)
    (hliteral : literalLength before s ≠ 0) :
    outside (commentRegions source) front.length s =
      (if s.head? = some '/' then [] else s.take (literalLength before s)) ++
        outside (commentRegions source) (front ++ s.take (literalLength before s)).length
          (s.drop (literalLength before s)) := by
  have hlength : (s.take (literalLength before s)).length = literalLength before s :=
    List.length_take_of_le (literalLength_le before s)
  have hmem := h.mem_literalRegions hliteral
  have hstart : source[front.length]? = s.head? := by
    rw [List.head?_eq_getElem?]
    exact h.getElem? 0
  have hhas : ∀ p, front.length ≤ p → p < front.length + (s.take (literalLength before s)).length →
      Region.has ⟨front.length, front.length + literalLength before s⟩ p = true := fun p hle hlt =>
    (Region.has_iff _ _).2 ⟨hle, by rwa [hlength] at hlt⟩
  conv_lhs => rw [← List.take_append_drop (literalLength before s) s, outside_append]
  rw [List.length_append]
  refine congrArg (· ++ _) ?_
  split
  · next hhead =>
    exact outside_eq_nil (List.mem_filter.2 ⟨hmem, decide_eq_true (hstart.trans hhead)⟩) hhas
  · next hhead =>
    -- a comment with one of these positions would be the string
    refine outside_eq_self fun r hr p hle hlt => Bool.eq_false_iff.2 fun hr' => hhead ?_
    obtain ⟨hr, hslash⟩ := List.mem_filter.1 hr
    rw [eq_of_has hr hmem hr' (hhas p hle hlt), decide_eq_true_eq, hstart] at hslash
    exact hslash

namespace ClosedOnLine

theorem lineByLine (h : ClosedOnLine s) : LineByLine s := by
  constructor
  · intro p hp hfirst hsecond
    exact absurd hsecond (h.slashes p hp hfirst)
  · intro r hr p hp hhas hnewline
    exact absurd hnewline (h.regions r hr p hp hhas)

theorem newline_notMem (h : ClosedOnLine source) (hremains : Remains source front before s)
    (hliteral : literalLength before s ≠ 0) : '\n' ∉ s.take (literalLength before s) := by
  intro hmem
  obtain ⟨i, hi, hchar⟩ := List.mem_iff_getElem.1 hmem
  rw [List.length_take, Nat.lt_min] at hi
  rw [List.getElem_take] at hchar
  have hnewline : source[front.length + i]? = some '\n' := by
    rw [hremains.getElem?, List.getElem?_eq_getElem hi.2, hchar]
  obtain ⟨hlt, -⟩ := List.getElem?_eq_some_iff.1 hnewline
  exact h.regions _ (hremains.mem_literalRegions hliteral) _ hlt
    ((Region.has_iff _ _).2 ⟨Nat.le_add_right _ _, Nat.add_lt_add_left hi.1 _⟩) hnewline

/-- A literal does not reach to the end of the lines. -/
theorem literalLength_lt (h : ClosedOnLine source) (hremains : Remains source front before s)
    (hend : EndsLine s) (hliteral : literalLength before s ≠ 0) :
    literalLength before s < s.length :=
  hend.lt_length (by rintro rfl; exact hliteral rfl) (h.newline_notMem hremains hliteral)

/-- Reading on over whole lines leaves no comment open, and remembers the last character that shows
outside comments. -/
theorem scanFrom (h : ClosedOnLine source) (hremains : Remains source front before s)
    (hend : EndsLine s) (hout : n.inComment = false) (last : Option Char) :
    (n.scanFrom none last false s).inComment = false ∧
      (n.scanFrom none last false s).atStart =
        n.startsNext ((lastShown (outside (commentRegions source) front.length s)).or last) := by
  -- `last` is what counts so far on the line that is read; a line feed keeps it in the nesting
  induction before, s using literal_induction generalizing front n last with
  | nil before => exact ⟨(Nesting.inComment_close n last).trans hout, rfl⟩
  | code before c s hcode ih =>
      obtain ⟨n', last', -, hstart, hout', hscan⟩ :=
        Nesting.scanFrom_code hout last (ne_quote_of_literalLength hcode)
          (h.lineByLine.not_slashes hremains hcode)
      obtain ⟨hin, hat⟩ := ih (hremains.code hcode) hend.tail hout' last'
      rw [hscan]
      refine ⟨hin, hat.trans ?_⟩
      rw [Nesting.startsNext_or hstart, outside_comments_code hremains hcode, lastShown_cons,
        Option.or_assoc]
      cases isBlank c <;> rfl
  | literal before s hliteral ih =>
      have hlt := h.literalLength_lt hremains hend hliteral
      obtain ⟨n', last', -, hstart, hclosed, hscan⟩ :=
        Nesting.scanFrom_literal hout last hliteral fun _ => h.newline_notMem hremains hliteral
      have hrest : s.drop (literalLength before s) ≠ [] := by
        rw [Ne, List.drop_eq_nil_iff]
        omega
      obtain ⟨hin, hat⟩ :=
        ih (hremains.literal hliteral) (hend.drop _) (hclosed.resolve_right hrest) last'
      rw [hscan]
      refine ⟨hin, hat.trans ?_⟩
      rw [Nesting.startsNext_or (hstart hlt), outside_comments_literal hremains hliteral,
        lastShown_append, Option.or_assoc, Nesting.lastBehind]
      split
      · rfl
      · next hhead =>
        obtain ⟨q, -, hq, hshown⟩ := lastShown_take_literal hliteral hlt hhead
        rw [hshown, hq]
        rfl

/-- The last character that shows outside comments is the last one of code, or the quote of a
string. -/
theorem lastShown_code (h : ClosedOnLine source) (hremains : Remains source front before s)
    (hend : EndsLine s) :
    lastShown (outside (literalRegions source) front.length s) =
        lastShown (outside (commentRegions source) front.length s) ∨
      ∃ q, (q = '"' ∨ q = '\'') ∧
        lastShown (outside (commentRegions source) front.length s) = some q := by
  induction before, s using literal_induction generalizing front with
  | nil before => exact Or.inl rfl
  | code before c s hcode ih =>
      have hrest := ih (hremains.code hcode) hend.tail
      have hposition : front.length + 1 = (front ++ [c]).length := by
        rw [List.length_append, List.length_singleton]
      rw [outside_cons (hremains.has_eq_false hcode), hposition,
        outside_comments_code hremains hcode, lastShown_cons, lastShown_cons]
      rcases hrest with heq | ⟨q, hq, hshown⟩
      · rw [heq]
        exact Or.inl rfl
      · rw [hshown]
        exact Or.inr ⟨q, hq, rfl⟩
  | literal before s hliteral ih =>
      have hrest := ih (hremains.literal hliteral) (hend.drop _)
      have hcode : outside (literalRegions source) front.length s =
          outside (literalRegions source) (front ++ s.take (literalLength before s)).length
            (s.drop (literalLength before s)) := by
        conv_lhs => rw [← List.take_append_drop (literalLength before s) s, outside_append,
          hremains.outside_literal hliteral, List.nil_append, ← List.length_append]
      rw [hcode, outside_comments_literal hremains hliteral, lastShown_append]
      rcases hrest with heq | ⟨q, hq, hshown⟩
      · rw [heq]
        split
        · exact Or.inl (Option.or_none).symm
        · next hhead =>
          obtain ⟨q, hq, -, hshown⟩ := lastShown_take_literal hliteral
            (h.literalLength_lt hremains hend hliteral) hhead
          cases hlast : lastShown (outside (commentRegions source)
              (front ++ s.take (literalLength before s)).length
              (s.drop (literalLength before s))) with
          | none => exact Or.inr ⟨q, hq, hshown⟩
          | some c => exact Or.inl rfl
      · rw [hshown]
        exact Or.inr ⟨q, hq, rfl⟩

/-! ### The text above a line -/

theorem not_crosses (h : ClosedOnLine (s ++ t)) (hend : EndsLine s) :
    ∀ r ∈ literalRegions (s ++ t), ¬ r.Crosses s.length := by
  rintro r hr ⟨hstart, hstop⟩
  have hs : s ≠ [] := by
    rintro rfl
    exact Nat.not_lt_zero _ hstart
  have hlast : (s ++ t)[s.length - 1]? = some '\n' := by
    rw [List.getElem?_append_left (by omega), ← List.getLast?_eq_getElem?]
    exact hend hs
  obtain ⟨hlt, -⟩ := List.getElem?_eq_some_iff.1 hlast
  exact h.regions r hr _ hlt ((Region.has_iff _ _).2 (by omega)) hlast

theorem exists_literalRegions (h : ClosedOnLine (s ++ t)) (hend : EndsLine s) :
    ∃ later, literalRegions (s ++ t) = literalRegions s ++ later ∧
      ∀ r ∈ later, 0 + s.length ≤ r.start :=
  exists_literalRegionsFrom_append (by rw [Nat.zero_add]; exact h.not_crosses hend)

theorem of_append (h : ClosedOnLine (s ++ t)) (hend : EndsLine s) : ClosedOnLine s := by
  obtain ⟨later, hregions, -⟩ := h.exists_literalRegions hend
  have hchar : ∀ {p c}, s[p]? = some c → p < (s ++ t).length ∧ (s ++ t)[p]? = some c := by
    intro p c hc
    obtain ⟨hp, -⟩ := List.getElem?_eq_some_iff.1 hc
    rw [List.length_append, List.getElem?_append_left hp]
    exact ⟨Nat.lt_add_right _ hp, hc⟩
  constructor
  · intro p _ hfirst hsecond
    obtain ⟨hp, hfirst⟩ := hchar hfirst
    exact h.slashes p hp hfirst (hchar hsecond).2
  · intro r hr p _ hhas hnewline
    have hmem : r ∈ literalRegions (s ++ t) := by
      rw [hregions]
      exact List.mem_append_left _ hr
    obtain ⟨hp, hnewline⟩ := hchar hnewline
    exact h.regions r hmem p hp hhas hnewline

/-- What is outside literals above does not depend on what is below. -/
theorem outside_literals (h : ClosedOnLine (s ++ t)) (hend : EndsLine s) :
    outside (literalRegions (s ++ t)) 0 s = codeOf s := by
  obtain ⟨later, hregions, hlater⟩ := h.exists_literalRegions hend
  rw [hregions, outside_append_later hlater]
  rfl

theorem outside_comments (h : ClosedOnLine (s ++ t)) (hend : EndsLine s) :
    outside (commentRegions (s ++ t)) 0 s = outside (commentRegions s) 0 s := by
  obtain ⟨later, hregions, hlater⟩ := h.exists_literalRegions hend
  have hsame : ((literalRegions s).filter fun r => (s ++ t)[r.start]? = some '/') =
      commentRegions s := by
    refine List.filter_congr fun r hr => ?_
    have hstart := start_lt_stop_of_mem hr
    have hstop := stop_le_of_mem hr
    rw [List.getElem?_append_left (by omega)]
  rw [commentRegions, hregions, List.filter_append, hsame, outside_append_later]
  exact fun r hr => hlater r (List.mem_of_mem_filter hr)

end ClosedOnLine

theorem startsNext_outside (last : Option Char) :
    Nesting.outside.startsNext last = decide (last ≠ some ',') := by
  cases last with
  | none => rfl
  | some c =>
      rw [Nesting.startsNext, Nesting.close, decide_eq_decide, Ne, Ne, Option.some.injEq]

theorem betweenStatements_iff (h : ClosedOnLine (s ++ t)) (hend : EndsLine s) :
    (Nesting.outside.scan s).betweenStatements = true ↔
      depth '{' '}' (outside (literalRegions (s ++ t)) 0 s) = 0 ∧
        depth '(' ')' (outside (literalRegions (s ++ t)) 0 s) = 0 ∧
          lastShown (outside (commentRegions (s ++ t)) 0 s) ≠ some ',' := by
  have habove := h.of_append hend
  obtain ⟨hbraces, hparens⟩ := habove.lineByLine.sameDepths_scanFrom (Remains.start s)
    (n := Nesting.outside) rfl none
  obtain ⟨hin, hstart⟩ := habove.scanFrom (Remains.start s) hend (n := Nesting.outside) rfl none
  rw [Nesting.braces_foldl_code] at hbraces
  rw [Nesting.parens_foldl_code] at hparens
  rw [Option.or_none] at hstart
  rw [h.outside_literals hend, h.outside_comments hend, Nesting.scan_eq,
    Nesting.betweenStatements, hbraces, hparens, hin, hstart, startsNext_outside]
  simp only [Bool.and_eq_true, beq_iff_eq, Bool.not_false, decide_eq_true_eq, and_true, and_assoc]
  rfl

theorem lastShown_literals (h : ClosedOnLine (s ++ t)) (hend : EndsLine s) :
    lastShown (outside (literalRegions (s ++ t)) 0 s) =
        lastShown (outside (commentRegions (s ++ t)) 0 s) ∨
      ∃ q, (q = '"' ∨ q = '\'') ∧
        lastShown (outside (commentRegions (s ++ t)) 0 s) = some q := by
  rw [h.outside_literals hend, h.outside_comments hend]
  exact (h.of_append hend).lastShown_code (Remains.start s) hend

section Above

theorem append_above (s : List Char) (N : Nat) :
    above s N ++ ((keptLines s).drop (N - 1)).flatten = s := by
  rw [above, ← List.flatten_append, List.take_append_drop, flatten_keptLines]

theorem scan_above (s : List Char) (N : Nat) :
    Nesting.outside.scan (above s N) =
      ((keptLines s).take (N - 1)).foldl Nesting.feed Nesting.outside := by
  rw [Nesting.scan, above, keptLines_flatten_take]

theorem endsLine_above (hN : N - 1 < (keptLines s).length) : EndsLine (above s N) :=
  getLast?_flatten_take hN

/-- A line gets a comment when a rule may start on it, nothing is open above, and the last character
above that shows is no comma. -/
theorem mem_ruleLines_iff (h : ClosedOnLine s) :
    N ∈ ruleLines s ↔ 1 ≤ N ∧ BetweenStatements s N ∧
      ∃ line, (keptLines s)[N - 1]? = some line ∧ opensRule line = true := by
  have hbetween : N - 1 < (keptLines s).length →
      ((((keptLines s).take (N - 1)).foldl Nesting.feed Nesting.outside).betweenStatements = true ↔
        BetweenStatements s N) := by
    intro hN
    rw [← append_above s N] at h
    have hiff := betweenStatements_iff h (endsLine_above hN)
    rw [append_above] at hiff
    rw [← scan_above, hiff]
    exact ⟨fun ⟨hbraces, hparens, hcomma⟩ => ⟨hbraces, hparens, hcomma⟩,
      fun h => ⟨h.braces, h.parens, h.comma⟩⟩
  rw [ruleLines, mem_ruleLinesFrom_iff]
  constructor
  · rintro ⟨k, line, hline, rfl, hfold, hopens⟩
    rw [Nat.add_sub_cancel_left] at hbetween ⊢
    obtain ⟨hk, -⟩ := List.getElem?_eq_some_iff.1 hline
    exact ⟨Nat.le_add_right 1 k, (hbetween hk).1 hfold, line, hline, hopens⟩
  · rintro ⟨hN, hstatements, line, hline, hopens⟩
    obtain ⟨hk, -⟩ := List.getElem?_eq_some_iff.1 hline
    exact ⟨N - 1, line, hline, by omega, (hbetween hk).2 hstatements, hopens⟩

end Above

/-- Above the line with this number the last character of code that shows ends a statement, or
there is none. -/
def StatementEnded (s : List Char) (number : Nat) : Prop :=
  lastShown (outside (literalRegions s) 0 (above s number)) ∈ [none, some ';', some '}']

/-- Where a statement goes on behind the lines above the one with this number, it breaks off at a
comma. -/
def BreaksAtComma (s : List Char) (number : Nat) : Prop :=
  lastShown (outside (commentRegions s) 0 (above s number)) ∈ [none, some ';', some '}', some ',']

instance (s : List Char) (number : Nat) : Decidable (StatementEnded s number) :=
  inferInstanceAs (Decidable (_ ∈ _))

instance (s : List Char) (number : Nat) : Decidable (BreaksAtComma s number) :=
  inferInstanceAs (Decidable (_ ∈ _))

theorem statementEnded_of_mem (h : ClosedOnLine s) (hN : N ∈ ruleLines s)
    (hbreaks : BreaksAtComma s N) : StatementEnded s N := by
  obtain ⟨-, hstatements, line, hline, -⟩ := (mem_ruleLines_iff h).1 hN
  obtain ⟨hk, -⟩ := List.getElem?_eq_some_iff.1 hline
  rw [← append_above s N] at h
  have hlast := lastShown_literals h (endsLine_above hk)
  rw [append_above] at hlast
  have hcomma := hstatements.comma
  unfold BreaksAtComma at hbreaks
  unfold StatementEnded
  rcases hlast with heq | ⟨q, hq, hshown⟩
  · rw [heq]
    simpa [hcomma] using hbreaks
  · -- behind a string no statement has ended
    rw [hshown] at hbreaks
    rcases hq with rfl | rfl <;> simp at hbreaks

/-- Where every literal ends on its line and no two slashes occur, an annotated text is its lines,
with a comment before those on which a rule may start, above which nothing is open and the last
character that shows is no comma. If statements break off at commas only, such a line stands behind
a statement that has ended. -/
theorem annotate_between_statements (source file : String) (h : ClosedOnLine source.toList) :
    annotate source file =
        String.ofList (withComments file (ruleLines source.toList) 1 (keptLines source.toList)) ∧
      ∀ N, (N ∈ ruleLines source.toList ↔ 1 ≤ N ∧ BetweenStatements source.toList N ∧
          ∃ line, (keptLines source.toList)[N - 1]? = some line ∧ opensRule line = true) ∧
        (N ∈ ruleLines source.toList → BreaksAtComma source.toList N →
          StatementEnded source.toList N) :=
  ⟨annotate_eq source file, fun _ => ⟨mem_ruleLines_iff h, statementEnded_of_mem h⟩⟩

/-- A declaration, an at-rule over three lines, comments with braces, and a selector over two lines
behind a comment. -/
def listedSheet : String :=
  "$a: 'b\\';', c;\n@include d(\n  e\n);\n/* \x7b, */ .f, /* ; */\n\n" ++
    ".g \x7b h: \"\x7d\"; \x7d\n.i \x7b\x7d\n"

theorem annotate_between_statements_listedSheet :
    ruleLines listedSheet.toList = [8] ∧ BreaksAtComma listedSheet.toList 8 ∧
      StatementEnded listedSheet.toList 8 := by
  have hclosed : ClosedOnLine listedSheet.toList := by decide +kernel
  have hlines : ruleLines listedSheet.toList = [8] := by decide +kernel
  have hbreaks : BreaksAtComma listedSheet.toList 8 := by decide +kernel
  obtain ⟨-, hstatements⟩ := annotate_between_statements listedSheet "f.scss" hclosed
  exact ⟨hlines, hbreaks, (hstatements 8).2 (by rw [hlines]; decide) hbreaks⟩

/-- A declaration over two lines, and a selector over two lines. -/
def brokenSheet : String := "$a: 1px\n  2px;\n.b\n.c \x7b\x7d\n"

/-- A statement that breaks off behind anything but a comma gets a comment inside. -/
theorem comments_inside_statements :
    ClosedOnLine brokenSheet.toList ∧ ¬ StatementEnded brokenSheet.toList 2 ∧
      ¬ StatementEnded brokenSheet.toList 4 ∧
      annotate brokenSheet "f.scss" = "$a: 1px\n/* line 2, f.scss */\n  2px;\n" ++
        "/* line 3, f.scss */\n.b\n/* line 4, f.scss */\n.c \x7b\x7d\n" := by
  decide +kernel

end StyleBuild.LineComment
