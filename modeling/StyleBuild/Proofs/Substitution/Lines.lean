import StyleBuild.Compiler
import StyleBuild.Proofs.Substitution.ClosedLiterals
import StyleBuild.Proofs.Substitution.Completeness

/-!
# Line by line

A line feed cuts a text cleanly when nothing is open in front of it. A line is
self-contained when its literals are closed, the calls that are met in it have
their closing parenthesis, and it does not end in `@function`. What is seen in such
a line and in a text behind it is what is seen in each of them (`sightings_newline`),
and their answers are put in their places as in each of them
(`substituteFrom_newline`). So the two are expanded independently of each other, and
so are the variables of a program (`expand_line_by_line`).
-/

namespace StyleBuild.Substitution

open Text

variable {names : List (List Char)} {regions earlier later : List Region}
  {before front s name rest source : List Char} {position skip k n : Nat} {free : Bool}

/-- The call in a text that comes behind `k` more characters. -/
def Call.shift (k : Nat) (c : Call) : Call := { c with start := c.start + k, stop := c.stop + k }

def Sighting.shift (k : Nat) : Sighting → Sighting
  | .pass length => .pass length
  | .call c => .call (c.shift k)

section Sightings

theorem afterStart?_newline {p : List Char} (hp : '\n' ∉ p) (s t : List Char) :
    afterStart? p (s ++ '\n' :: t) = (afterStart? p s).map fun rest => rest ++ '\n' :: t := by
  induction p generalizing s with
  | nil => rfl
  | cons a p ih =>
      rw [List.mem_cons, not_or] at hp
      obtain ⟨ha, hp⟩ := hp
      cases s with
      | nil =>
          rw [List.nil_append, afterStart?, afterStart?, if_neg (Ne.symm ha)]
          rfl
      | cons c s =>
          rw [List.cons_append, afterStart?, afterStart?, ih hp]
          split <;> rfl

/-- No name goes beyond its line. -/
theorem nameAt?_newline (hnames : ∀ name ∈ names, '\n' ∉ name) (s t : List Char) :
    nameAt? names (s ++ '\n' :: t) =
      (nameAt? names s).map fun e => (e.1, e.2 ++ '\n' :: t) := by
  induction names with
  | nil => rfl
  | cons name names ih =>
      obtain ⟨hname, hnames⟩ := List.forall_mem_cons.1 hnames
      have hopening : '\n' ∉ name ++ ['('] := by
        rw [List.mem_append, not_or]
        exact ⟨hname, by decide⟩
      have hrest := ih hnames
      unfold nameAt? at hrest ⊢
      rw [List.findSome?_cons, List.findSome?_cons, afterStart?_newline hopening, hrest]
      cases afterStart? (name ++ ['(']) s <;> rfl

theorem nameAt?_newline_of_free (hnames : ∀ name ∈ names, '\n' ∉ name) (free : Bool)
    (s t : List Char) : (if free then nameAt? names (s ++ '\n' :: t) else none) =
      (if free then nameAt? names s else none).map fun e => (e.1, e.2 ++ '\n' :: t) := by
  cases free with
  | true => exact nameAt?_newline hnames s t
  | false => rfl

/-- What is behind the closing parenthesis does not matter. -/
theorem closingOffset_append {state : ParenState} (h : closingOffset state s = some n)
    (t : List Char) : closingOffset state (s ++ t) = some n := by
  induction s generalizing state n with
  | nil => cases h
  | cons c s ih =>
      rw [List.cons_append, closingOffset]
      rw [closingOffset] at h
      split at h
      · exact h
      · obtain ⟨m, hm, rfl⟩ := Option.map_eq_some_iff.1 h
        simp only [ih hm, Option.map_some]

/-- Behind a line that does not end in `@function`, a definition starts in its own line. The texts
are given from their ends. -/
theorem followsDefinition_newline (hfront : followsDefinition front = false)
    (before : List Char) :
    followsDefinition (before ++ '\n' :: front) = followsDefinition before := by
  have hbreak : trimStart ('\n' :: front) = trimStart front :=
    List.dropWhile_cons_of_pos (by decide)
  unfold followsDefinition at hfront ⊢
  rw [trimStart, List.dropWhile_append, ← trimStart, ← trimStart, hbreak]
  split
  · next hempty => rw [hfront, List.isEmpty_iff.1 hempty]; rfl
  · rw [startsWith, startsWith, afterStart?_newline (by decide), Option.isSome_map]

/-- The opening of a call at this position, outside literals and behind no `@function`, has its
closing parenthesis. -/
def ClosesAt (names : List (List Char)) (source : List Char) (regions : List Region)
    (position : Nat) : Prop :=
  ∀ front name rest, OpensBetween names source front name rest → front.length = position →
    (∀ r ∈ regions, r.has position = false) →
    "@function".toList <:+ trimEnd front ∨ closingOffset (.code 0) rest ≠ none

theorem OpensBetween.length_eq (h : OpensBetween names source before.reverse name rest) :
    source.length = before.length + (name.length + 1 + rest.length) := by
  rw [h.text]
  simp only [List.length_append, List.length_reverse, List.length_cons]
  omega

/-- The lines behind an opening matter only when it is a call that is not closed. -/
theorem sight_newline (hopens : OpensBetween names source before.reverse name rest)
    (hlater : ∀ r ∈ later, source.length < r.start)
    (hcloses : ClosesAt names source regions before.length) (t : List Char) :
    sight (regions ++ later) before before.length name (rest ++ '\n' :: t) =
      sight regions before before.length name rest := by
  have hnone : later.find? (·.has before.length) = none := by
    refine List.find?_eq_none.2 fun r hr => ?_
    have hlt := hlater r hr
    have hlength := hopens.length_eq
    rw [Region.has_iff]
    omega
  unfold sight
  rw [List.find?_append, hnone, Option.or_none]
  cases hfind : regions.find? (·.has before.length) with
  | some r => rfl
  | none =>
      have houtside : ∀ r ∈ regions, r.has before.length = false := fun r hr =>
        Bool.eq_false_iff.2 (List.find?_eq_none.1 hfind r hr)
      rcases hcloses _ _ _ hopens List.length_reverse houtside with hdefinition | hsome
      · rw [(followsDefinition_iff before).2 hdefinition]
        rfl
      · obtain ⟨n, hn⟩ := Option.ne_none_iff_exists'.1 hsome
        have hlt := closingOffset_lt _ _ _ hn
        rw [closingOffset_append hn, hn]
        cases followsDefinition before with
        | true => rfl
        | false => simp only [Bool.false_eq_true, if_false, List.take_append_of_le_length hlt.le]

/-- What is passed over at an opening ends in the text. -/
theorem stop_sight_le (hopens : OpensBetween names source before.reverse name rest)
    (hregions : ∀ r ∈ regions, r.stop ≤ source.length) :
    (sight regions before before.length name rest).stop before.length ≤ source.length := by
  have hlength := hopens.length_eq
  unfold sight
  split
  · next r hfind =>
    have hhas : r.has before.length = true := by simpa using List.find?_some hfind
    have hle := hregions r (List.mem_of_find?_eq_some hfind)
    rw [Region.has_iff] at hhas
    rw [Sighting.stop]
    omega
  · split
    · rw [Sighting.stop]
      omega
    · next n hn =>
      have hlt : n < rest.length := by
        split at hn
        · cases hn
        · exact closingOffset_lt _ _ _ hn
      simp only [Sighting.stop]
      omega

/-- Where a name stands, and may start, there is an opening. -/
theorem opensBetween_of_nameAt? (htext : source = before.reverse ++ s)
    (hboundary : free = true → ∀ b, before.head? = some b → isBoundary b = true)
    (hname : (if free then nameAt? names s else none) = some (name, rest)) :
    OpensBetween names source before.reverse name rest := by
  split at hname
  · next hfree =>
    obtain ⟨hmem, hs⟩ := nameAt?_eq_some hname
    refine ⟨by rw [htext, hs], hmem, fun b hb => hboundary hfree b ?_⟩
    rwa [← List.getLast?_reverse]
  · cases hname

theorem reverse_append_cons (before : List Char) (a : Char) (s : List Char) :
    before.reverse ++ a :: s = (a :: before).reverse ++ s := by
  rw [List.reverse_cons, List.append_assoc, List.singleton_append]

/-- In front of the line feed the same is seen as without it, and reading goes on behind it. -/
theorem sightingsFrom_newline (hnames : ∀ name ∈ names, '\n' ∉ name) (t : List Char)
    (hregions : ∀ r ∈ regions, r.stop ≤ source.length)
    (hlater : ∀ r ∈ later, source.length < r.start)
    (htext : source = before.reverse ++ s) (hposition : position = before.length)
    (hboundary : free = true → ∀ b, before.head? = some b → isBoundary b = true)
    (hskip : skip ≤ s.length)
    (hclosed : ∀ e ∈ sightingsFrom names regions before position skip free s,
      ClosesAt names source regions e.1) :
    sightingsFrom names (regions ++ later) before position skip free (s ++ '\n' :: t) =
      sightingsFrom names regions before position skip free s ++
        sightingsFrom names (regions ++ later) ('\n' :: source.reverse) (source.length + 1) 0 true
          t := by
  fun_induction sightingsFrom names regions before position skip free s with
  | case1 before position skip free =>
      -- no name starts at the line feed, and directly behind it one may
      have hstart : nameAt? names [] = none := by
        refine List.findSome?_eq_none_iff.2 fun name _ => ?_
        cases name <;> rfl
      have hnone := nameAt?_newline_of_free hnames free [] t
      rw [hstart, ite_self, List.nil_append] at hnone
      rw [Nat.le_zero.1 hskip, List.nil_append, sightingsFrom, hnone, htext, hposition]
      simp only [List.append_nil, List.reverse_reverse, List.length_reverse]
      rfl
  | case2 before position free a s skip ih =>
      rw [List.cons_append, sightingsFrom]
      exact ih (htext.trans (reverse_append_cons before a s))
        (by rw [hposition, List.length_cons]) (fun hfree => by cases hfree)
        (Nat.le_of_succ_le_succ hskip) hclosed
  | case3 before position free a s hname ih =>
      have hnone := nameAt?_newline_of_free hnames free (a :: s) t
      rw [hname, List.cons_append] at hnone
      rw [List.cons_append, sightingsFrom, hnone]
      refine ih (htext.trans (reverse_append_cons before a s))
        (by rw [hposition, List.length_cons]) (fun hfree b hb => ?_) (Nat.zero_le _) hclosed
      cases hb
      exact hfree
  | case4 before position free a s name rest hname ih =>
      subst hposition
      -- the opening is judged alike, and what is passed over ends in front of the line feed
      obtain ⟨hfirst, hrest⟩ := List.forall_mem_cons.1 hclosed
      have hopens := opensBetween_of_nameAt? htext hboundary hname
      have hsight := sight_newline hopens hlater hfirst t
      have hstop := stop_sight_le hopens hregions
      have hopening := nameAt?_newline_of_free hnames free (a :: s) t
      rw [hname, List.cons_append] at hopening
      rw [List.cons_append, sightingsFrom, hopening]
      simp only [Option.map_some, hsight]
      rw [List.cons_append, List.cons_inj_right]
      refine ih (htext.trans (reverse_append_cons before a s)) rfl
        (fun hfree => by cases hfree) ?_ hrest
      have hwhole := congrArg List.length htext
      simp only [List.length_append, List.length_reverse, List.length_cons] at hwhole
      omega

theorem Sighting.stop_shift (k position : Nat) (x : Sighting) :
    (x.shift k).stop (position + k) = x.stop position + k := by
  cases x with
  | pass length => exact Nat.add_right_comm position k length
  | call c => rfl

/-- Behind a line, an opening is judged as in its own text. -/
theorem sight_shift (hfront : followsDefinition front = false)
    (hearlier : ∀ r ∈ earlier, r.stop ≤ k) (regions : List Region) (before : List Char)
    (position : Nat) (name rest : List Char) :
    sight (earlier ++ regions.map (Region.shift k)) (before ++ '\n' :: front) (position + k) name
        rest = (sight regions before position name rest).shift k := by
  have hnone : earlier.find? (·.has (position + k)) = none := by
    refine List.find?_eq_none.2 fun r hr => ?_
    have hle := hearlier r hr
    rw [Region.has_iff]
    omega
  have hhas : ((fun r : Region => r.has (position + k)) ∘ Region.shift k) =
      fun r => r.has position :=
    funext fun r => Region.has_shift k r position
  unfold sight
  rw [List.find?_append, hnone, Option.none_or, List.find?_map, hhas,
    followsDefinition_newline hfront]
  cases regions.find? (·.has position) with
  | some r =>
      have hlength : r.stop + k - (position + k) = r.stop - position :=
        Nat.add_sub_add_right r.stop k position
      simp only [Option.map_some, Region.shift, hlength]
      rfl
  | none =>
      simp only [Option.map_none]
      split
      · rfl
      · next n hn =>
        simp only [Sighting.shift, Call.shift, Sighting.call.injEq, Call.mk.injEq, true_and]
        omega

/-- Behind a line the same is seen as in a text of its own. -/
theorem sightingsFrom_shift (hfront : followsDefinition front = false)
    (hearlier : ∀ r ∈ earlier, r.stop ≤ k) (names : List (List Char)) (regions : List Region)
    (before : List Char) (position skip : Nat) (free : Bool) (s : List Char) :
    sightingsFrom names (earlier ++ regions.map (Region.shift k)) (before ++ '\n' :: front)
        (position + k) skip free s =
      (sightingsFrom names regions before position skip free s).map
        fun e => (e.1 + k, e.2.shift k) := by
  fun_induction sightingsFrom names regions before position skip free s with
  | case1 => rfl
  | case2 before position free a s skip ih =>
      rw [sightingsFrom, Nat.add_right_comm, ← List.cons_append, ih]
  | case3 before position free a s hname ih =>
      rw [sightingsFrom, hname]
      simp only
      rw [Nat.add_right_comm, ← List.cons_append, ih]
  | case4 before position free a s name rest hname ih =>
      have hskip : ∀ stop : Nat, stop + k - (position + k) - 1 = stop - position - 1 :=
        fun stop => by rw [Nat.add_sub_add_right]
      rw [sightingsFrom, hname]
      simp only [sight_shift hfront hearlier, Sighting.stop_shift]
      rw [hskip, Nat.add_right_comm, ← List.cons_append, ih, List.map_cons]

/-- The literals of a line are closed, the calls that are met in it have their closing parenthesis,
and it does not end in `@function`. -/
structure IsSelfContained (names : List (List Char)) (s : List Char) : Prop where
  literals : ∀ r ∈ literalRegions s, IsClosed (s.drop r.start)
  calls : ∀ e ∈ sightings names s, ClosesAt names s (literalRegions s) e.1
  no_definition : ¬ "@function".toList <:+ trimEnd s

/-- What is seen in two lines is what is seen in each of them. -/
theorem sightings_newline (hnames : ∀ name ∈ names, '\n' ∉ name) (h : IsSelfContained names s)
    (t : List Char) : sightings names (s ++ '\n' :: t) =
      sightings names s ++
        (sightings names t).map fun e => (e.1 + (s.length + 1), e.2.shift (s.length + 1)) := by
  have hstop : ∀ r ∈ literalRegions s, r.stop ≤ s.length := fun r hr => by
    simpa using stop_le_of_mem hr
  have hlater : ∀ r ∈ (literalRegions t).map (Region.shift (s.length + 1)),
      s.length < r.start := by
    intro r hr
    obtain ⟨r, -, rfl⟩ := List.mem_map.1 hr
    exact Nat.le_add_left (s.length + 1) r.start
  have hfront : followsDefinition s.reverse = false := by
    rw [Bool.eq_false_iff, Ne, followsDefinition_iff, List.reverse_reverse]
    exact h.no_definition
  have hbehind := sightingsFrom_shift hfront (fun r hr => Nat.le_succ_of_le (hstop r hr)) names
    (literalRegions t) [] 0 0 true t
  rw [List.nil_append, Nat.zero_add] at hbehind
  rw [sightings, literalRegions_newline h.literals]
  refine Eq.trans (sightingsFrom_newline hnames t hstop hlater rfl rfl (fun _ b hb => by cases hb)
    (Nat.zero_le _) h.calls) ?_
  rw [hbehind]
  rfl

/-- The calls of two lines are those of each of them. -/
theorem calls_newline (hnames : ∀ name ∈ names, '\n' ∉ name) (h : IsSelfContained names s)
    (t : List Char) : calls names (s ++ '\n' :: t) =
      calls names s ++ (calls names t).map (Call.shift (s.length + 1)) := by
  have hcalls : ∀ source, calls names source =
      (sightings names source).filterMap fun e => e.2.call? := fun source => callsFrom_eq
  have hshift : ∀ x : Sighting, (x.shift (s.length + 1)).call? =
      x.call?.map (Call.shift (s.length + 1)) := fun x => by cases x <;> rfl
  rw [hcalls, hcalls, hcalls, sightings_newline hnames h, List.filterMap_append,
    List.filterMap_map, List.map_filterMap]
  refine congrArg _ (List.filterMap_congr fun e _ => hshift e.2)

end Sightings

section Outcome

/-- Replaced behind a text is what is replaced in a text of its own. -/
theorem substituteFrom_shift (s t : List Char) (cursor : Nat)
    (replacements : List (Call × List Char)) :
    substituteFrom (s ++ t) (cursor + s.length)
        (replacements.map fun e => (e.1.shift s.length, e.2)) =
      substituteFrom t cursor replacements := by
  have hdrop : ∀ n, (s ++ t).drop (n + s.length) = t.drop n := fun n => by
    rw [Nat.add_comm, List.drop_length_add_append]
  induction replacements generalizing cursor with
  | nil => exact hdrop cursor
  | cons e replacements ih =>
      obtain ⟨call, answer⟩ := e
      have hstart : (call.shift s.length).start - (cursor + s.length) = call.start - cursor :=
        Nat.add_sub_add_right call.start s.length cursor
      rw [List.map_cons, substituteFrom, substituteFrom, hdrop, hstart]
      exact congrArg _ (ih call.stop)

/-- What is kept may be cut anywhere in front of the first call. -/
theorem substituteFrom_of_le (source : List Char) {cursor : Nat}
    {replacements : List (Call × List Char)} (hcursor : cursor ≤ k)
    (hahead : ∀ e ∈ replacements, k ≤ e.1.start) :
    substituteFrom source cursor replacements =
      (source.drop cursor).take (k - cursor) ++ substituteFrom source k replacements := by
  have hdrop : (source.drop cursor).drop (k - cursor) = source.drop k := by
    rw [List.drop_drop, Nat.add_sub_cancel' hcursor]
  cases replacements with
  | nil => rw [substituteFrom, substituteFrom, ← hdrop, List.take_append_drop]
  | cons e replacements =>
      obtain ⟨call, answer⟩ := e
      have hle : k ≤ call.start := hahead _ List.mem_cons_self
      have hsum : call.start - cursor = k - cursor + (call.start - k) := by omega
      rw [substituteFrom, substituteFrom, hsum, List.take_add, hdrop]
      simp only [List.append_assoc]

theorem Fits.stop_le {source : List Char} {cursor : Nat} {replacements : List (Call × List Char)}
    (h : Fits source cursor replacements) : ∀ e ∈ replacements, e.1.stop ≤ source.length := by
  intro e he
  have htext := congrArg List.length (h.text e he)
  have hstop := h.stop e he
  have hlong := Call.length_text e.1
  simp only [List.length_drop, List.length_append] at htext
  omega

/-- What is replaced in two lines is replaced in each of them. -/
theorem substituteFrom_newline {cursor : Nat} {replacements : List (Call × List Char)}
    (h : Fits s cursor replacements) (hcursor : cursor ≤ s.length) (t : List Char)
    (behind : List (Call × List Char)) :
    substituteFrom (s ++ '\n' :: t) cursor
        (replacements ++ behind.map fun e => (e.1.shift (s.length + 1), e.2)) =
      substituteFrom s cursor replacements ++ '\n' :: substitute t behind := by
  induction replacements generalizing cursor with
  | nil =>
      have hlength : (s ++ ['\n']).length = s.length + 1 := List.length_append
      have hle : cursor ≤ (s ++ ['\n']).length := by omega
      have hahead : ∀ e ∈ behind.map fun e => (e.1.shift (s ++ ['\n']).length, e.2),
          (s ++ ['\n']).length ≤ e.1.start := by
        intro e he
        obtain ⟨e, -, rfl⟩ := List.mem_map.1 he
        exact Nat.le_add_left _ e.1.start
      have hbehind := substituteFrom_shift (s ++ ['\n']) t 0 behind
      rw [Nat.zero_add] at hbehind
      rw [List.nil_append, ← hlength, List.append_cons, substituteFrom_of_le _ hle hahead, hbehind,
        List.drop_append_of_le_length hle, List.take_left' List.length_drop,
        List.drop_append_of_le_length hcursor, List.append_assoc]
      rfl
  | cons e replacements ih =>
      obtain ⟨call, answer⟩ := e
      have hstop : call.stop ≤ s.length := h.stop_le _ List.mem_cons_self
      have hgap : ((s ++ '\n' :: t).drop cursor).take (call.start - cursor) =
          (s.drop cursor).take (call.start - cursor) := by
        have hle := h.start_le_stop
        rw [List.drop_append_of_le_length hcursor, List.take_append_of_le_length]
        rw [List.length_drop]
        omega
      rw [List.cons_append, substituteFrom, substituteFrom, hgap, ih h.tail hstop]
      simp only [List.append_assoc]

/-- The outcome of a line and of the text behind it. -/
def Expansion.thenLine (a b : Expansion) : Expansion :=
  ⟨a.text ++ "\n" ++ b.text, a.changed || b.changed⟩

namespace Registry

variable {r : Registry}

theorem answers_append (r : Registry) (front back : List Call) :
    r.answers (front ++ back) = do
      let earlier ← r.answers front
      let later ← r.answers back
      return earlier ++ later := by
  induction front with
  | nil =>
      rw [List.nil_append, answers]
      cases r.answers back <;> rfl
  | cons call front ih =>
      rw [List.cons_append, answers, answers, ih]
      cases r.answer call with
      | error e => rfl
      | ok text =>
          cases r.answers front with
          | error e => rfl
          | ok earlier => cases r.answers back <;> rfl

/-- The place of a call does not matter to its answer. -/
theorem answers_shift (r : Registry) (k : Nat) (calls : List Call) :
    r.answers (calls.map (Call.shift k)) =
      (r.answers calls).map fun replacements =>
        replacements.map fun e => (e.1.shift k, e.2) := by
  induction calls with
  | nil => rfl
  | cons call calls ih =>
      have hanswer : r.answer (call.shift k) = r.answer call := rfl
      rw [List.map_cons, answers, answers, hanswer, ih]
      cases r.answer call with
      | error e => rfl
      | ok text => cases r.answers calls <;> rfl

/-- An expansion puts the answers in the place of the spans, and is marked when there are any. -/
theorem expand_eq_map (r : Registry) (source : String) :
    r.expand source = (r.answers (spans r.names source)).map fun replacements =>
      ⟨String.ofList (substitute source.toList replacements), !replacements.isEmpty⟩ := by
  rw [expand_eq]
  split
  · next hnone =>
    rw [hnone, answers]
    simp [Except.map, substitute, substituteFrom]
  · next c cs hsome =>
    rw [hsome]
    cases hanswers : r.answers (c :: cs) with
    | error e => rfl
    | ok replacements =>
        have hne : replacements ≠ [] := by
          rintro rfl
          cases map_fst_of_answers hanswers
        simp [Except.map, hne]

/-- A self-contained line is expanded independently of the text behind it. -/
theorem expand_newline (hnames : ∀ name ∈ byLength r.names, '\n' ∉ name) {s : String}
    (h : IsSelfContained (byLength r.names) s.toList) (t : String) :
    r.expand (s ++ "\n" ++ t) = do
      let first ← r.expand s
      let later ← r.expand t
      return first.thenLine later := by
  have htext : (s ++ "\n" ++ t).toList = s.toList ++ '\n' :: t.toList := by
    simp
  have hspans : spans r.names (s ++ "\n" ++ t) =
      spans r.names s ++ (spans r.names t).map (Call.shift (s.toList.length + 1)) := by
    rw [spans, htext]
    exact calls_newline hnames h t.toList
  rw [expand_eq_map, expand_eq_map, expand_eq_map, hspans, answers_append, answers_shift]
  cases hfirst : r.answers (spans r.names s) with
  | error e => rfl
  | ok first =>
      cases r.answers (spans r.names t) with
      | error e => rfl
      | ok later =>
          have houtcome := substituteFrom_newline (fits_of_answers hfirst) (Nat.zero_le _) t.toList
            later
          refine congrArg Except.ok ?_
          rw [Expansion.thenLine, htext, Expansion.mk.injEq, substitute, houtcome]
          constructor
          · exact String.toList_inj.1 (by simp [substitute])
          · cases first <;> cases later <;> rfl

/-- The outcome of lines and of the text behind them, each of them expanded for itself; the first
one that fails decides. -/
def expandLines (r : Registry) (rest : String) : List String → Except Error Expansion
  | [] => r.expand rest
  | line :: lines => do
    let first ← r.expand line
    let later ← r.expandLines rest lines
    return first.thenLine later

theorem expand_lines (hnames : ∀ name ∈ byLength r.names, '\n' ∉ name) (rest : String)
    {lines : List String} (h : ∀ line ∈ lines, IsSelfContained (byLength r.names) line.toList) :
    r.expand (String.join (lines.map fun line => line ++ "\n") ++ rest) =
      r.expandLines rest lines := by
  induction lines with
  | nil => rw [List.map_nil, String.join_nil, String.empty_append, expandLines]
  | cons line lines ih =>
      obtain ⟨hline, hlines⟩ := List.forall_mem_cons.1 h
      have htext : String.join ((line :: lines).map fun line => line ++ "\n") ++ rest =
          line ++ "\n" ++ (String.join (lines.map fun line => line ++ "\n") ++ rest) := by
        rw [List.map_cons, String.join_cons, String.append_assoc]
      rw [htext, expand_newline hnames hline, ih hlines]
      rfl

end Registry

end Outcome

end StyleBuild.Substitution

namespace StyleBuild

open Text Substitution

namespace Compiler

/-- The line of a variable, without its line feed. -/
def bindingLine (e : String × String) : String :=
  "$" ++ e.1 ++ ": " ++ (if isAllBlank e.2.toList then "null" else e.2) ++ ";"

/-- The program from the lines of these variables on. -/
def programFrom (entries : List (String × String)) (statement : String) : String :=
  "".intercalate (entries.map fun e => variableLine e.1 e.2) ++ statement ++ ";\n"

theorem program_eq {c : Compiler} {front back : List (String × String)}
    (h : c.bindings.entries = front ++ back) (statement : String) :
    c.program statement =
      String.join ((front.map bindingLine).map fun line => line ++ "\n") ++
        programFrom back statement := by
  have hjoin : ∀ l : List String, "".intercalate l = String.join l := by
    intro l
    induction l with
    | nil => rfl
    | cons a l ih =>
        cases l with
        | nil => simp
        | cons b l =>
            rw [String.intercalate_cons_cons, ih, String.append_empty, ← String.join_cons]
  have hline : ∀ e : String × String, variableLine e.1 e.2 = bindingLine e ++ "\n" := by
    intro e
    have hend : ";" ++ "\n" = ";\n" := by decide
    rw [variableLine, bindingLine, ← hend, ← String.append_assoc]
  rw [program, h, programFrom, hjoin, hjoin, List.map_append, String.join_append, List.map_map]
  simp only [hline, String.append_assoc, Function.comp_def]

end Compiler

namespace Substitution.Registry

variable {r : Registry}

/-- An expansion works line by line. A line that is self-contained is expanded independently of the
text behind it: the outcomes are put together again, and when one of them fails, the first one that
does decides. So in a program, from its start and as long as the lines of the variables are
self-contained, each of them is expanded for itself. -/
theorem expand_line_by_line (hnames : ∀ name ∈ r.names, IsIdentifier name.toList) :
    (∀ s t : String, IsSelfContained (byLength r.names) s.toList →
        r.expand (s ++ "\n" ++ t) = do
          let first ← r.expand s
          let later ← r.expand t
          return first.thenLine later) ∧
      ∀ (c : Compiler) (statement : String) (front back : List (String × String)),
        c.bindings.entries = front ++ back →
        (∀ e ∈ front, IsSelfContained (byLength r.names) (Compiler.bindingLine e).toList) →
        r.expand (c.program statement) =
          r.expandLines (Compiler.programFrom back statement)
            (front.map Compiler.bindingLine) := by
  have hnewline : ∀ name ∈ byLength r.names, '\n' ∉ name := by
    intro name hname hmem
    have hidentifier := hnames _ (ofList_mem_of_mem_byLength hname)
    rw [String.toList_ofList] at hidentifier
    have hboundary := hidentifier.isBoundary_eq_false '\n' hmem
    revert hboundary
    decide
  refine ⟨fun s t h => expand_newline hnewline h t, ?_⟩
  intro c statement front back hentries h
  rw [Compiler.program_eq hentries, expand_lines hnewline]
  exact List.forall_mem_map.2 h

/-- The line of a variable, with a call, and with an apostrophe in a comment. -/
def commentedLine : String := "$a: f(1) // it's;"

theorem isSelfContained_commentedLine :
    IsSelfContained (byLength constantRegistry.names) commentedLine.toList := by
  rw [byLength_constant]
  have hregions : literalRegions commentedLine.toList = [⟨9, 17⟩] := by
    decide +kernel
  have hseen : (sightings ["f".toList] commentedLine.toList).map Prod.fst = [4] := by
    decide +kernel
  refine ⟨fun r hr => ?_, fun e he => ?_, by decide +kernel⟩
  · rw [hregions, List.mem_singleton] at hr
    rw [hr]
    trivial
  · have hplace : e.1 = 4 := by
      rw [← List.mem_singleton, ← hseen]
      exact List.mem_map_of_mem he
    rw [hplace]
    intro front name rest hopens hlength _
    have hcut : commentedLine.toList = "$a: ".toList ++ ("f(".toList ++ "1) // it's;".toList) := by
      decide +kernel
    obtain ⟨-, htext⟩ := (hcut ▸ hopens).eq_of_length hlength
    rw [List.mem_singleton.1 hopens.name] at htext
    obtain rfl : "1) // it's;".toList = rest := List.append_cancel_left htext
    exact .inr (by decide +kernel)

/-- Two variables, and a call in the second one that is not closed. -/
def commentedCompiler : Compiler :=
  ⟨⟨"none", fun _ => .ok ⟨"", []⟩⟩, .expanded, .ofList [("a", "f(1) // it's"), ("b", "f(2")],
    constantRegistry⟩

theorem expand_line_by_line_commented :
    (∀ name ∈ constantRegistry.names, IsIdentifier name.toList) ∧
      IsSelfContained (byLength constantRegistry.names) commentedLine.toList ∧
      constantRegistry.expand (commentedLine ++ "\n" ++ "b: f(2)") =
        .ok ⟨"$a: x // it's;\nb: x", true⟩ ∧
      constantRegistry.expand (commentedCompiler.program "@import \"b.scss\"") =
        .ok ⟨"$a: x // it's;\n$b: f(2;\n@import \"b.scss\";\n", true⟩ := by
  have hline : constantRegistry.expand commentedLine = .ok ⟨"$a: x // it's;", true⟩ := by
    have hspans : spans constantRegistry.names commentedLine =
        [⟨4, "f".toList, "1".toList, 8⟩] := by
      rw [spans, byLength_constant]
      decide +kernel
    rw [expand_eq, hspans]
    decide +kernel
  have hcall : constantRegistry.expand "b: f(2)" = .ok ⟨"b: x", true⟩ := by
    have hspans : spans constantRegistry.names "b: f(2)" = [⟨3, "f".toList, "2".toList, 7⟩] := by
      rw [spans, byLength_constant]
      decide +kernel
    rw [expand_eq, hspans]
    decide +kernel
  have hrest : constantRegistry.expand "$b: f(2;\n@import \"b.scss\";\n" =
      .ok ⟨"$b: f(2;\n@import \"b.scss\";\n", false⟩ := by
    have hspans : spans constantRegistry.names "$b: f(2;\n@import \"b.scss\";\n" = [] := by
      rw [spans, byLength_constant]
      decide +kernel
    rw [expand_eq, hspans]
  obtain ⟨hlines, hprogram⟩ := expand_line_by_line isIdentifier_constant
  refine ⟨isIdentifier_constant, isSelfContained_commentedLine, ?_, ?_⟩
  · rw [hlines _ _ isSelfContained_commentedLine, hline, hcall]
    decide +kernel
  · have hentries : commentedCompiler.bindings.entries =
        [("a", "f(1) // it's")] ++ [("b", "f(2")] := by
      decide +kernel
    have hfront : Compiler.bindingLine ("a", "f(1) // it's") = commentedLine := by
      decide +kernel
    have hback : Compiler.programFrom [("b", "f(2")] "@import \"b.scss\"" =
        "$b: f(2;\n@import \"b.scss\";\n" := by
      decide +kernel
    rw [hprogram _ _ _ _ hentries, List.map_singleton, hfront, hback, expandLines, expandLines,
      hline, hrest]
    · decide +kernel
    · intro e he
      rw [List.mem_singleton.1 he, hfront]
      exact isSelfContained_commentedLine

end Substitution.Registry

end StyleBuild
