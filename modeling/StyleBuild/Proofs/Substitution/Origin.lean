import StyleBuild.Proofs.Substitution.SinglePass

/-!
# Where the characters of an outcome come from

A character of a text whose calls were replaced was kept from the source or
belongs to an answer, and what stands in front of it is the outcome of what
stands in front of that place (`origin_of_substituteFrom`). Counting the line
feeds there (`count_substituteFrom`) relates the number of its line to that of
the place (`Origin.line`).
-/

namespace StyleBuild.Substitution

/-- A character of two texts in a row belongs to the first or to the second one. -/
theorem append_eq_append_cons {s t front back : List Char} {c : Char}
    (h : s ++ t = front ++ c :: back) :
    (∃ b, s = front ++ c :: b) ∨ ∃ a, front = s ++ a ∧ t = a ++ c :: back := by
  rcases List.append_eq_append_iff.1 h with ⟨a, hfront, ht⟩ | ⟨b, hs, hback⟩
  · exact .inr ⟨a, hfront, ht⟩
  · rcases List.cons_eq_append_iff.1 hback with ⟨rfl, ht⟩ | ⟨b, rfl, -⟩
    · exact .inr ⟨[], by rw [hs, List.append_nil, List.append_nil], ht⟩
    · exact .inl ⟨b, hs⟩

/-- The calls of a text in order, from `cursor` on, each with the text that replaces it. -/
structure Fits (source : List Char) (cursor : Nat) (replacements : List (Call × List Char)) :
    Prop where
  text : ∀ e ∈ replacements, source.drop e.1.start = e.1.text ++ source.drop e.1.stop
  stop : ∀ e ∈ replacements, e.1.stop = e.1.start + e.1.text.length
  apart : replacements.Pairwise fun a b => a.1.stop ≤ b.1.start
  cursor : ∀ e ∈ replacements, cursor ≤ e.1.start

/-- The character behind `front` in an outcome is the one at a place of the source between the
calls, or one of an answer. -/
inductive Origin (source : List Char) (cursor : Nat) (replacements : List (Call × List Char))
    (front : List Char) (c : Char) : Prop where
  | kept (earlier later : List (Call × List Char)) (place : Nat)
      (replacements_eq : replacements = earlier ++ later)
      (cursor_le : cursor ≤ place)
      (char : source[place]? = some c)
      (passed : ∀ e ∈ earlier, e.1.stop ≤ place)
      (ahead : ∀ e ∈ later, place < e.1.start)
      (front_eq : front = substituteFrom (source.take place) cursor earlier)
  | answered (earlier later : List (Call × List Char)) (call : Call) (a b : List Char)
      (replacements_eq : replacements = earlier ++ (call, a ++ c :: b) :: later)
      (front_eq : front = substituteFrom (source.take call.start) cursor earlier ++ a)

variable {source front back : List Char} {cursor place : Nat} {c : Char}
  {call : Call} {answer : List Char} {replacements : List (Call × List Char)}

namespace Fits

theorem tail (h : Fits source cursor ((call, answer) :: replacements)) :
    Fits source call.stop replacements where
  text e he := h.text e (List.mem_cons_of_mem _ he)
  stop e he := h.stop e (List.mem_cons_of_mem _ he)
  apart := (List.pairwise_cons.1 h.apart).2
  cursor := (List.pairwise_cons.1 h.apart).1

theorem start_le_stop (h : Fits source cursor ((call, answer) :: replacements)) :
    call.start ≤ call.stop :=
  Nat.le.intro (h.stop _ List.mem_cons_self).symm

/-- From the cursor on there is what stands in front of the first call, the call, and the rest. -/
theorem drop_eq (h : Fits source cursor ((call, answer) :: replacements)) :
    source.drop cursor =
      (source.drop cursor).take (call.start - cursor) ++ (call.text ++ source.drop call.stop) := by
  have hstart : cursor + (call.start - cursor) = call.start :=
    Nat.add_sub_cancel' (h.cursor _ List.mem_cons_self)
  rw [← h.text _ List.mem_cons_self]
  conv_lhs => rw [← List.take_append_drop (call.start - cursor) (source.drop cursor)]
  rw [List.drop_drop, hstart]

/-- What is behind the last call may be cut off. -/
theorem take (h : Fits source cursor replacements) (hplace : ∀ e ∈ replacements, e.1.stop ≤ place) :
    Fits (source.take place) cursor replacements where
  text e he := by
    have hstop := h.stop e he
    have hle := hplace e he
    rw [List.drop_take, List.drop_take, h.text e he, List.take_append,
      List.take_of_length_le (by omega)]
    congr 2
    omega
  stop := h.stop
  apart := h.apart
  cursor := h.cursor

theorem append_left {earlier later : List (Call × List Char)}
    (h : Fits source cursor (earlier ++ later)) : Fits source cursor earlier where
  text e he := h.text e (List.mem_append_left _ he)
  stop e he := h.stop e (List.mem_append_left _ he)
  apart := (List.pairwise_append.1 h.apart).1
  cursor e he := h.cursor e (List.mem_append_left _ he)

end Fits

/-- How many line feeds the calls hold. -/
def callFeeds : List (Call × List Char) → Nat
  | [] => 0
  | (call, _) :: rest => call.text.count '\n' + callFeeds rest

/-- How many line feeds the answers hold. -/
def answerFeeds : List (Call × List Char) → Nat
  | [] => 0
  | (_, answer) :: rest => answer.count '\n' + answerFeeds rest

/-- Counted over an outcome, the line feeds of the answers take the place of those of the calls. -/
theorem count_substituteFrom (h : Fits source cursor replacements) :
    (substituteFrom source cursor replacements).count '\n' + callFeeds replacements =
      (source.drop cursor).count '\n' + answerFeeds replacements := by
  induction replacements generalizing cursor with
  | nil => rfl
  | cons e replacements ih =>
      obtain ⟨call, answer⟩ := e
      have hrest := ih h.tail
      rw [h.drop_eq, substituteFrom, callFeeds, answerFeeds]
      simp only [List.count_append]
      omega

/-- What stands in front of a call is there in front of every later place. -/
theorem take_drop_take (hle : call.start ≤ place) :
    ((source.take place).drop cursor).take (call.start - cursor) =
      (source.drop cursor).take (call.start - cursor) := by
  rw [List.drop_take, List.take_take, Nat.min_eq_left (Nat.sub_le_sub_right hle cursor)]

/-- A character behind the first call comes from where it came from behind that call. -/
theorem Origin.behind (h : Origin source call.stop replacements front c)
    (hfits : Fits source cursor ((call, answer) :: replacements)) :
    Origin source cursor ((call, answer) :: replacements)
      ((source.drop cursor).take (call.start - cursor) ++ answer ++ front) c := by
  have hcursor : cursor ≤ call.start := hfits.cursor _ List.mem_cons_self
  have hstop := hfits.start_le_stop
  cases h with
  | kept earlier later place hreplacements hplace hchar hpassed hahead hfront =>
      refine .kept ((call, answer) :: earlier) later place (by rw [hreplacements]; rfl)
        (hcursor.trans (hstop.trans hplace)) hchar ?_ hahead ?_
      · exact List.forall_mem_cons.2 ⟨hplace, hpassed⟩
      · rw [substituteFrom, take_drop_take (hstop.trans hplace), hfront]
  | answered earlier later call' a b hreplacements hfront =>
      have hle : call.stop ≤ call'.start :=
        hfits.tail.cursor (call', a ++ c :: b) (by rw [hreplacements]; simp)
      refine .answered ((call, answer) :: earlier) later call' a b (by rw [hreplacements]; rfl) ?_
      rw [substituteFrom, take_drop_take (hstop.trans hle), hfront]
      simp only [List.append_assoc]

/-- A character in front of the calls is kept. -/
theorem Origin.of_drop {rest : List Char} (hdrop : source.drop cursor = front ++ c :: rest)
    (hahead : ∀ e ∈ replacements, cursor + front.length < e.1.start) :
    Origin source cursor replacements front c := by
  refine .kept [] replacements (cursor + front.length) rfl (Nat.le_add_right _ _) ?_
    (fun e he => absurd he List.not_mem_nil) hahead ?_
  · rw [← List.getElem?_drop, hdrop, List.getElem?_append_right (Nat.le_refl _), Nat.sub_self]
    rfl
  · rw [substituteFrom, List.drop_take, hdrop, Nat.add_sub_cancel_left, List.take_left]

/-- Every character of an outcome has an origin. -/
theorem origin_of_substituteFrom (h : Fits source cursor replacements)
    (hsplit : substituteFrom source cursor replacements = front ++ c :: back) :
    Origin source cursor replacements front c := by
  induction replacements generalizing cursor front with
  | nil => exact .of_drop hsplit fun e he => absurd he List.not_mem_nil
  | cons e replacements ih =>
      obtain ⟨call, answer⟩ := e
      rw [substituteFrom, List.append_assoc] at hsplit
      rcases append_eq_append_cons hsplit with ⟨b, hgap⟩ | ⟨a, rfl, hanswer⟩
      · have hahead : cursor + front.length < call.start := by
          have hle := List.length_take_le (call.start - cursor) (source.drop cursor)
          rw [hgap, List.length_append, List.length_cons] at hle
          omega
        have hdrop := h.drop_eq
        rw [hgap, List.append_assoc, List.cons_append] at hdrop
        refine .of_drop hdrop (List.forall_mem_cons.2 ⟨hahead, fun e he => ?_⟩)
        exact hahead.trans_le (h.start_le_stop.trans (h.tail.cursor e he))
      · rcases append_eq_append_cons hanswer with ⟨b, rfl⟩ | ⟨a, rfl, hrest⟩
        · exact .answered [] replacements call a b rfl (by
            rw [substituteFrom, List.drop_take])
        · rw [← List.append_assoc]
          exact (ih h.tail hrest).behind h

/-- The number of the line with the character at a place. -/
def lineAt (s : List Char) (place : Nat) : Nat := 1 + (s.take place).count '\n'

/-- How the number of a line with a character is related to the lines of the source. The calls in
front of the character take their line feeds away, and their answers bring others. -/
inductive LineOrigin (source : List Char) (replacements : List (Call × List Char)) (number : Nat)
    (c : Char) : Prop where
  | kept (earlier later : List (Call × List Char)) (place : Nat)
      (replacements_eq : replacements = earlier ++ later)
      (char : source[place]? = some c)
      (passed : ∀ e ∈ earlier, e.1.stop ≤ place)
      (ahead : ∀ e ∈ later, place < e.1.start)
      (line : number + callFeeds earlier = lineAt source place + answerFeeds earlier)
  | answered (earlier later : List (Call × List Char)) (call : Call) (a b : List Char)
      (replacements_eq : replacements = earlier ++ (call, a ++ c :: b) :: later)
      (line : number + callFeeds earlier =
        lineAt source call.start + answerFeeds earlier + a.count '\n')

theorem Origin.line (h : Origin source 0 replacements front c)
    (hfits : Fits source 0 replacements) :
    LineOrigin source replacements (1 + front.count '\n') c := by
  cases h with
  | kept earlier later place hreplacements hplace hchar hpassed hahead hfront =>
      refine .kept earlier later place hreplacements hchar hpassed hahead ?_
      rw [hreplacements] at hfits
      have hcount := count_substituteFrom (hfits.append_left.take hpassed)
      rw [← hfront, List.drop_zero] at hcount
      rw [lineAt]
      omega
  | answered earlier later call a b hreplacements hfront =>
      refine .answered earlier later call a b hreplacements ?_
      rw [hreplacements] at hfits
      have hpassed : ∀ e ∈ earlier, e.1.stop ≤ call.start := fun e he =>
        (List.pairwise_append.1 hfits.apart).2.2 e he _ List.mem_cons_self
      have hcount := count_substituteFrom (hfits.append_left.take hpassed)
      rw [List.drop_zero] at hcount
      rw [hfront, List.count_append, lineAt]
      omega

namespace Registry

variable {r : Registry} {text : String} {calls : List Call}

theorem map_fst_of_answers (h : r.answers calls = .ok replacements) :
    replacements.map Prod.fst = calls := by
  induction calls generalizing replacements with
  | nil =>
      cases h
      rfl
  | cons call calls ih =>
      rw [answers] at h
      split at h
      · cases h
      · split at h
        · cases h
        · next more hmore =>
          cases h
          rw [List.map_cons, ih hmore]

/-- The answers fit the text whose calls they answer. -/
theorem fits_of_answers (h : r.answers (spans r.names text) = .ok replacements) :
    Fits text.toList 0 replacements := by
  have hfst := map_fst_of_answers h
  have hstands : ∀ e ∈ replacements, e.1.StandsIn (byLength r.names) text.toList := fun e he =>
    standsIn_calls e.1 (by
      rw [← spans, ← hfst]
      exact List.mem_map_of_mem he)
  refine ⟨fun e he => drop_of_standsIn (hstands e he), fun e he => ?_, ?_, fun _ _ => Nat.zero_le _⟩
  · obtain ⟨before, after, -, hbetween⟩ := hstands e he
    exact hbetween.stop
  · have hpairwise := pairwise_calls (byLength r.names) text.toList
    rw [← spans, ← hfst, List.pairwise_map] at hpairwise
    exact hpairwise

/-- An expansion puts the answers in the place of the spans. -/
theorem answers_of_expand {expansion : Expansion} (h : r.expand text = .ok expansion) :
    ∃ replacements, r.answers (spans r.names text) = .ok replacements ∧
      expansion.text.toList = substitute text.toList replacements := by
  rw [expand_eq] at h
  split at h
  · next hspans =>
    cases h
    exact ⟨[], by rw [hspans, answers], rfl⟩
  · next hspans =>
    rw [← hspans] at h
    split at h
    · cases h
    · next replacements hanswers =>
      cases h
      exact ⟨replacements, hanswers, String.toList_ofList⟩

end Registry

end StyleBuild.Substitution
