import Mathlib.Data.List.Infix
import StyleBuild.Substitution.Call

/-!
# The calls that stand in a text

`Call.StandsIn` says where a call may be replaced: the text there is exactly
`name(arguments)`, a boundary is in front of it, it starts in no literal and
behind no `@function`, and its closing parenthesis is the one that matches.
Every call that is found stands in the text (`standsIn_calls`), and the calls
are in order and apart (`pairwise_calls`).
-/

namespace StyleBuild.Substitution

open Text

/-- The characters of a call. -/
def Call.text (c : Call) : List Char := c.name ++ '(' :: (c.arguments ++ [')'])

theorem Call.length_text (c : Call) :
    c.text.length = c.name.length + c.arguments.length + 2 := by
  simp only [Call.text, List.length_append, List.length_cons, List.length_nil]
  omega

theorem Call.text_append (c : Call) (s : List Char) :
    c.text ++ s = (c.name ++ ['(']) ++ (c.arguments ++ ')' :: s) := by
  simp [Call.text]

/-- The call stands between these two texts, and may be replaced there. -/
structure Call.StandsBetween (names : List (List Char)) (regions : List Region)
    (before after : List Char) (c : Call) : Prop where
  name : c.name ∈ names
  start : c.start = before.length
  stop : c.stop = c.start + c.text.length
  boundary : ∀ b, before.getLast? = some b → isWord b = false ∧ b ≠ '$' ∧ b ≠ '-' ∧ b ≠ '.'
  outside : ∀ r ∈ regions, r.has c.start = false
  no_definition : ¬ "@function".toList <:+ trimEnd before
  closing : closingOffset (.code 0) (c.arguments ++ ')' :: after) = some c.arguments.length

def Call.StandsIn (names : List (List Char)) (source : List Char) (c : Call) : Prop :=
  ∃ before after, source = before ++ (c.text ++ after) ∧
    c.StandsBetween names (literalRegions source) before after

theorem isBoundary_iff (b : Char) :
    isBoundary b = true ↔ isWord b = false ∧ b ≠ '$' ∧ b ≠ '-' ∧ b ≠ '.' := by
  simp [isBoundary, and_assoc]

theorem nameAt?_eq_some {names : List (List Char)} {s name rest : List Char}
    (h : nameAt? names s = some (name, rest)) : name ∈ names ∧ s = name ++ '(' :: rest := by
  obtain ⟨name', hname, h⟩ := List.exists_of_findSome?_eq_some h
  obtain ⟨rest', hrest, he⟩ := Option.map_eq_some_iff.1 h
  cases he
  refine ⟨hname, ?_⟩
  rw [(afterStart?_eq_some_iff _ _ _).1 hrest]
  simp

theorem ParenState.eq_of_next_eq_none {state : ParenState} {c : Char} (h : state.next c = none) :
    c = ')' := by
  cases state with
  | escaped depth quote => cases h
  | string depth quote =>
      rw [next] at h
      split at h
      · cases h
      · split at h <;> cases h
  | code depth =>
      rw [next] at h
      split at h
      · cases h
      · split at h
        · cases h
        · split at h
          · assumption
          · cases h

/-- The offset that is found is the one of a closing parenthesis. -/
theorem eq_of_closingOffset {state : ParenState} {s : List Char} {n : Nat}
    (h : closingOffset state s = some n) : ∃ after, s = s.take n ++ ')' :: after := by
  induction s generalizing state n with
  | nil => cases h
  | cons c s ih =>
      rw [closingOffset] at h
      split at h
      · next hnext =>
        cases h
        exact ⟨s, by rw [ParenState.eq_of_next_eq_none hnext]; rfl⟩
      · obtain ⟨m, hm, rfl⟩ := Option.map_eq_some_iff.1 h
        obtain ⟨after, hafter⟩ := ih hm
        exact ⟨after, by rw [List.take_succ_cons, List.cons_append, ← hafter]⟩

theorem followsDefinition_iff (before : List Char) :
    followsDefinition before = true ↔ "@function".toList <:+ trimEnd before.reverse := by
  have htrim : trimEnd before.reverse = (trimStart before).reverse := by
    rw [trimEnd, trimStart, List.reverse_reverse]
  rw [followsDefinition, startsWith_iff, htrim]
  constructor
  · rintro ⟨rest, hrest⟩
    refine ⟨rest.reverse, ?_⟩
    rw [hrest, List.reverse_append]
    rfl
  · rintro ⟨rest, hrest⟩
    refine ⟨rest.reverse, ?_⟩
    have hback := congrArg List.reverse hrest
    rw [List.reverse_append, List.reverse_reverse] at hback
    rw [← hback]
    rfl

section Sight

variable {names : List (List Char)} {regions : List Region} {before s name rest : List Char}
variable {position : Nat} {c : Call}

/-- A call that is judged to be one stands where it was seen. -/
theorem standsBetween_of_sight (hname : nameAt? names s = some (name, rest))
    (hsight : sight regions before position name rest = .call c)
    (hposition : position = before.length)
    (hboundary : ∀ b, before.head? = some b → isBoundary b = true) :
    c.start = position ∧ ∃ after, s = c.text ++ after ∧
      c.StandsBetween names regions before.reverse after := by
  obtain ⟨hmem, hs⟩ := nameAt?_eq_some hname
  unfold sight at hsight
  split at hsight
  · cases hsight
  · next hfind =>
    split at hsight
    · cases hsight
    · next n hn =>
      cases hsight
      split at hn
      · cases hn
      · next hfollows =>
        obtain ⟨after, hafter⟩ := eq_of_closingOffset hn
        have hlength : (rest.take n).length = n :=
          List.length_take_of_le (closingOffset_lt _ _ _ hn).le
        refine ⟨rfl, after, ?_, hmem, by simp [hposition], ?_, fun b hb => ?_, fun r hr => ?_,
          fun hdef => hfollows ((followsDefinition_iff before).2 hdef), ?_⟩
        · rw [hs]
          nth_rewrite 1 [hafter]
          simp [Call.text]
        · simp only [Call.text, List.length_append, List.length_cons, List.length_nil, hlength]
          omega
        · rw [List.getLast?_reverse] at hb
          exact (isBoundary_iff b).1 (hboundary b hb)
        · exact Bool.eq_false_iff.2 (List.find?_eq_none.1 hfind r hr)
        · rw [← hafter, hlength]
          exact hn

end Sight

/-- Every call that is found from a position on stands in the text, at or behind that position. -/
theorem standsBetween_callsFrom {names : List (List Char)} {regions : List Region}
    {before s : List Char} {position skip : Nat} {free : Bool}
    (hposition : position = before.length)
    (hboundary : free = true → ∀ b, before.head? = some b → isBoundary b = true) :
    ∀ c ∈ callsFrom names regions before position skip free s,
      position + skip ≤ c.start ∧ ∃ front after, before.reverse ++ s = front ++ (c.text ++ after) ∧
        c.StandsBetween names regions front after := by
  induction s generalizing before position skip free with
  | nil =>
      intro c hc
      cases hc
  | cons a s ih =>
      have hnext : position + 1 = (a :: before).length := by
        rw [hposition, List.length_cons]
      have hlater : ∀ {skip free}, (free = true → isBoundary a = true) →
          ∀ c ∈ callsFrom names regions (a :: before) (position + 1) skip free s,
            position + 1 + skip ≤ c.start ∧ ∃ front after,
              before.reverse ++ a :: s = front ++ (c.text ++ after) ∧
                c.StandsBetween names regions front after := by
        intro skip free hfree c hc
        have hhead : free = true → ∀ b, (a :: before).head? = some b → isBoundary b = true := by
          intro hf b hb
          cases hb
          exact hfree hf
        have hthis := ih hnext hhead c hc
        simpa using hthis
      intro c hc
      cases skip with
      | succ skip =>
          rw [callsFrom] at hc
          obtain ⟨hle, hstands⟩ := hlater (fun hf => by cases hf) c hc
          exact ⟨by omega, hstands⟩
      | zero =>
          rw [callsFrom] at hc
          split at hc
          · obtain ⟨hle, hstands⟩ := hlater (fun hf => hf) c hc
            exact ⟨by omega, hstands⟩
          · next name rest hname =>
            split at hname
            · next hfree =>
              split at hc
              · obtain ⟨hle, hstands⟩ := hlater (fun hf => by cases hf) c hc
                exact ⟨by omega, hstands⟩
              · next call hsight =>
                obtain ⟨hstart, after, htext, hbetween⟩ :=
                  standsBetween_of_sight hname hsight hposition (hboundary hfree)
                rcases List.mem_cons.1 hc with rfl | hc
                · exact ⟨by omega, before.reverse, after, by rw [htext], hbetween⟩
                · obtain ⟨hle, hstands⟩ := hlater (fun hf => by cases hf) c hc
                  exact ⟨by omega, hstands⟩
            · cases hname

theorem pairwise_callsFrom {names : List (List Char)} {regions : List Region}
    {before s : List Char} {position skip : Nat} {free : Bool}
    (hposition : position = before.length) :
    (callsFrom names regions before position skip free s).Pairwise fun a b => a.stop ≤ b.start := by
  induction s generalizing before position skip free with
  | nil => exact List.Pairwise.nil
  | cons a s ih =>
      have hnext : position + 1 = (a :: before).length := by
        rw [hposition, List.length_cons]
      cases skip with
      | succ skip =>
          rw [callsFrom]
          exact ih hnext
      | zero =>
          rw [callsFrom]
          split
          · exact ih hnext
          · split
            · exact ih hnext
            · next call hsight =>
              refine List.pairwise_cons.2 ⟨fun c hc => ?_, ih hnext⟩
              obtain ⟨hle, -⟩ := standsBetween_callsFrom hnext (fun hf => by cases hf) c hc
              omega

theorem standsIn_calls {names : List (List Char)} {source : List Char} :
    ∀ c ∈ calls names source, c.StandsIn names source := by
  intro c hc
  obtain ⟨-, front, after, htext, hbetween⟩ :=
    standsBetween_callsFrom rfl (fun _ b hb => by cases hb) c hc
  exact ⟨front, after, htext, hbetween⟩

theorem pairwise_calls (names : List (List Char)) (source : List Char) :
    (calls names source).Pairwise fun a b => a.stop ≤ b.start :=
  pairwise_callsFrom rfl

/-- Without names there are no calls. -/
theorem calls_nil (source : List Char) : calls [] source = [] := by
  have hfrom : ∀ (s before : List Char) (regions : List Region) (position skip : Nat) (free : Bool),
      callsFrom [] regions before position skip free s = [] := by
    intro s
    induction s with
    | nil => intros; rfl
    | cons a s ih =>
        intro before regions position skip free
        have hnone : (if free then nameAt? [] (a :: s) else none) = none := by
          cases free <;> rfl
        cases skip with
        | succ skip =>
            rw [callsFrom]
            exact ih _ _ _ _ _
        | zero =>
            rw [callsFrom, hnone]
            exact ih _ _ _ _ _
  exact hfrom _ _ _ _ _ _

end StyleBuild.Substitution
