import Mathlib.Data.List.Basic
import Mathlib.Data.List.Chain
import StyleBuild.Text.Lines

/-!
# Lines, and pairs of characters

What `keptLines` makes of a text that starts with a given character or line, and
the induction over the lines of a text (`line_induction`). A pair of characters
is in two texts put together when it is in one of them or goes across
(`not_infix_pair_append_iff`).
-/

namespace StyleBuild.Text

theorem keptLines_cons {c : Char} (hc : c ≠ '\n') (s : List Char) :
    keptLines (c :: s) =
      match keptLines s with
      | [] => [[c]]
      | l :: ls => (c :: l) :: ls := by
  rw [keptLines]
  exact if_neg hc

theorem keptLines_newline (s : List Char) : keptLines ('\n' :: s) = ['\n'] :: keptLines s := by
  rw [keptLines, if_pos rfl]

/-- The first line starts like the text. -/
theorem head?_of_keptLines_eq {s l : List Char} {ls : List (List Char)}
    (h : keptLines s = l :: ls) : l.head? = s.head? := by
  have hne := ne_nil_of_mem_keptLines s l (h ▸ List.mem_cons_self)
  have hflatten := flatten_keptLines s
  rw [h, List.flatten_cons] at hflatten
  obtain ⟨c, l, rfl⟩ := List.exists_cons_of_ne_nil hne
  rw [← hflatten]
  rfl

theorem keptLines_eq_nil_iff {s : List Char} : keptLines s = [] ↔ s = [] := by
  constructor
  · intro h
    rw [← flatten_keptLines s, h, List.flatten_nil]
  · rintro rfl
    rfl

/-- A text without line feeds belongs to the line that follows it. -/
theorem keptLines_append_newline {s : List Char} (hs : '\n' ∉ s) (t : List Char) :
    keptLines (s ++ '\n' :: t) = (s ++ ['\n']) :: keptLines t := by
  induction s with
  | nil => exact keptLines_newline t
  | cons c s ih =>
      obtain ⟨hc, hs⟩ := not_or.1 (List.mem_cons.not.1 hs)
      rw [List.cons_append, keptLines_cons (Ne.symm hc), ih hs]
      rfl

theorem keptLines_of_notMem {s : List Char} (hs : '\n' ∉ s) (hne : s ≠ []) : keptLines s = [s] := by
  induction s with
  | nil => exact absurd rfl hne
  | cons c s ih =>
      obtain ⟨hc, hs⟩ := not_or.1 (List.mem_cons.not.1 hs)
      rw [keptLines_cons (Ne.symm hc)]
      rcases eq_or_ne s [] with rfl | hne
      · rfl
      · rw [ih hs hne]

/-- A text is read line by line; the last line may have no line feed. -/
@[elab_as_elim]
theorem line_induction {motive : List Char → Prop} (nil : motive [])
    (last : ∀ s, s ≠ [] → '\n' ∉ s → motive s)
    (line : ∀ s t, '\n' ∉ s → motive t → motive (s ++ '\n' :: t)) (s : List Char) : motive s := by
  induction hlength : s.length using Nat.strongRecOn generalizing s with
  | ind n ih =>
      subst hlength
      by_cases hmem : '\n' ∈ s
      · obtain ⟨front, back, rfl, hfront⟩ := List.eq_append_cons_of_mem hmem
        refine line front back hfront (ih _ ?_ _ rfl)
        rw [List.length_append, List.length_cons]
        omega
      · rcases eq_or_ne s [] with rfl | hne
        · exact nil
        · exact last s hne hmem

/-- The first lines of a text are the lines of what they make up together. -/
theorem keptLines_flatten_take (s : List Char) (k : Nat) :
    keptLines ((keptLines s).take k).flatten = (keptLines s).take k := by
  induction s using line_induction generalizing k with
  | nil => simp [keptLines]
  | last s hne hs =>
      cases k with
      | zero => rfl
      | succ k =>
          rw [keptLines_of_notMem hs hne, List.take_succ_cons, List.take_nil,
            List.flatten_singleton, keptLines_of_notMem hs hne]
  | line s t hs ih =>
      cases k with
      | zero => rfl
      | succ k =>
          rw [keptLines_append_newline hs, List.take_succ_cons, List.flatten_cons,
            List.append_assoc, List.singleton_append, keptLines_append_newline hs, ih]

/-- What stands above a line ends with a line feed. -/
theorem getLast?_flatten_take {s : List Char} {k : Nat} (hk : k < (keptLines s).length)
    (hne : ((keptLines s).take k).flatten ≠ []) :
    ((keptLines s).take k).flatten.getLast? = some '\n' := by
  induction s using line_induction generalizing k with
  | nil => exact absurd hk (Nat.not_lt_zero k)
  | last s hs hline =>
      rw [keptLines_of_notMem hline hs, List.length_singleton, Nat.lt_one_iff] at hk
      exact absurd (by rw [hk]; rfl) hne
  | line s t hs ih =>
      rw [keptLines_append_newline hs] at hk hne ⊢
      cases k with
      | zero => exact absurd rfl hne
      | succ k =>
          rw [List.take_succ_cons, List.flatten_cons, List.getLast?_append]
          rcases eq_or_ne ((keptLines t).take k).flatten [] with hnil | habove
          · rw [hnil, List.getLast?_concat]
            rfl
          · rw [ih (Nat.lt_of_succ_lt_succ hk) habove]
            rfl

section Pair

variable {α : Type} {a b : α} {s t : List α}

theorem not_infix_pair_iff : ¬ [a, b] <:+: s ↔ s.IsChain fun x y => ¬ (x = a ∧ y = b) := by
  rw [List.isChain_iff_forall_rel_of_append_cons_cons]
  constructor
  · rintro h x y front back rfl ⟨rfl, rfl⟩
    exact h ⟨front, back, by simp⟩
  · rintro h ⟨front, back, rfl⟩
    exact h (List.append_assoc front [a, b] back) ⟨rfl, rfl⟩

/-- A pair is in two texts put together when it is in one of them or goes across. -/
theorem not_infix_pair_append_iff : ¬ [a, b] <:+: s ++ t ↔
    ¬ [a, b] <:+: s ∧ ¬ [a, b] <:+: t ∧ ¬ (s.getLast? = some a ∧ t.head? = some b) := by
  simp only [not_infix_pair_iff, List.isChain_append, Option.mem_def]
  refine and_congr_right fun _ => and_congr_right fun _ => ?_
  constructor
  · exact fun h hacross => h a hacross.1 b hacross.2 ⟨rfl, rfl⟩
  · rintro h x hx y hy ⟨rfl, rfl⟩
    exact h ⟨hx, hy⟩

end Pair

end StyleBuild.Text
