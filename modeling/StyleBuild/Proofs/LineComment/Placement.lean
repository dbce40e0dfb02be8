import Mathlib.Data.List.Basic
import StyleBuild.Proofs.LineComment.Scanner

/-!
# Where line comments are placed

The text that is annotated is its lines, with a comment before some of them
(`annotate_eq`): those whose number is in `ruleLines`. The first character that
shows on such a line may start a style rule, and the number is that of its line
(`startsRule_of_mem`).
-/

namespace StyleBuild.LineComment

open Text

/-- The numbers of the lines that get a comment, of lines of which the first has this number. -/
def ruleLinesFrom (number : Nat) (n : Nesting) : List (List Char) → List Nat
  | [] => []
  | line :: lines =>
    (if n.betweenStatements && opensRule line then [number] else []) ++
      ruleLinesFrom (number + 1) (n.feed line) lines

/-- The numbers of the lines of a text that get a comment. -/
def ruleLines (s : List Char) : List Nat := ruleLinesFrom 1 .outside (keptLines s)

/-- Lines, with a comment before each one whose number is listed. -/
def withComments (file : String) (numbers : List Nat) (number : Nat) : List (List Char) → List Char
  | [] => []
  | line :: lines =>
    (if number ∈ numbers then comment number file else []) ++ line ++
      withComments file numbers (number + 1) lines

/-- A style rule may start with the character behind `front`: it is the first one that shows on its
line, and nothing else starts with it. -/
structure StartsRule (s front : List Char) (c : Char) : Prop where
  text : ∃ back, s = front ++ c :: back
  line : ∃ above blanks, front = above ++ blanks ∧ (∀ b, above.getLast? = some b → b = '\n') ∧
    ∀ b ∈ blanks, isBlank b = true ∧ b ≠ '\n'
  shows : isBlank c = false
  opens : c ∉ ['@', '$', '%', '/', '}', '{', ')']

variable {file : String} {number N : Nat} {n : Nesting} {s t front line : List Char} {c : Char}
  {lines : List (List Char)}

theorem mem_ruleLinesFrom_cons :
    N ∈ ruleLinesFrom number n (line :: lines) ↔
      (N = number ∧ (n.betweenStatements && opensRule line) = true) ∨
        N ∈ ruleLinesFrom (number + 1) (n.feed line) lines := by
  rw [ruleLinesFrom, List.mem_append]
  refine or_congr ?_ Iff.rfl
  split <;> simp_all

/-- A line gets a comment when it stands between statements and may start a rule. -/
theorem mem_ruleLinesFrom_iff :
    N ∈ ruleLinesFrom number n lines ↔ ∃ k line, lines[k]? = some line ∧ N = number + k ∧
      ((lines.take k).foldl Nesting.feed n).betweenStatements = true ∧ opensRule line = true := by
  induction lines generalizing number n with
  | nil => simp [ruleLinesFrom]
  | cons line lines ih =>
      rw [mem_ruleLinesFrom_cons, ih, Bool.and_eq_true_iff]
      constructor
      · rintro (⟨rfl, hbetween, hopens⟩ | ⟨k, line', hline, rfl, hbetween, hopens⟩)
        · exact ⟨0, line, rfl, rfl, hbetween, hopens⟩
        · exact ⟨k + 1, line', hline, Nat.succ_add_eq_add_succ number k, hbetween, hopens⟩
      · rintro ⟨k, line', hline, rfl, hbetween, hopens⟩
        cases k with
        | zero =>
            cases hline
            exact Or.inl ⟨rfl, hbetween, hopens⟩
        | succ k =>
            exact Or.inr ⟨k, line', hline, (Nat.succ_add_eq_add_succ number k).symm, hbetween,
              hopens⟩

theorem le_of_mem_ruleLinesFrom (h : N ∈ ruleLinesFrom number n lines) : number ≤ N := by
  induction lines generalizing number n with
  | nil => cases h
  | cons line lines ih =>
      rcases mem_ruleLinesFrom_cons.1 h with ⟨rfl, -⟩ | h
      · exact Nat.le_refl N
      · exact Nat.le_of_succ_le (ih h)

theorem withComments_congr {numbers numbers' : List Nat}
    (h : ∀ k, number ≤ k → (k ∈ numbers ↔ k ∈ numbers')) :
    withComments file numbers number lines = withComments file numbers' number lines := by
  induction lines generalizing number with
  | nil => rfl
  | cons line lines ih =>
      rw [withComments, withComments, ih fun k hk => h k (Nat.le_of_succ_le hk)]
      simp only [h number (Nat.le_refl number)]

theorem annotateFrom_eq (file : String) (number : Nat) (n : Nesting) (lines : List (List Char)) :
    annotateFrom file number n lines =
      withComments file (ruleLinesFrom number n lines) number lines := by
  induction lines generalizing number n with
  | nil => rfl
  | cons line lines ih =>
      have hfirst : number ∈ ruleLinesFrom number n (line :: lines) ↔
          (n.betweenStatements && opensRule line) = true := by
        rw [mem_ruleLinesFrom_cons]
        refine ⟨fun h => ?_, fun h => Or.inl ⟨rfl, h⟩⟩
        rcases h with h | h
        · exact h.2
        · exact absurd (le_of_mem_ruleLinesFrom h) (Nat.lt_irrefl number)
      have hrest :
          withComments file (ruleLinesFrom number n (line :: lines)) (number + 1) lines =
            withComments file (ruleLinesFrom (number + 1) (n.feed line) lines) (number + 1)
              lines := by
        refine withComments_congr fun k hk => ?_
        rw [mem_ruleLinesFrom_cons, or_iff_right]
        rintro ⟨rfl, -⟩
        exact Nat.lt_irrefl k hk
      rw [annotateFrom, withComments, hrest, ← ih]
      simp only [hfirst]

/-- An annotated text is its lines, with a comment before those where a rule starts. -/
theorem annotate_eq (source file : String) :
    annotate source file =
      String.ofList (withComments file (ruleLines source.toList) 1 (keptLines source.toList)) := by
  rw [annotate, annotateFrom_eq]
  rfl

/-- Only blanks stand in front of the character that opens a rule on a line, and no line feed. -/
theorem startsRule_of_opensRule (hline : '\n' ∉ line.dropLast) (h : opensRule line = true)
    (t : List Char) : ∃ front c, StartsRule (line ++ t) front c ∧ front.count '\n' = 0 := by
  have hsplit := @List.takeWhile_append_dropWhile _ isBlank line
  have hblanks : ∀ b ∈ line.takeWhile isBlank, isBlank b = true :=
    List.all_eq_true.1 List.all_takeWhile
  unfold opensRule trimStart at h
  split at h
  · cases h
  · next c back hback =>
    have hshows : isBlank c = false := by
      have hhead := List.head?_dropWhile_not isBlank line
      rw [hback] at hhead
      simpa using hhead
    rw [hback] at hsplit
    have hnewline : '\n' ∉ line.takeWhile isBlank := by
      rw [← hsplit, List.dropLast_append_of_ne_nil (List.cons_ne_nil c back)] at hline
      exact fun hmem => hline (List.mem_append_left _ hmem)
    refine ⟨line.takeWhile isBlank, c, ⟨⟨back ++ t, ?_⟩, ⟨[], _, rfl, ?_, ?_⟩, hshows, ?_⟩, ?_⟩
    · conv_lhs => rw [← hsplit, List.append_assoc, List.cons_append]
    · exact fun b hb => by cases hb
    · exact fun b hb => ⟨hblanks b hb, fun heq => hnewline (heq ▸ hb)⟩
    · simpa using h
    · exact List.count_eq_zero.2 hnewline

theorem StartsRule.behind_line (h : StartsRule t front c) (s : List Char) :
    StartsRule (s ++ '\n' :: t) (s ++ '\n' :: front) c := by
  obtain ⟨back, htext⟩ := h.text
  obtain ⟨above, blanks, hfront, habove, hblanks⟩ := h.line
  refine ⟨⟨back, ?_⟩, ⟨s ++ '\n' :: above, blanks, ?_, ?_, hblanks⟩, h.shows, h.opens⟩
  · rw [htext, List.append_assoc, List.cons_append]
  · rw [hfront, List.append_assoc, List.cons_append]
  · intro b hb
    rw [List.getLast?_append, List.getLast?_cons] at hb
    cases hlast : above.getLast? with
    | none => simpa [hlast] using hb.symm
    | some a =>
        have hb' : a = b := by simpa [hlast] using hb
        exact habove b (by rw [hlast, hb'])

theorem startsRule_of_mem_from (h : N ∈ ruleLinesFrom number n (keptLines s)) :
    ∃ front c, StartsRule s front c ∧ number + front.count '\n' = N := by
  induction s using line_induction generalizing number n with
  | nil => cases h
  | last s hne hs =>
      rw [keptLines_of_notMem hs hne, mem_ruleLinesFrom_cons] at h
      rcases h with ⟨rfl, h⟩ | h
      · obtain ⟨front, c, hstarts, hcount⟩ :=
          startsRule_of_opensRule (fun hmem => hs (List.dropLast_subset s hmem))
            (Bool.and_eq_true_iff.1 h).2 []
        rw [List.append_nil] at hstarts
        exact ⟨front, c, hstarts, by rw [hcount, Nat.add_zero]⟩
      · cases h
  | line s t hs ih =>
      rw [keptLines_append_newline hs, mem_ruleLinesFrom_cons] at h
      rcases h with ⟨rfl, h⟩ | h
      · obtain ⟨front, c, hstarts, hcount⟩ :=
          startsRule_of_opensRule (by rwa [List.dropLast_concat])
            (Bool.and_eq_true_iff.1 h).2 t
        rw [← List.append_cons] at hstarts
        exact ⟨front, c, hstarts, by rw [hcount, Nat.add_zero]⟩
      · obtain ⟨front, c, hstarts, hnumber⟩ := ih h
        refine ⟨s ++ '\n' :: front, c, hstarts.behind_line s, ?_⟩
        rw [List.count_append, List.count_cons_self, List.count_eq_zero.2 hs]
        omega

/-- A comment names the line on which, in the annotated text, a rule may start. -/
theorem startsRule_of_mem (h : N ∈ ruleLines s) :
    ∃ front c, StartsRule s front c ∧ 1 + front.count '\n' = N :=
  startsRule_of_mem_from h

end StyleBuild.LineComment
