import Mathlib.Data.List.Basic
import Mathlib.Data.List.Induction
import StyleBuild.Proofs.Engine.Dialogue

/-!
# Question after question

The files of a compilation are asked one question after the other, whether there
is a file at a path or for its text, and the importer need not answer the same
way at all times. A turn is a question together with the request as it stands
then; `after` is the state that some turns lead to, and a dialogue leads to no
other states (`Dialogue.exists_turns`).

What is kept for a path is the answer that was given for it, whatever its
spelling: one turn either keeps it or gives the first one (`known?_take`), and
so the answers that are kept are those that were given (`known?_after_iff`).
-/

namespace StyleBuild

namespace ImportFiles

/-- What is asked about a path. -/
inductive Question where
  | isFile
  | text
  deriving DecidableEq, Repr

/-- A question about a path, and the request that it is answered with. -/
structure Turn where
  request : CompileRequest
  question : Question
  path : Path

/-- The import that a question is answered with; there is a file when there is one. -/
def Turn.answer? (t : Turn) (s : ImportFiles) : Option ResolvedImport :=
  (s.lookup t.request.importer.resolve t.path).1

/-- The files once the question is answered. -/
def Turn.take (t : Turn) (s : ImportFiles) : ImportFiles :=
  match t.question with
  | .isFile => (s.lookup t.request.importer.resolve t.path).2
  | .text => (s.read t.request t.path).2

def after (s : ImportFiles) (turns : List Turn) : ImportFiles :=
  turns.foldl (fun s t => t.take s) s

/-- One of the turns was about this path, in whatever spelling, and was answered with this
import. -/
def Answered (turns : List Turn) (p : Path) (hit : ResolvedImport) : Prop :=
  ∃ front t back, turns = front ++ t :: back ∧ t.path.components = p.components ∧
    t.answer? (empty.after front) = some hit

variable {s : ImportFiles} {turns : List Turn} {t : Turn} {p q : Path} {hit : ResolvedImport}

@[simp] theorem after_cons (s : ImportFiles) (t : Turn) (turns : List Turn) :
    s.after (t :: turns) = (t.take s).after turns := rfl

theorem after_append (s : ImportFiles) (front back : List Turn) :
    s.after (front ++ back) = (s.after front).after back := List.foldl_append

theorem after_concat (s : ImportFiles) (turns : List Turn) (t : Turn) :
    s.after (turns ++ [t]) = t.take (s.after turns) := List.foldl_append

theorem known?_congr (s : ImportFiles) (h : p.components = q.components) :
    s.known? p = s.known? q := by
  rw [known?, known?, h]

theorem lookup_of_known? (h : s.known? p = some hit) (resolve : String → Option ResolvedImport) :
    s.lookup resolve p = (some hit, s) := by
  rw [lookup, h]

theorem lookup_of_known?_eq_none (h : s.known? p = none)
    (resolve : String → Option ResolvedImport) :
    s.lookup resolve p =
      match s.find resolve p with
      | some hit => (some hit, s.found p hit)
      | none => (none, s) := by
  rw [lookup, h]
  rfl

theorem answer?_of_known? (h : s.known? t.path = some hit) : t.answer? s = some hit := by
  rw [Turn.answer?, lookup_of_known? h]

theorem answer?_of_known?_eq_none (h : s.known? t.path = none) :
    t.answer? s = s.find t.request.importer.resolve t.path := by
  rw [Turn.answer?, lookup_of_known?_eq_none h]
  cases s.find t.request.importer.resolve t.path <;> rfl

/-- A file that is known is what is read. -/
theorem read_of_known? (h : s.known? p = some hit) (request : CompileRequest) :
    s.read request p = s.taken hit (load request hit) := by
  rw [read_eq, lookup_of_known? h]
  rfl

theorem resolved_taken (s : ImportFiles) (hit : ResolvedImport) (loaded : Except Error String) :
    (s.taken hit loaded).2.resolved = s.resolved := by
  cases loaded with
  | ok text =>
      rw [taken, addSource]
      split <;> rfl
  | error e => rfl

/-- A text is asked for with the same look-up as a file. -/
theorem resolved_take_eq_lookup (t : Turn) (s : ImportFiles) :
    (t.take s).resolved = (s.lookup t.request.importer.resolve t.path).2.resolved := by
  unfold Turn.take
  split
  · rfl
  · rw [read_eq]
    cases s.lookup t.request.importer.resolve t.path with
    | mk hit? u =>
        cases hit? with
        | none => rfl
        | some hit => exact resolved_taken u hit _

/-- A path is added when it is found for the first time. -/
theorem resolved_take (t : Turn) (s : ImportFiles) :
    (t.take s).resolved =
      match s.known? t.path with
      | some _ => s.resolved
      | none => s.resolved ++ ((t.answer? s).map fun hit => (t.path, hit)).toList := by
  rw [resolved_take_eq_lookup]
  cases hknown : s.known? t.path with
  | some hit => rw [lookup_of_known? hknown]
  | none =>
      rw [answer?_of_known?_eq_none hknown, lookup_of_known?_eq_none hknown]
      cases s.find t.request.importer.resolve t.path with
      | none => simp
      | some hit => rfl

/-- What is kept stays, and the first answer is kept. -/
theorem known?_take (t : Turn) (s : ImportFiles) (p : Path) :
    (t.take s).known? p =
      (s.known? p).or (if t.path.components = p.components then t.answer? s else none) := by
  by_cases hsame : t.path.components = p.components
  · rw [if_pos hsame, ← known?_congr s hsame, known?, resolved_take, ← hsame]
    cases hknown : s.known? t.path with
    | some hit => exact hknown
    | none =>
        rw [known?] at hknown
        rw [List.find?_append, Option.map_eq_none_iff.1 hknown]
        cases t.answer? s <;> simp
  · rw [if_neg hsame, Option.or_none, known?, resolved_take]
    cases s.known? t.path with
    | some hit => rfl
    | none =>
        rw [List.find?_append]
        cases t.answer? s <;> simp [hsame, known?]

theorem known?_after (h : s.known? p = some hit) (turns : List Turn) :
    (s.after turns).known? p = some hit := by
  induction turns generalizing s with
  | nil => exact h
  | cons t turns ih => exact ih (by rw [known?_take, h]; rfl)

/-- What is kept for a path was answered in some turn, and for the first time. -/
theorem exists_first (h : (empty.after turns).known? p = some hit) :
    ∃ front first back, turns = front ++ first :: back ∧ first.path.components = p.components ∧
      (empty.after front).known? p = none ∧ first.answer? (empty.after front) = some hit := by
  induction turns using List.reverseRecOn with
  | nil => cases h
  | append_singleton turns t ih =>
      rw [after_concat, known?_take] at h
      cases hknown : (empty.after turns).known? p with
      | some hit' =>
          rw [hknown] at h
          obtain ⟨front, first, back, rfl, hfirst⟩ := ih (hknown.trans h)
          exact ⟨front, first, back ++ [t], by simp, hfirst⟩
      | none =>
          rw [hknown, Option.none_or] at h
          split at h
          · next hsame => exact ⟨turns, t, [], rfl, hsame, hknown, h⟩
          · cases h

/-- The answers that are kept are those that were given. -/
theorem known?_after_iff : (empty.after turns).known? p = some hit ↔ Answered turns p hit := by
  constructor
  · intro h
    obtain ⟨front, first, back, hturns, hsame, -, hanswer⟩ := exists_first h
    exact ⟨front, first, back, hturns, hsame, hanswer⟩
  · rintro ⟨front, t, back, rfl, hsame, hanswer⟩
    rw [after_append, after_cons]
    apply known?_after
    rw [known?_take, if_pos hsame, hanswer, ← known?_congr _ hsame]
    cases hknown : (empty.after front).known? t.path with
    | none => rfl
    | some hit' =>
        rw [answer?_of_known? hknown] at hanswer
        exact hanswer

theorem known?_after_eq_none_iff :
    (empty.after turns).known? p = none ↔ ∀ hit, ¬ Answered turns p hit := by
  simp only [← known?_after_iff, Option.eq_none_iff_forall_ne_some, ne_eq]

/-- The paths that are kept are those of the turns in which something was found for the first
time, as they were spelled then. -/
theorem mem_resolved_after_iff : (p, hit) ∈ (empty.after turns).resolved ↔
    ∃ front t back, turns = front ++ t :: back ∧ t.path = p ∧ (∀ hit', ¬ Answered front p hit') ∧
      t.answer? (empty.after front) = some hit := by
  induction turns using List.reverseRecOn with
  | nil => exact ⟨fun h => (List.not_mem_nil h).elim, by rintro ⟨front, t, back, h, -⟩; simp at h⟩
  | append_singleton turns t ih =>
      have hlast : (p, hit) ∈ (empty.after (turns ++ [t])).resolved ↔
          (p, hit) ∈ (empty.after turns).resolved ∨
            (t.path = p ∧ (∀ hit', ¬ Answered turns p hit') ∧
              t.answer? (empty.after turns) = some hit) := by
        rw [after_concat, resolved_take, ← known?_after_eq_none_iff]
        cases hknown : (empty.after turns).known? t.path with
        | some hit' =>
            refine ⟨Or.inl, ?_⟩
            rintro (h | ⟨rfl, hnone, -⟩)
            · exact h
            · rw [hknown] at hnone
              cases hnone
        | none =>
            rw [List.mem_append]
            refine or_congr Iff.rfl ?_
            cases t.answer? (empty.after turns) with
            | none => simp
            | some hit' =>
                simp only [Option.map_some, Option.toList_some, List.mem_singleton, Prod.mk.injEq,
                  Option.some.injEq]
                constructor
                · rintro ⟨rfl, rfl⟩
                  exact ⟨rfl, hknown, rfl⟩
                · rintro ⟨rfl, -, rfl⟩
                  exact ⟨rfl, rfl⟩
      rw [hlast, ih]
      constructor
      · rintro (⟨front, u, back, rfl, h⟩ | h)
        · exact ⟨front, u, back ++ [t], by simp, h⟩
        · exact ⟨turns, t, [], rfl, h⟩
      · rintro ⟨front, u, back, hturns, h⟩
        rcases List.eq_nil_or_concat' back with rfl | ⟨back, v, rfl⟩
        · obtain ⟨rfl, htu⟩ := List.append_inj' hturns rfl
          obtain rfl := List.singleton_inj.1 htu
          exact Or.inr h
        · rw [← List.cons_append, ← List.append_assoc] at hturns
          obtain ⟨rfl, -⟩ := List.append_inj' hturns rfl
          exact Or.inl ⟨front, u, back, by simp, h⟩

end ImportFiles

open ImportFiles in
/-- A dialogue takes turns with its request, and leads to the state after them. -/
theorem Dialogue.exists_turns {α : Type} (request : CompileRequest) (d : Dialogue α)
    (s : ImportFiles) :
    ∃ turns, (∀ t ∈ turns, t.request = request) ∧ (d.run request s).2 = s.after turns := by
  induction d generalizing s with
  | done a => exact ⟨[], by simp, rfl⟩
  | isFile p next ih =>
      obtain ⟨turns, hturns, hrun⟩ := ih _ (s.lookup request.importer.resolve p).2
      exact ⟨⟨request, .isFile, p⟩ :: turns, by simpa using hturns, hrun⟩
  | read p next ih =>
      obtain ⟨turns, hturns, hrun⟩ := ih _ (s.read request p).2
      exact ⟨⟨request, .text, p⟩ :: turns, by simpa using hturns, hrun⟩

end StyleBuild
