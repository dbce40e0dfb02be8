/-!
# Segments

`segments sep s` cuts a text at every `sep`, which belongs to no segment, and
`joined sep` puts segments together again (`joined_segments`). There is always
at least one segment, and no segment holds the separator.
-/

namespace StyleBuild.Text

/-- The parts of `s` between the separators. -/
def segments (sep : Char) : List Char → List (List Char)
  | [] => [[]]
  | c :: s =>
    if c = sep then [] :: segments sep s
    else match segments sep s with
      | [] => [[c]]
      | l :: ls => (c :: l) :: ls

/-- The parts with a separator between two of them. -/
def joined (sep : Char) : List (List Char) → List Char
  | [] => []
  | [l] => l
  | l :: l' :: ls => l ++ sep :: joined sep (l' :: ls)

theorem segments_ne_nil (sep : Char) (s : List Char) : segments sep s ≠ [] := by
  cases s with
  | nil => simp [segments]
  | cons c s =>
    rw [segments]
    split
    · simp
    · split <;> simp

theorem joined_cons_cons (sep c : Char) (l : List Char) (ls : List (List Char)) :
    joined sep ((c :: l) :: ls) = c :: joined sep (l :: ls) := by
  cases ls <;> simp [joined]

theorem joined_segments (sep : Char) (s : List Char) : joined sep (segments sep s) = s := by
  induction s with
  | nil => rfl
  | cons c s ih =>
    rw [segments]
    split
    · next h =>
      subst h
      cases hs : segments c s with
      | nil => exact absurd hs (segments_ne_nil c s)
      | cons l ls => rw [joined, ← hs, ih]; rfl
    · split
      · next hs => exact absurd hs (segments_ne_nil sep s)
      · next l ls hs => rw [joined_cons_cons, ← hs, ih]

theorem notMem_of_mem_segments (sep : Char) (s : List Char) : ∀ l ∈ segments sep s, sep ∉ l := by
  induction s with
  | nil => simp [segments]
  | cons c s ih =>
    rw [segments]
    split
    · simpa using ih
    · next hc =>
      have hc' : ¬ sep = c := fun h => hc h.symm
      split
      · simp [hc']
      · next l ls hs =>
        intro m hm
        rcases List.mem_cons.1 hm with rfl | hm
        · have := ih l (hs ▸ List.mem_cons_self)
          simp [hc', this]
        · exact ih m (hs ▸ List.mem_cons_of_mem _ hm)

end StyleBuild.Text
