/-!
# Look-ups in lists of pairs

The first pair with a key gives its value. `setFirst` replaces that pair, or
adds one at the end, and `lookup_setFirst` says what is found afterwards.
-/

namespace StyleBuild.Lookup

variable {κ α : Type} [BEq κ] [LawfulBEq κ] [DecidableEq κ]

theorem lookup_cons_eq (k key : κ) (value : α) (l : List (κ × α)) :
    ((key, value) :: l).lookup k = if k = key then some value else l.lookup k := by
  by_cases h : k = key
  · subst h; simp
  · simp [List.lookup_cons, h, beq_false_of_ne h]

/-- Replaces the value of the first pair with this key, or adds a pair. -/
def setFirst (key : κ) (value : α) : List (κ × α) → List (κ × α)
  | [] => [(key, value)]
  | (k, v) :: rest => if k = key then (key, value) :: rest else (k, v) :: setFirst key value rest

theorem lookup_setFirst (key : κ) (value : α) (l : List (κ × α)) (k : κ) :
    (setFirst key value l).lookup k = if k = key then some value else l.lookup k := by
  induction l with
  | nil => rw [setFirst, lookup_cons_eq]
  | cons e rest ih =>
    obtain ⟨k', v⟩ := e
    rw [setFirst]
    by_cases hk : k' = key
    · subst hk
      by_cases h : k = k' <;> simp [lookup_cons_eq, h]
    · rw [if_neg hk, lookup_cons_eq, lookup_cons_eq, ih]
      by_cases h : k = k'
      · subst h
        simp [hk]
      · simp [h]

theorem lookup_filter_ne (key : κ) (l : List (κ × α)) (k : κ) :
    (l.filter fun e => e.1 ≠ key).lookup k = if k = key then none else l.lookup k := by
  induction l with
  | nil => simp
  | cons e rest ih =>
    obtain ⟨k', v⟩ := e
    by_cases hk : k' = key
    · subst hk
      rw [lookup_cons_eq, List.filter_cons_of_neg (by simp), ih]
      by_cases h : k = k' <;> simp [h]
    · rw [List.filter_cons_of_pos (by simpa using hk), lookup_cons_eq, lookup_cons_eq, ih]
      by_cases h : k = k'
      · subst h; simp [hk]
      · simp [h]

end StyleBuild.Lookup
