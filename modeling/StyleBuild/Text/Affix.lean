/-!
# Beginnings and ends of a text

`afterStart? p s` is what follows `p` at the start of `s`. The tests `startsWith`
and `endsWith` are the relations of being a prefix and a suffix.
-/

namespace StyleBuild.Text

/-- What follows `p`, when `s` starts with it. -/
def afterStart? : List Char → List Char → Option (List Char)
  | [], s => some s
  | _ :: _, [] => none
  | p :: ps, c :: s => if p = c then afterStart? ps s else none

theorem afterStart?_eq_some_iff (p s rest : List Char) :
    afterStart? p s = some rest ↔ s = p ++ rest := by
  induction p generalizing s with
  | nil => simp [afterStart?, eq_comm]
  | cons c p ih =>
    cases s with
    | nil => simp [afterStart?]
    | cons d s =>
      by_cases h : c = d
      · simp [afterStart?, h, ih]
      · have h' : ¬ d = c := fun e => h e.symm
        simp [afterStart?, h, h']

def startsWith (p s : List Char) : Bool := (afterStart? p s).isSome

def endsWith (e s : List Char) : Bool := startsWith e.reverse s.reverse

theorem startsWith_iff (p s : List Char) : startsWith p s = true ↔ ∃ rest, s = p ++ rest := by
  simp [startsWith, Option.isSome_iff_exists, afterStart?_eq_some_iff]

theorem endsWith_iff (e s : List Char) : endsWith e s = true ↔ ∃ before, s = before ++ e := by
  rw [endsWith, startsWith_iff]
  constructor
  · rintro ⟨rest, h⟩
    exact ⟨rest.reverse, by simpa using congrArg List.reverse h⟩
  · rintro ⟨before, rfl⟩
    exact ⟨before.reverse, by simp⟩

theorem startsWith_iff_prefix (p s : List Char) : startsWith p s = true ↔ p <+: s := by
  rw [startsWith_iff]
  exact exists_congr fun _ => eq_comm

theorem endsWith_iff_suffix (e s : List Char) : endsWith e s = true ↔ e <:+ s := by
  rw [endsWith_iff]
  exact exists_congr fun _ => eq_comm

end StyleBuild.Text
