/-!
# Lines

`keptLines s` cuts a text after every line feed; each line keeps the line feed
that ends it. Only U+000A ends a line. The lines put back together are the
text (`flatten_keptLines`), and no line is empty (`ne_nil_of_mem_keptLines`).
-/

namespace StyleBuild.Text

/-- The lines of `s`, each with the line feed that ends it. -/
def keptLines : List Char → List (List Char)
  | [] => []
  | c :: s =>
    if c = '\n' then [c] :: keptLines s
    else match keptLines s with
      | [] => [[c]]
      | l :: ls => (c :: l) :: ls

theorem flatten_keptLines (s : List Char) : (keptLines s).flatten = s := by
  induction s with
  | nil => rfl
  | cons c s ih =>
    rw [keptLines]
    split
    · simp [ih]
    · split <;> simp_all

theorem ne_nil_of_mem_keptLines (s : List Char) : ∀ l ∈ keptLines s, l ≠ [] := by
  induction s with
  | nil => simp [keptLines]
  | cons c s ih =>
    rw [keptLines]
    split
    · simpa using ih
    · split
      · simp
      · simp_all

end StyleBuild.Text
