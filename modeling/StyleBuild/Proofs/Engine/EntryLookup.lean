import StyleBuild.Proofs.Engine.Nested
import StyleBuild.Proofs.Engine.Readings
import StyleBuild.Proofs.Substitution.SinglePass

/-!
# Looking an entry up twice

An entry is looked up before it is compiled, and its import is the first path
that an engine asks for. At that time nothing was found yet, so the path stands
for what its token is found as (`lookup_empty`). The token is the token of the
entry again, unless the path has `./` in front, which a token does not have, or
is made for imports alone, which is not answered at all: `token?_entryPath`,
`token?_entryPath_dot` and `token?_entryPath_import` are the three cases.
-/

namespace StyleBuild

open Text

/-- The path that an entry is imported as. -/
def entryPath (entry : String) : Path := ⟨entry ++ sourceExtension⟩

namespace ImportFiles

variable {entry : String} {l : Locator} {find : String → Option Path} {hit : ResolvedImport}

theorem chars_entryPath (entry : String) :
    (entryPath entry).chars = entry.toList ++ ".scss".toList := String.toList_append

/-- Before anything was found, a path stands for what its token is found as. -/
theorem lookup_empty (resolve : String → Option ResolvedImport) (p : Path) :
    empty.lookup resolve p =
      match (token? p).bind resolve with
      | some hit => (some hit, empty.found p hit)
      | none => (none, empty) := by
  have hfind : empty.find resolve p = (token? p).bind resolve := by
    rw [find_eq, tokensFor]
    cases token? p with
    | none => rfl
    | some token => cases hresolve : resolve token <;> simp [directories, empty, hresolve]
  have hlookup := lookup_of_known?_eq_none (s := empty) (p := p) rfl resolve
  rw [hfind] at hlookup
  exact hlookup

theorem withSlashes_entryPath (hback : '\\' ∉ entry.toList) :
    withSlashes (entryPath entry).chars = entry.toList ++ ".scss".toList := by
  rw [chars_entryPath, withSlashes_append, withSlashes_of_notMem hback]
  rfl

theorem import_suffix_iff (s : List Char) :
    ".import.scss".toList <:+ s ++ ".scss".toList ↔ ".import".toList <:+ s := by
  constructor
  · rintro ⟨front, hfront⟩
    have hsplit : front ++ ".import".toList ++ ".scss".toList = s ++ ".scss".toList := by
      rw [List.append_assoc]
      exact hfront
    exact ⟨front, List.append_cancel_right hsplit⟩
  · rintro ⟨front, rfl⟩
    refine ⟨front, ?_⟩
    rw [List.append_assoc]
    rfl

theorem dot_prefix_iff (s : List Char) :
    "./".toList <+: s ++ ".scss".toList ↔ "./".toList <+: s := by
  refine ⟨fun h => ?_, fun h => h.trans (List.prefix_append _ _)⟩
  rcases s with _ | ⟨c, _ | ⟨d, s⟩⟩
  · revert h
    decide
  · simp [List.cons_prefix_cons] at h
  · simpa [List.cons_prefix_cons] using h

/-- The token of an entry is looked up as it was before the compilation. -/
theorem token?_entryPath (hback : '\\' ∉ entry.toList)
    (himport : ¬ ".import".toList <:+ entry.toList)
    (hstart : ¬ "./".toList <+: entry.toList) :
    token? (entryPath entry) = some (entry ++ sourceExtension) := by
  rw [token?_eq_some_iff, String.toList_append]
  refine ⟨Or.inr ⟨?_, withSlashes_entryPath hback⟩, List.suffix_append _ _,
    fun h => himport ((import_suffix_iff _).1 h)⟩
  rw [withSlashes_entryPath hback]
  exact fun h => hstart ((dot_prefix_iff _).1 h)

/-- With `./` in front the path has the same token. -/
theorem token?_entryPath_dot (hback : '\\' ∉ entry.toList)
    (himport : ¬ ".import".toList <:+ entry.toList) :
    token? (entryPath ("./" ++ entry)) = some (entry ++ sourceExtension) := by
  have hdot : '\\' ∉ ("./" ++ entry).toList := by
    rw [String.toList_append]
    simp [hback]
  rw [token?_eq_some_iff, String.toList_append]
  refine ⟨Or.inl ?_, List.suffix_append _ _, fun h => himport ((import_suffix_iff _).1 h)⟩
  rw [withSlashes_entryPath hdot, String.toList_append, List.append_assoc]
  rfl

/-- A path that is made for imports alone has none. -/
theorem token?_entryPath_import (hback : '\\' ∉ entry.toList)
    (himport : ".import".toList <:+ entry.toList) : token? (entryPath entry) = none := by
  rw [Option.eq_none_iff_forall_ne_some]
  intro token htoken
  have h := token?_eq_some_iff.1 htoken
  have hsuffix := (import_suffix_iff _).2 himport
  rcases h.text with htext | ⟨-, htext⟩
  · rw [withSlashes_entryPath hback] at htext
    rw [htext] at hsuffix
    exact h.no_import ((suffix_append_sep_iff (by decide) ['.'] _).1 hsuffix)
  · rw [withSlashes_entryPath hback] at htext
    exact h.no_import (htext ▸ hsuffix)

/-- What is read at a path that is found is the text of its import, or the failure to load it. -/
theorem read_of_lookup {s s' : ImportFiles} {p : Path} {request : CompileRequest}
    (h : s.lookup request.importer.resolve p = (some hit, s')) :
    s.read request p = s'.taken hit (load request hit) := by
  rw [read_eq, h, load_eq]

/-- An import that is found is not missing, whatever else its text fails of. -/
theorem load_ne_missing (request : CompileRequest) (hit : ResolvedImport) (p : Path) :
    load request hit ≠ .error (.rejected (.missingImport p)) := by
  intro h
  rw [load_cases] at h
  split at h
  · cases h
  · split at h
    · cases h
    · split at h
      · next hexpand =>
        cases h
        obtain ⟨name, message, he⟩ := Substitution.Registry.exists_function_of_expand hexpand
        cases he
      · cases h

theorem failure_taken_ne_missing {s : ImportFiles} (hs : s.failure = none)
    (request : CompileRequest) (hit : ResolvedImport) (p : Path) :
    (s.taken hit (load request hit)).2.failure ≠ some (.rejected (.missingImport p)) := by
  cases hload : load request hit with
  | ok text => simp [taken, addSource_failure, hs]
  | error e =>
      intro h
      simp only [taken, keepFailure, hs, Option.getD_none, Option.some.injEq] at h
      exact load_ne_missing request hit p (hload.trans (by rw [h]))

/-- An entry that is found before its compilation, and that is not made for imports alone, is found
as the same import when nothing was found yet: at its path, unless that has `./` in front, and at
its path with `./` in front. What is read there is the text of the import, or the failure to load
it, and the import is not missing. A path that is made for imports alone is not answered. -/
theorem entry_answered (l : Locator) (find : String → Option Path) :
    (∀ entry hit, '\\' ∉ entry.toList → ¬ ".import".toList <:+ entry.toList →
      l.resolve find (entry ++ sourceExtension) = some hit →
      ∀ asked, asked = entry ∧ ¬ "./".toList <+: entry.toList ∨ asked = "./" ++ entry →
        empty.lookup (l.resolve find) (entryPath asked) =
          (some hit, empty.found (entryPath asked) hit) ∧
        ∀ request : CompileRequest, request.importer.resolve = l.resolve find →
          empty.read request (entryPath asked) =
            (empty.found (entryPath asked) hit).taken hit (load request hit) ∧
          ∀ p, (empty.read request (entryPath asked)).2.failure ≠
            some (.rejected (.missingImport p))) ∧
    ∀ entry, '\\' ∉ entry.toList → ".import".toList <:+ entry.toList →
      empty.lookup (l.resolve find) (entryPath entry) = (none, empty) := by
  constructor
  · intro entry hit hback himport hresolve asked hasked
    have htoken : token? (entryPath asked) = some (entry ++ sourceExtension) := by
      rcases hasked with ⟨rfl, hstart⟩ | rfl
      · exact token?_entryPath hback himport hstart
      · exact token?_entryPath_dot hback himport
    have hlookup : empty.lookup (l.resolve find) (entryPath asked) =
        (some hit, empty.found (entryPath asked) hit) := by
      simp [lookup_empty, htoken, hresolve]
    refine ⟨hlookup, fun request hrequest => ?_⟩
    rw [← hrequest] at hlookup
    have hread := read_of_lookup hlookup
    refine ⟨hread, fun p => ?_⟩
    rw [hread]
    exact failure_taken_ne_missing rfl request hit p
  · intro entry hback himport
    rw [lookup_empty, token?_entryPath_import hback himport]
    rfl

/-- Sheets in a directory, one of them made for imports alone. -/
def sheets : Files :=
  ((((Files.atHome [] 0).addEntry 0 [] "theme".toList
    (.directory Files.newDirectoryMode 0)).addFile 0
      ["theme".toList] "b.scss".toList "a{}".toUTF8 Files.newFileMode).addFile 0
        ["theme".toList] "a.import.scss".toList "a{}".toUTF8 Files.newFileMode)

/-- Imports of these sheets. -/
def resolveSheet : String → Option ResolvedImport :=
  (Locator.ofRoots ["theme"]).resolve ((Mounts.ofList [("theme", [⟨"theme"⟩])]).find? sheets.isFile)

theorem entry_answered_sheets :
    empty.lookup resolveSheet (entryPath "b") = (some ⟨"theme/b.scss", ⟨"theme/b.scss"⟩⟩,
      empty.found (entryPath "b") ⟨"theme/b.scss", ⟨"theme/b.scss"⟩⟩) ∧
    empty.lookup resolveSheet (entryPath "./b") = (some ⟨"theme/b.scss", ⟨"theme/b.scss"⟩⟩,
      empty.found (entryPath "./b") ⟨"theme/b.scss", ⟨"theme/b.scss"⟩⟩) ∧
    empty.lookup resolveSheet (entryPath "a.import") = (none, empty) := by
  obtain ⟨hanswered, hunanswered⟩ := entry_answered (Locator.ofRoots ["theme"])
    ((Mounts.ofList [("theme", [⟨"theme"⟩])]).find? sheets.isFile)
  have hsheet := hanswered "b" ⟨"theme/b.scss", ⟨"theme/b.scss"⟩⟩ (by decide) (by decide)
    (by decide +kernel)
  exact ⟨(hsheet "b" (.inl ⟨rfl, by decide⟩)).1, (hsheet "./b" (.inr rfl)).1,
    hunanswered "a.import" (by decide) (by decide)⟩

/-- A sheet for imports alone is found before it is compiled and not after that, and a sheet that is
asked for with `./` in front is another import then. -/
theorem entry_answered_otherwise :
    resolveSheet "a.import.scss" = some ⟨"theme/a.import.scss", ⟨"theme/a.import.scss"⟩⟩ ∧
    (empty.lookup resolveSheet (entryPath "a.import")).1 = none ∧
    resolveSheet "./b.scss" = some ⟨"theme/./b.scss", ⟨"theme/./b.scss"⟩⟩ ∧
    (empty.lookup resolveSheet (entryPath "./b")).1 =
      some ⟨"theme/b.scss", ⟨"theme/b.scss"⟩⟩ := by
  decide +kernel

end ImportFiles

end StyleBuild
