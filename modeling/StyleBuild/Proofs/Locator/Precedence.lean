import Mathlib.Data.Prod.Lex
import StyleBuild.Locator
import StyleBuild.Proofs.Mounts.Selection

/-!
# Precedence of imports

A token is looked up in three nested searches: under each root, under two names,
in each directory of a mount. Together they are one search through all
candidates, in the order of their positions: roots come first, then names, then
directories (`resolve_first_candidate`).

`Finds` is what a search is: it finds the first one that is accepted, and
nothing only when none is. A search of searches orders its positions
lexicographically (`finds_findSome?`).
-/

namespace StyleBuild

section Search

variable {α β γ ι : Type}

/-- `b` is accepted, and nothing at an earlier position is. -/
def IsFirst [LT ι] (C : ι → β → Prop) (ok : β → Prop) (b : β) : Prop :=
  ∃ i, C i b ∧ ok b ∧ ∀ j < i, ∀ c, C j c → ¬ ok c

/-- The outcome of a search through what is at positions. -/
structure Finds [LT ι] (C : ι → β → Prop) (ok : β → Prop) (found : Option β) : Prop where
  first : ∀ b, found = some b → IsFirst C ok b
  nothing : found = none → ∀ i b, C i b → ¬ ok b

theorem finds_find? (l : List β) (ok : β → Bool) :
    Finds (fun (i : ℕ) b => l[i]? = some b) (ok · = true) (l.find? ok) := by
  refine ⟨fun b hb => ?_, fun hnone i b hi => ?_⟩
  · obtain ⟨hok, i, hi, rfl, hbefore⟩ := List.find?_eq_some_iff_getElem.1 hb
    refine ⟨i, List.getElem?_eq_getElem hi, hok, fun j hj c hc hcok => ?_⟩
    have hrejected := hbefore j hj
    obtain rfl := Option.some.inj ((List.getElem?_eq_getElem (hj.trans hi)).symm.trans hc)
    rw [hcok] at hrejected
    cases hrejected
  · exact List.find?_eq_none.1 hnone b (List.mem_of_getElem? hi)

/-- A search that gives what it finds another form. -/
theorem Finds.map [LT ι] {C : ι → β → Prop} {ok : β → Prop} {found : Option β}
    (h : Finds C ok found) {ok' : γ → Prop} (g : β → γ) (hok : ∀ b, ok' (g b) ↔ ok b) :
    Finds (fun i c => ∃ b, C i b ∧ c = g b) ok' (found.map g) := by
  refine ⟨fun c hc => ?_, fun hnone i c ⟨b, hb, hc⟩ => ?_⟩
  · obtain ⟨b, hb, rfl⟩ := Option.map_eq_some_iff.1 hc
    obtain ⟨i, hi, hb, hbefore⟩ := h.first b hb
    refine ⟨i, ⟨b, hi, rfl⟩, (hok b).2 hb, ?_⟩
    rintro j hj - ⟨c, hc, rfl⟩ hcok
    exact hbefore j hj c hc ((hok c).1 hcok)
  · subst hc
    exact fun hbok => h.nothing (Option.map_eq_none_iff.1 hnone) i b hb ((hok b).1 hbok)

/-- Searches one after the other are one search, in which the earlier ones come first. -/
theorem finds_findSome? [LT ι] {l : List α} {search : α → Option β} {C : α → ι → β → Prop}
    {ok : β → Prop} (h : ∀ a ∈ l, Finds (C a) ok (search a)) :
    Finds (fun (i : ℕ ×ₗ ι) b => ∃ a, l[(ofLex i).1]? = some a ∧ C a (ofLex i).2 b) ok
      (l.findSome? search) := by
  refine ⟨fun b hb => ?_, fun hnone i b ⟨a, ha, hb⟩ => ?_⟩
  · obtain ⟨before, a, after, rfl, ha, hbefore⟩ := List.findSome?_eq_some_iff.1 hb
    obtain ⟨i, hi, hok, hfirst⟩ := (h a (by simp)).first b ha
    refine ⟨toLex (before.length, i), ⟨a, by simp, hi⟩, hok, ?_⟩
    rintro j hj c ⟨a', ha', hc⟩
    rcases Prod.Lex.lt_iff.1 hj with hlt | ⟨heq, hlt⟩
    · -- in an earlier search, which has found nothing
      simp only [ofLex_toLex] at hlt
      rw [List.getElem?_append_left hlt] at ha'
      have hmem := List.mem_of_getElem? ha'
      exact (h a' (List.mem_append_left _ hmem)).nothing (hbefore a' hmem) _ c hc
    · -- earlier in the same search
      simp only [ofLex_toLex] at heq hlt
      rw [heq, List.getElem?_append_right (le_refl _), Nat.sub_self, List.getElem?_cons_zero,
        Option.some.injEq] at ha'
      subst ha'
      exact hfirst _ hlt c hc
  · have hmem := List.mem_of_getElem? ha
    exact (h a hmem).nothing (List.findSome?_eq_none_iff.1 hnone a hmem) _ b hb

/-- With one thing at most at each position, a search is determined by its outcome. -/
theorem Finds.eq_some_iff [LinearOrder ι] {C : ι → β → Prop} {ok : β → Prop} {found : Option β}
    (h : Finds C ok found) (hC : ∀ i b c, C i b → C i c → b = c) (b : β) :
    found = some b ↔ IsFirst C ok b := by
  refine ⟨h.first b, ?_⟩
  rintro ⟨i, hi, hok, hbefore⟩
  cases hfound : found with
  | none => exact absurd hok (h.nothing hfound i b hi)
  | some c =>
      obtain ⟨j, hj, hcok, hbefore'⟩ := h.first c hfound
      rcases lt_trichotomy i j with hlt | rfl | hlt
      · exact absurd hok (hbefore' i hlt b hi)
      · rw [hC i b c hi hj]
      · exact absurd hcok (hbefore j hlt c hj)

theorem Finds.eq_none_iff [LT ι] {C : ι → β → Prop} {ok : β → Prop} {found : Option β}
    (h : Finds C ok found) : found = none ↔ ∀ i b, C i b → ¬ ok b := by
  refine ⟨h.nothing, fun hno => ?_⟩
  cases hfound : found with
  | none => rfl
  | some b =>
      obtain ⟨i, hi, hok, -⟩ := h.first b hfound
      exact absurd hok (hno i b hi)

end Search

open Text

theorem isPassthrough_iff (token : String) : isPassthrough token = true ↔
    ".css".toList <:+ token.toList ∨ "http://".toList <+: token.toList ∨
      "https://".toList <+: token.toList := by
  simp only [isPassthrough, Bool.or_eq_true, endsWith_iff_suffix, startsWith_iff_prefix, or_assoc]

namespace Mounts

/-- A path that a logical path may stand for: the remainder below the directory of this number of
the mount that owns it. -/
def StandsFor (m : Mounts) (logical : String) (k : ℕ) (path : Path) : Prop :=
  ∃ mount rest dir, m.Owns logical mount rest ∧ rest.isAbsolute = false ∧ rest.IsDown ∧
    mount.dirs[k]? = some dir ∧ path = dir.join rest

variable {m : Mounts}

theorem StandsFor.unique (hm : m.Distinct) {logical : String} {k : ℕ} {path path' : Path}
    (h : m.StandsFor logical k path) (h' : m.StandsFor logical k path') : path = path' := by
  obtain ⟨mount, rest, dir, howns, -, -, hdir, rfl⟩ := h
  obtain ⟨mount', rest', dir', howns', -, -, hdir', rfl⟩ := h'
  obtain ⟨rfl, rfl⟩ := howns.unique hm howns'
  rw [Option.some.inj (hdir.symm.trans hdir')]

theorem standsFor_of_candidates (hm : m.Distinct) {logical : String} {k : ℕ} {path : Path}
    (h : (m.candidates logical)[k]? = some path) : m.StandsFor logical k path := by
  obtain ⟨mount, rest, dir, hselect, -, hdir, rfl⟩ := exists_of_candidates h
  obtain ⟨howns, hrelative, hdown⟩ := (select_eq_ok_iff hm).1 hselect
  exact ⟨mount, rest, dir, howns, hrelative, hdown, hdir, rfl⟩

/-- A file below a mount has a remainder that is not empty, so it is a candidate. -/
theorem StandsFor.candidates (hm : m.Distinct) {files : Files} {logical : String} {k : ℕ}
    {path : Path} (h : m.StandsFor logical k path) (hfile : files.isFile path = true) :
    (m.candidates logical)[k]? = some path := by
  obtain ⟨mount, rest, dir, howns, hrelative, hdown, hdir, rfl⟩ := h
  have hselect := (select_eq_ok_iff hm).2 ⟨howns, hrelative, hdown⟩
  have hrest : rest.isEmpty = false := by
    apply Bool.eq_false_iff.2
    intro hempty
    rw [Files.isFile_eq_false_of_isSilent] at hfile
    · cases hfile
    · rw [Path.lastSegment_join_empty dir hempty]
      rfl
  rw [Mounts.candidates, hselect]
  simp [hrest, hdir]

/-- A look-up finds the first file that a logical path may stand for. -/
theorem finds_file (hm : m.Distinct) (files : Files) (logical : String) :
    Finds (m.StandsFor logical) (files.isFile · = true) (m.find? files.isFile logical) := by
  have hfinds := finds_find? (m.candidates logical) files.isFile
  refine ⟨fun path hpath => ?_, fun hnone k path hk hfile => ?_⟩
  · obtain ⟨k, hk, hfile, hbefore⟩ := hfinds.first path hpath
    refine ⟨k, standsFor_of_candidates hm hk, hfile, fun j hj path' hpath' hfile' => ?_⟩
    exact hbefore j hj path' (hpath'.candidates hm hfile') hfile'
  · exact hfinds.nothing hnone k path (hk.candidates hm hfile) hfile

end Mounts

namespace Locator

/-- What a token may stand for, at the position of its root, its name and its directory. -/
def CandidateAt (l : Locator) (m : Mounts) (token : String) (i : ℕ ×ₗ ℕ ×ₗ ℕ)
    (hit : ResolvedImport) : Prop :=
  ∃ root, l.roots[(ofLex i).1]? = some root ∧
    ∃ name, (candidateNames token)[(ofLex (ofLex i).2).1]? = some name ∧
      ∃ path, m.StandsFor (logicalPath root name) (ofLex (ofLex i).2).2 path ∧
        hit = ⟨logicalPath root name, path⟩

theorem CandidateAt.unique {l : Locator} {m : Mounts} (hm : m.Distinct) {token : String}
    {i : ℕ ×ₗ ℕ ×ₗ ℕ} {hit hit' : ResolvedImport} (h : l.CandidateAt m token i hit)
    (h' : l.CandidateAt m token i hit') : hit = hit' := by
  obtain ⟨root, hroot, name, hname, path, hpath, rfl⟩ := h
  obtain ⟨root', hroot', name', hname', path', hpath', rfl⟩ := h'
  obtain rfl := Option.some.inj (hroot.symm.trans hroot')
  obtain rfl := Option.some.inj (hname.symm.trans hname')
  rw [hpath.unique hm hpath']

theorem search_append (find : String → Option Path) (a b : List String) :
    (search find (a ++ b)).2 = ((search find a).2).or (search find b).2 := by
  rw [search_snd, search_snd, search_snd, List.findSome?_append]

/-- The search of a token goes through its roots and their names. -/
theorem resolve_eq_findSome? {l : Locator} {find : String → Option Path} {token : String}
    (h : isPassthrough token = false) : l.resolve find token =
      l.roots.findSome? fun root => (candidateNames token).findSome? fun name =>
        (find (logicalPath root name)).map (ResolvedImport.mk (logicalPath root name)) := by
  rw [resolve, resolveTraced, candidates, h]
  simp only [Bool.false_eq_true, if_false]
  induction l.roots with
  | nil => rfl
  | cons root roots ih =>
      have hnames : (search find ((candidateNames token).map (logicalPath root))).2 =
          (candidateNames token).findSome? fun name =>
            (find (logicalPath root name)).map (ResolvedImport.mk (logicalPath root name)) := by
        rw [search_snd, List.findSome?_map]
        rfl
      rw [List.flatMap_cons, search_append, ih, hnames, List.findSome?_cons]
      split <;> simp [*]

theorem finds_resolve (l : Locator) {m : Mounts} (hm : m.Distinct) (files : Files) {token : String}
    (h : isPassthrough token = false) :
    Finds (l.CandidateAt m token) (files.isFile ·.path = true)
      (l.resolve (m.find? files.isFile) token) := by
  rw [resolve_eq_findSome? h]
  exact finds_findSome? fun root _ => finds_findSome? fun name _ =>
    (Mounts.finds_file hm files (logicalPath root name)).map _ fun _ => Iff.rfl

/-- Plain style sheets and addresses are not looked up at all. Any other token stands for the first
file among its candidates, roots before names and names before directories, and for nothing exactly
when none of them is a file. A logical path that no mount owns, or that leads out of its mount, has
no candidates. -/
theorem resolve_first_candidate (l : Locator) (mounts : List (String × List Path)) (files : Files)
    (token : String) :
    (".css".toList <:+ token.toList ∨ "http://".toList <+: token.toList ∨
        "https://".toList <+: token.toList →
      ∀ find, l.resolveTraced find token = ([], none) ∧ l.resolve find token = none) ∧
    (¬ (".css".toList <:+ token.toList ∨ "http://".toList <+: token.toList ∨
        "https://".toList <+: token.toList) →
      (∀ hit, l.resolve ((Mounts.ofList mounts).find? files.isFile) token = some hit ↔
        IsFirst (l.CandidateAt (.ofList mounts) token) (files.isFile ·.path = true) hit) ∧
      (l.resolve ((Mounts.ofList mounts).find? files.isFile) token = none ↔
        ∀ i hit, l.CandidateAt (.ofList mounts) token i hit → ¬ files.isFile hit.path = true)) ∧
    ∀ logical, (∀ mount rest, (Mounts.ofList mounts).Owns logical mount rest →
      rest.isAbsolute = true ∨ ¬ rest.IsDown) → (Mounts.ofList mounts).candidates logical = [] := by
  rw [← isPassthrough_iff]
  have hm := Mounts.distinct_ofList mounts
  refine ⟨fun hpass find => ?_, fun hlookup => ?_, fun logical => Mounts.candidates_eq_nil⟩
  · have htraced : l.resolveTraced find token = ([], none) := by
      rw [resolveTraced, candidates, if_pos hpass]
      rfl
    exact ⟨htraced, congrArg Prod.snd htraced⟩
  · have hfinds := l.finds_resolve hm files (Bool.eq_false_iff.2 hlookup)
    refine ⟨hfinds.eq_some_iff fun i hit hit' h h' => h.unique hm h', hfinds.eq_none_iff⟩

/-- Two roots, the first of which has only a partial of the file in the second one. -/
def overridden : Files :=
  let root := ((Files.atHome [] 0).addEntry 0 [] "custom".toList
    (.directory Files.newDirectoryMode 0)).addEntry 0 [] "base".toList
      (.directory Files.newDirectoryMode 0)
  (root.addFile 0 ["custom".toList] "_main.scss".toList ByteArray.empty Files.newFileMode).addFile
    0 ["base".toList] "main.scss".toList ByteArray.empty Files.newFileMode

def overriddenMounts : List (String × List Path) :=
  [("theme", [⟨"none"⟩, ⟨"base"⟩]), ("custom", [⟨"custom"⟩])]

/-- The partial in the earlier root wins over the file in the later one. -/
theorem resolve_first_candidate_partial :
    overridden.isFile ⟨"base/main.scss"⟩ = true ∧
      IsFirst ((Locator.mk ["custom", "theme"]).CandidateAt (.ofList overriddenMounts) "main")
        (overridden.isFile ·.path = true) ⟨"custom/_main.scss", ⟨"custom/_main.scss"⟩⟩ ∧
      (Locator.mk ["custom", "theme"]).resolveTraced (fun _ => some ⟨"base/main.scss"⟩)
        "main.css" = ([], none) ∧
      (Mounts.ofList overriddenMounts).candidates "other/main.scss" = [] := by
  have hfirst := ((resolve_first_candidate ⟨["custom", "theme"]⟩ overriddenMounts overridden
    "main").2.1 (by decide)).1 ⟨"custom/_main.scss", ⟨"custom/_main.scss"⟩⟩
  have hpass := (resolve_first_candidate ⟨["custom", "theme"]⟩ overriddenMounts overridden
    "main.css").1 (by decide)
  have howner := (resolve_first_candidate ⟨["custom", "theme"]⟩ overriddenMounts overridden
    "main").2.2 "other/main.scss"
  refine ⟨by decide +kernel, hfirst.1 (by decide +kernel), (hpass _).1, howner ?_⟩
  intro mount rest howns
  have hnone : ∀ mount ∈ (Mounts.ofList overriddenMounts).all,
      ¬ mount.name.toList <+: "other/main.scss".toList := by decide
  exact absurd howns.fits.isPrefix (hnone mount howns.mem)

end Locator

end StyleBuild
