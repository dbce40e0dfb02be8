import Mathlib.Data.List.Nodup
import StyleBuild.Mounts
import StyleBuild.Proofs.Files.Components
import StyleBuild.Proofs.Text.Prefix

/-!
# The mount of a logical path

Of the mounts whose names fit a logical path the one with the longest name owns
it. Mounts of different names leave no choice (`Owns.unique`), and those that
were added one by one have different names (`distinct_ofList`). A logical path
is taken exactly when it has an owner and what is left below the owner neither
starts at the root nor leads up (`select_eq_ok_iff`).
-/

namespace StyleBuild

open Text

/-- The end of a text after a separator that does not occur in `t`. -/
theorem suffix_of_suffix_cons {t rest : List Char} {sep : Char} {s : List Char}
    (ht : t <:+ s) (hrest : (sep :: rest) <:+ s) (hsep : sep ∉ t) : t <:+ rest := by
  rcases List.suffix_or_suffix_of_suffix ht hrest with h | h
  · rcases List.suffix_cons_iff.1 h with h | h
    · exact absurd (h ▸ List.mem_cons_self) hsep
    · exact h
  · exact absurd (h.subset List.mem_cons_self) hsep

namespace Mounts

/-- A name is the beginning of a logical path at a segment boundary, and `rest` is left. -/
def Fits (name logical rest : List Char) : Prop :=
  name = [] ∧ rest = logical ∨
    name ≠ [] ∧ (logical = name ∧ rest = [] ∨ logical = name ++ '/' :: rest)

theorem remainder?_eq_some_iff (name logical rest : List Char) :
    remainder? name logical = some rest ↔ Fits name logical rest := by
  unfold remainder? Fits
  cases hafter : afterStart? name logical with
  | none =>
      have hno : ∀ after, logical ≠ name ++ after := fun after h => by
        rw [(afterStart?_eq_some_iff name logical after).2 h] at hafter
        cases hafter
      constructor
      · intro h
        cases h
      · rintro (⟨rfl, rfl⟩ | ⟨-, ⟨rfl, -⟩ | h⟩)
        · exact absurd rfl (hno rest)
        · exact absurd (List.append_nil _).symm (hno [])
        · exact absurd h (hno _)
  | some after =>
      obtain rfl := (afterStart?_eq_some_iff name logical after).1 hafter
      by_cases hname : name = []
      · subst hname
        simp [eq_comm]
      · simp only [hname, if_false, false_and, not_false_eq_true, ne_eq, true_and, false_or,
          List.append_right_eq_self, List.append_cancel_left_eq]
        split
        · simp [eq_comm]
        · simp
        · next hnil hslash =>
          constructor
          · intro h
            cases h
          · rintro (⟨rfl, -⟩ | rfl)
            · exact absurd rfl hnil
            · exact absurd rfl (hslash rest)

/-- What is left below a mount is an end of the logical path, after a separator when the mount
has a name. -/
theorem remainder?_eq_some {name logical rest : List Char}
    (h : remainder? name logical = some rest) :
    rest = [] ∨ rest = logical ∨ ('/' :: rest) <:+ logical := by
  rcases (remainder?_eq_some_iff _ _ _).1 h with ⟨-, rfl⟩ | ⟨-, ⟨-, rfl⟩ | rfl⟩
  · exact Or.inr (Or.inl rfl)
  · exact Or.inl rfl
  · exact Or.inr (Or.inr (List.suffix_append _ _))

theorem Fits.isPrefix {name logical rest : List Char} (h : Fits name logical rest) :
    name <+: logical := by
  rcases h with ⟨rfl, -⟩ | ⟨-, ⟨rfl, -⟩ | rfl⟩
  · exact List.nil_prefix
  · exact List.prefix_refl _
  · exact List.prefix_append _ _

/-- What is left is determined by the name. -/
theorem Fits.unique {name logical rest rest' : List Char} (h : Fits name logical rest)
    (h' : Fits name logical rest') : rest = rest' :=
  Option.some.inj (((remainder?_eq_some_iff _ _ _).2 h).symm.trans
    ((remainder?_eq_some_iff _ _ _).2 h'))

theorem mem_of_longest {hits : List (Mount × List Char)} {hit : Mount × List Char}
    (h : longest hits = some hit) : hit ∈ hits := by
  induction hits with
  | nil => cases h
  | cons e hits ih =>
      rw [longest] at h
      split at h
      · cases h
        exact List.mem_cons_self
      · next best hbest =>
        split at h
        · cases h
          exact List.mem_cons_self
        · cases h
          exact List.mem_cons_of_mem _ (ih hbest)

theorem longest_eq_none_iff {hits : List (Mount × List Char)} :
    longest hits = none ↔ hits = [] := by
  cases hits with
  | nil => simp [longest]
  | cons e hits =>
      rw [longest]
      split
      · simp
      · split <;> simp

theorem le_of_longest {hits : List (Mount × List Char)} {hit : Mount × List Char}
    (h : longest hits = some hit) :
    ∀ hit' ∈ hits, hit'.1.name.utf8ByteSize ≤ hit.1.name.utf8ByteSize := by
  induction hits generalizing hit with
  | nil => cases h
  | cons e hits ih =>
      rw [longest] at h
      intro hit' hmem
      split at h
      · next hnone =>
        cases h
        rcases List.mem_cons.1 hmem with rfl | hmem
        · exact le_refl _
        · rw [longest_eq_none_iff] at hnone
          rw [hnone] at hmem
          cases hmem
      · next best hbest =>
        split at h
        · next hlt =>
          cases h
          rcases List.mem_cons.1 hmem with rfl | hmem
          · exact le_refl _
          · exact (ih hbest hit' hmem).trans hlt.le
        · next hle =>
          cases h
          rcases List.mem_cons.1 hmem with rfl | hmem
          · exact not_lt.1 hle
          · exact ih hbest hit' hmem

/-- The mount with the longest name that fits a logical path, and what is left below it. -/
structure Owns (m : Mounts) (logical : String) (mount : Mount) (rest : Path) : Prop where
  mem : mount ∈ m.all
  fits : Fits mount.name.toList logical.toList rest.chars
  longest : ∀ mount' ∈ m.all, ∀ rest', Fits mount'.name.toList logical.toList rest' →
    mount'.name.utf8ByteSize ≤ mount.name.utf8ByteSize

/-- The names of the mounts are different. -/
def Distinct (m : Mounts) : Prop := (m.all.map (·.name)).Nodup

theorem distinct_add {m : Mounts} (h : m.Distinct) (name : String) (dirs : List Path) :
    (m.add name dirs).Distinct := by
  unfold Distinct add
  rw [List.map_append, List.nodup_append]
  refine ⟨(List.filter_sublist.map _).nodup h, List.nodup_singleton _, fun a ha b hb hab => ?_⟩
  obtain ⟨mount, hmount, rfl⟩ := List.mem_map.1 ha
  have hne := of_decide_eq_true (List.mem_filter.1 hmount).2
  exact hne (hab.trans (List.mem_singleton.1 hb))

theorem distinct_ofList (mounts : List (String × List Path)) : (ofList mounts).Distinct := by
  have hadd : ∀ m : Mounts, m.Distinct → (mounts.foldl (fun m e => m.add e.1 e.2) m).Distinct := by
    induction mounts with
    | nil => exact fun m hm => hm
    | cons e mounts ih => exact fun m hm => ih _ (distinct_add hm e.1 e.2)
  exact hadd empty List.nodup_nil

variable {m : Mounts} {logical : String} {mount mount' : Mount} {rest rest' : Path}

theorem Owns.unique (hm : m.Distinct) (h : m.Owns logical mount rest)
    (h' : m.Owns logical mount' rest') : mount = mount' ∧ rest = rest' := by
  have hsize := le_antisymm (h'.longest mount h.mem _ h.fits) (h.longest mount' h'.mem _ h'.fits)
  have hmount : mount = mount' := List.inj_on_of_nodup_map hm h.mem h'.mem
    (eq_of_isPrefix h.fits.isPrefix h'.fits.isPrefix hsize)
  subst hmount
  have hchars := h.fits.unique h'.fits
  refine ⟨rfl, ?_⟩
  rwa [Path.chars, Path.chars, String.toList_inj, ← Path.mk.injEq] at hchars

/-- A remainder stays in its mount when it neither starts at the root nor leads up. -/
theorem escapes_eq_false_iff (rest : Path) :
    escapes rest = false ↔ rest.isAbsolute = false ∧ rest.IsDown := by
  have hescapes : escapes rest = true ↔ .root ∈ rest.components ∨ .parent ∈ rest.components := by
    simp only [escapes, List.any_eq_true, Bool.or_eq_true, decide_eq_true_eq]
    constructor
    · rintro ⟨c, hc, rfl | rfl⟩
      · exact Or.inl hc
      · exact Or.inr hc
    · rintro (h | h)
      · exact ⟨_, h, Or.inl rfl⟩
      · exact ⟨_, h, Or.inr rfl⟩
  rw [← Bool.not_eq_true, hescapes, Path.root_mem_components, Path.parent_mem_components, not_or,
    not_not, Bool.not_eq_true]

theorem mem_hits {rest : List Char} :
    (mount, rest) ∈ (m.all.filterMap fun mount =>
      (remainder? mount.name.toList logical.toList).map fun rest => (mount, rest)) ↔
    mount ∈ m.all ∧ Fits mount.name.toList logical.toList rest := by
  simp only [List.mem_filterMap, Option.map_eq_some_iff, remainder?_eq_some_iff, Prod.mk.injEq]
  constructor
  · rintro ⟨mount', hmem, rest', hfits, rfl, rfl⟩
    exact ⟨hmem, hfits⟩
  · rintro ⟨hmem, hfits⟩
    exact ⟨mount, hmem, rest, hfits, rfl, rfl⟩

theorem owns_of_longest {rest : List Char}
    (h : longest (m.all.filterMap fun mount =>
      (remainder? mount.name.toList logical.toList).map fun rest => (mount, rest)) =
        some (mount, rest)) : m.Owns logical mount (Path.ofChars rest) := by
  obtain ⟨hmem, hfits⟩ := mem_hits.1 (mem_of_longest h)
  refine ⟨hmem, ?_, fun other hother rest hrest => ?_⟩
  · rwa [Path.chars_ofChars]
  · exact le_of_longest h _ (mem_hits.2 ⟨hother, hrest⟩)

theorem owns_of_select (h : m.select logical = .ok (mount, rest)) :
    m.Owns logical mount rest ∧ escapes rest = false := by
  unfold select at h
  simp only at h
  split at h
  · cases h
  · next mount' rest' hlongest =>
    split at h
    · cases h
    · next hescapes =>
      cases h
      exact ⟨owns_of_longest hlongest, Bool.eq_false_iff.2 hescapes⟩

theorem select_ok (h : m.select logical = .ok (mount, rest)) :
    remainder? mount.name.toList logical.toList = some rest.chars :=
  (remainder?_eq_some_iff _ _ _).2 (owns_of_select h).1.fits

/-- A logical path is taken when it has an owner, below which what is left stays. -/
theorem select_eq_ok_iff (hm : m.Distinct) : m.select logical = .ok (mount, rest) ↔
    m.Owns logical mount rest ∧ rest.isAbsolute = false ∧ rest.IsDown := by
  rw [← escapes_eq_false_iff]
  refine ⟨owns_of_select, fun ⟨howns, hescapes⟩ => ?_⟩
  unfold select
  simp only
  split
  · next hnone =>
    have hhit := mem_hits.2 ⟨howns.mem, howns.fits⟩
    rw [longest_eq_none_iff.1 hnone] at hhit
    cases hhit
  · next mount' rest' hlongest =>
    obtain ⟨rfl, rfl⟩ := howns.unique hm (owns_of_longest hlongest)
    rw [hescapes]
    rfl

/-- A remainder that is not empty ends as the logical path does. -/
theorem suffix_of_select {m : Mounts} {logical : String} {mount : Mount} {rest : Path}
    {t : List Char} (ht : t <:+ logical.toList) (hsep : '/' ∉ t) (hrest : rest.isEmpty = false)
    (h : m.select logical = .ok (mount, rest)) : t <:+ rest.chars := by
  rcases remainder?_eq_some (select_ok h) with hnil | hall | hafter
  · rw [Path.isEmpty, hnil] at hrest
    cases hrest
  · rw [hall]
    exact ht
  · exact suffix_of_suffix_cons ht hafter hsep

/-- Candidates are below the directories of a mount, in their order. -/
theorem exists_of_candidates {path : Path} {k : ℕ}
    (h : (m.candidates logical)[k]? = some path) :
    ∃ mount rest dir, m.select logical = .ok (mount, rest) ∧ rest.isEmpty = false ∧
      mount.dirs[k]? = some dir ∧ path = dir.join rest := by
  unfold candidates at h
  split at h
  · cases h
  · next mount rest hselect =>
    split at h
    · cases h
    · next hrest =>
      rw [List.getElem?_map, Option.map_eq_some_iff] at h
      obtain ⟨dir, hdir, rfl⟩ := h
      exact ⟨mount, rest, dir, hselect, Bool.eq_false_iff.2 hrest, hdir, rfl⟩

/-- A path that a logical path may stand for ends as it does. -/
theorem suffix_candidates {m : Mounts} {logical : String} {path : Path} {t : List Char}
    (ht : t <:+ logical.toList) (hsep : '/' ∉ t) (h : path ∈ m.candidates logical) :
    t <:+ path.chars := by
  obtain ⟨k, hk⟩ := List.mem_iff_getElem?.1 h
  obtain ⟨mount, rest, dir, hselect, hrest, -, rfl⟩ := exists_of_candidates hk
  exact Path.suffix_join (suffix_of_select ht hsep hrest hselect)

/-- Output is the first path that its logical path may stand for. -/
theorem find?_of_writable {m : Mounts} {logical : String} {output : Path} {isFile : Path → Bool}
    (h : m.writable logical = .ok output) (hfile : isFile output = true) :
    m.find? isFile logical = some output := by
  unfold writable at h
  unfold find? candidates
  split at h
  · cases h
  · next mount rest hselect =>
    split at h
    · cases h
    · next hrest =>
      split at h
      · cases h
      · next dir dirs hdirs =>
        cases h
        simp only [hrest, hdirs, List.map_cons, Bool.false_eq_true, if_false]
        rw [List.find?_cons, hfile]

/-- A logical path that no mount owns, or whose remainder starts at the root or leads up, stands
for nothing. -/
theorem candidates_eq_nil
    (h : ∀ mount rest, m.Owns logical mount rest → rest.isAbsolute = true ∨ ¬ rest.IsDown) :
    m.candidates logical = [] := by
  unfold candidates
  split
  · rfl
  · next mount rest hselect =>
    obtain ⟨howns, hescapes⟩ := owns_of_select hselect
    obtain ⟨hrelative, hdown⟩ := (escapes_eq_false_iff rest).1 hescapes
    rcases h mount rest howns with habsolute | hup
    · rw [hrelative] at habsolute
      cases habsolute
    · exact absurd hdown hup

/-- No directory of a mount is given by a path that leads up. -/
def AreDown (m : Mounts) : Prop := ∀ mount ∈ m.all, ∀ dir ∈ mount.dirs, dir.IsDown

instance (m : Mounts) : Decidable m.AreDown := inferInstanceAs (Decidable (∀ _ ∈ _, _))

theorem isDown_of_select (hm : m.AreDown) (h : m.select logical = .ok (mount, rest)) {dir : Path}
    (hdir : dir ∈ mount.dirs) : (dir.join rest).IsDown := by
  obtain ⟨howns, hescapes⟩ := owns_of_select h
  obtain ⟨hrelative, hrest⟩ := (escapes_eq_false_iff rest).1 hescapes
  exact (hm mount howns.mem dir hdir).join hrest hrelative

theorem isDown_of_mem_candidates (hm : m.AreDown) {path : Path} (h : path ∈ m.candidates logical) :
    path.IsDown := by
  obtain ⟨k, hk⟩ := List.mem_iff_getElem?.1 h
  obtain ⟨mount, rest, dir, hselect, -, hdir, rfl⟩ := exists_of_candidates hk
  exact isDown_of_select hm hselect (List.mem_of_getElem? hdir)

/-- Output goes into the first directory of the selected mount. -/
theorem writable_eq_ok_iff {output : Path} :
    m.writable logical = .ok output ↔
      ∃ mount rest dir, m.select logical = .ok (mount, rest) ∧ rest.isEmpty = false ∧
        mount.dirs.head? = some dir ∧ output = dir.join rest := by
  unfold writable
  constructor
  · intro h
    split at h
    · cases h
    · next mount rest hselect =>
      split at h
      · cases h
      · next hrest =>
        split at h
        · cases h
        · next dir dirs hdirs =>
          cases h
          exact ⟨mount, rest, dir, hselect, Bool.eq_false_iff.2 hrest, by rw [hdirs]; rfl, rfl⟩
  · rintro ⟨mount, rest, dir, hselect, hrest, hdir, rfl⟩
    obtain ⟨dirs, hdirs⟩ := List.head?_eq_some_iff.1 hdir
    simp [hselect, hrest, hdirs]

/-- Output goes below a directory of a mount. -/
theorem exists_of_writable {output : Path} (h : m.writable logical = .ok output) :
    ∃ mount rest dir, m.select logical = .ok (mount, rest) ∧ rest.isEmpty = false ∧
      dir ∈ mount.dirs ∧ output = dir.join rest := by
  obtain ⟨mount, rest, dir, hselect, hrest, hdir, houtput⟩ := writable_eq_ok_iff.1 h
  exact ⟨mount, rest, dir, hselect, hrest, List.mem_of_head? hdir, houtput⟩

/-- Output goes to a path that ends as its logical path does. -/
theorem suffix_writable {output : Path} {t : List Char} (ht : t <:+ logical.toList)
    (hsep : '/' ∉ t) (h : m.writable logical = .ok output) : t <:+ output.chars := by
  obtain ⟨mount, rest, dir, hselect, hrest, -, rfl⟩ := exists_of_writable h
  exact Path.suffix_join (suffix_of_select ht hsep hrest hselect)

theorem isDown_of_writable (hm : m.AreDown) {output : Path} (h : m.writable logical = .ok output) :
    output.IsDown := by
  obtain ⟨mount, rest, dir, hselect, -, hdir, rfl⟩ := exists_of_writable h
  exact isDown_of_select hm hselect hdir

end Mounts

end StyleBuild
