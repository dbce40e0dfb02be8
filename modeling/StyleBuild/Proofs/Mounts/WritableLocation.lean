import StyleBuild.Proofs.Mounts.LongestPrefix
import StyleBuild.Proofs.Publisher.Containment
import StyleBuild.Proofs.Record.Recall

/-!
# Locations for output

The location of an output is the first directory of a mount and what is left of
its logical path below the mount. When something that takes a step is left, the
location lies below that directory, and afterwards there is a directory to hold
it (`World.hasWay_of_createParents`).

Whether something is left is decided by the text: `out` and `out/` are refused,
and so is `out//`, of which the remainder starts at the root. The remainder `.`
is a text that takes no step. It is not refused, and its location is the mount
itself (`prepare_eq_invalid_iff_head?`).
-/

namespace StyleBuild

open Text

namespace World

open Files StyleBuild.Path

variable {v w : World} {p : Path}

/-- Directories that cannot be made are a fault of the files. -/
theorem exists_fault_of_createParents {e : Error} (h : w.createParents p = (v, .error e)) :
    ∃ fault, e = .files fault := by
  unfold createParents at h
  split at h
  · cases h
  · split at h
    · cases h
    · cases h
      exact ⟨_, rfl⟩

/-- When the parent directories of a path were made, the way down to its directory is there. -/
theorem hasWay_of_createParents {base init : List (List Char)} {s : List Char}
    (hsteps : p.steps = base ++ (init ++ [s])) (hnames : AreNames init)
    (hcurrent : p.directory.isEmpty = true → w.files.IsDirectoryAt w.files.home)
    (h : w.createParents p = (v, .ok ())) :
    v.files.HasWay (lead (p.origin v.files.home) base) init := by
  have hne : p.steps ≠ [] := by
    simp [hsteps]
  have habove : p.steps.dropLast = base ++ init := by
    rw [hsteps, ← List.append_assoc, List.dropLast_concat]
  obtain ⟨l, hopened⟩ :=
    (isDirectory_directoryOf_iff hne).1 (isDirectory_of_createParents hne hcurrent h)
  rw [habove] at hopened
  obtain ⟨d, hd, hdown⟩ := exists_of_opened_append hopened
  rw [← walk_eq_lead (opened_eq_ok_iff.1 hd).1]
  exact hasWay_of_opened hnames hdown

end World

namespace Mounts

variable {m : Mounts} {v w : World} {logical text : String} {mount mount' : Mount} {p : Path}
  {rest rest' : List (List Char)}

theorem prepare_eq_ok_iff :
    m.prepare w logical = (v, .ok p) ↔
      m.writable logical = .ok p ∧ w.createParents p = (v, .ok ()) := by
  unfold prepare
  cases m.writable logical with
  | error e => simp
  | ok output =>
      rcases hparents : w.createParents output with ⟨v', e | _⟩
      · simp only [hparents, Prod.mk.injEq, reduceCtorEq, and_false, Except.ok.injEq, false_iff]
        rintro ⟨rfl, h⟩
        rw [hparents] at h
        cases h
      · simp only [hparents, Prod.mk.injEq, Except.ok.injEq]
        constructor
        · rintro ⟨rfl, rfl⟩
          exact ⟨rfl, hparents⟩
        · rintro ⟨rfl, h⟩
          rw [hparents] at h
          cases h
          exact ⟨rfl, rfl⟩

/-- A logical path is refused before any directory is made. -/
theorem prepare_eq_invalid_iff_writable (m : Mounts) (w : World) (logical text : String) :
    (m.prepare w logical).2 = .error (.invalidResourcePath text) ↔
      m.writable logical = .error (.invalidResourcePath text) := by
  unfold prepare
  cases m.writable logical with
  | error e => simp
  | ok output =>
      rcases hparents : w.createParents output with ⟨v, e | _⟩
      · obtain ⟨fault, rfl⟩ := World.exists_fault_of_createParents hparents
        simp [hparents]
      · simp [hparents]

/-- What is left below the mount of a logical path does not depend on which of two mounts of one
name it is. -/
theorem LongestPrefix.rest_unique (h : m.LongestPrefix logical mount rest)
    (h' : m.LongestPrefix logical mount' rest') : rest = rest' := by
  have hlength := le_antisymm (h'.longest mount h.mem h.isPrefix)
    (h.longest mount' h'.mem h'.isPrefix)
  exact (List.append_inj (h.segments_eq.symm.trans h'.segments_eq) hlength).2

/-- A logical path is refused when what is left below its mount starts at the root, leads up or is
empty. -/
theorem LongestPrefix.writable_eq_invalid_iff (h : m.LongestPrefix logical mount rest) :
    m.writable logical = .error (.invalidResourcePath text) ↔
      text = logical ∧ ((remainder rest).isAbsolute = true ∨ ['.', '.'] ∈ rest ∨
        (remainder rest).isEmpty = true) := by
  rw [writable]
  rcases select_cases m logical with ⟨-, hnone⟩ | ⟨mount', rest', hlong, hselect⟩
  · exact absurd h.isPrefix (hnone mount h.mem)
  · obtain rfl := hlong.rest_unique h
    rcases hselect with ⟨hselect, hout⟩ | ⟨hselect, hrelative, hdown⟩
    · rw [hselect, ← or_assoc, and_iff_left (Or.inl hout), Except.error.injEq,
        Error.invalidResourcePath.injEq, eq_comm]
    · rw [hselect]
      simp only [hrelative, hdown, Bool.false_eq_true, false_or]
      split
      · next hempty => simp [hempty, eq_comm]
      · next hempty => split <;> simp [hempty]

/-- Segments that take no step are refused below a mount, unless the first one is `.`. -/
theorem LongestPrefix.prepare_eq_invalid_iff_head? (h : m.LongestPrefix logical mount rest)
    (hsilent : ∀ s ∈ rest, Path.isSilent s = true) (w : World) :
    (m.prepare w logical).2 = .error (.invalidResourcePath logical) ↔
      rest.head? ≠ some ['.'] := by
  have hup : ['.', '.'] ∉ rest := fun hmem => by cases hsilent _ hmem
  rw [prepare_eq_invalid_iff_writable, h.writable_eq_invalid_iff, Path.isAbsolute_eq, Path.isEmpty,
    remainder, Path.chars_ofChars]
  cases rest with
  | nil => simp [joined]
  | cons s tail =>
      have hs : s = [] ∨ s = ['.'] := by
        simpa [Path.isSilent] using hsilent s List.mem_cons_self
      rcases hs with rfl | rfl
      · cases tail <;> simp [joined]
      · cases tail <;> simp [joined, hup]

/-- The location of an output takes the components of the first directory of its mount, and then
the steps that are left, which are names. It lies below the directory when there are such steps, and
then there are directories from that of the mount to the one that holds the location, where a
location without a directory part is in the current directory. Logical paths that leave no step
below their mount are refused, but for those that leave `.` first: they are located at the mount
itself. -/
theorem prepare_location (m : Mounts) (w : World) (logical : String) :
    (∀ v p, m.prepare w logical = (v, .ok p) →
      ∃ mount rest dir, m.select logical = .ok (mount, rest) ∧ mount.dirs.head? = some dir ∧
        p.moves = dir.moves ++ rest.steps.map Path.Component.name ∧
        (Path.LiesBelow dir p ↔ rest.steps ≠ []) ∧
        ∀ init s, rest.steps = init ++ [s] →
          (p.directory.isEmpty = true → w.files.IsDirectoryAt w.files.home) →
            v.files.HasWay (dir.place v.files.home) init) ∧
    ∀ mount rest, m.LongestPrefix logical mount rest →
      (∀ s ∈ rest, Path.isSilent s = true) →
        ((m.prepare w logical).2 = .error (.invalidResourcePath logical) ↔
          rest.head? ≠ some ['.']) := by
  refine ⟨fun v p hprepare => ?_, fun mount rest hlong hsilent =>
    hlong.prepare_eq_invalid_iff_head? hsilent w⟩
  obtain ⟨hwritable, hparents⟩ := prepare_eq_ok_iff.1 hprepare
  obtain ⟨mount, rest, dir, hselect, -, hdir, rfl⟩ := writable_eq_ok_iff.1 hwritable
  obtain ⟨hrelative, hdown⟩ := (escapes_eq_false_iff rest).1 (owns_of_select hselect).2
  obtain ⟨hmoves, hnames⟩ := moves_of_select hselect dir
  obtain ⟨hsteps, habsolute⟩ := Path.steps_join (a := dir) hrelative
  rw [hnames] at hmoves
  refine ⟨mount, rest, dir, hselect, hdir, hmoves, ⟨?_, fun hne => ⟨rest.steps, hne, hmoves⟩⟩,
    fun init s hinit hcurrent => ?_⟩
  · rintro ⟨names, hne, hbelow⟩ hnil
    rw [hmoves, hnil] at hbelow
    exact hne (List.map_eq_nil_iff.1 (List.append_cancel_left hbelow).symm)
  · have harenames : Path.AreNames init := fun t ht =>
      hdown.areNames_steps t (hinit ▸ List.mem_append_left _ ht)
    rw [hinit] at hsteps
    have hway := World.hasWay_of_createParents hsteps harenames hcurrent hparents
    rwa [Path.origin, habsolute, ← Path.origin, ← Path.place_eq_lead_steps] at hway

/-- A new directory below that of the mount is made with the latter. What only names the mount is
refused, but for the spelling with `.`, for which nothing is made. -/
theorem prepare_location_siteBuilder :
    (∃ v, Publisher.siteBuilder.mounts.prepare Publisher.site "css-compiled/forms/main.css" =
        (v, .ok ⟨"public/forms/main.css"⟩) ∧
      Path.LiesBelow ⟨"public"⟩ ⟨"public/forms/main.css"⟩ ∧
      v.files.HasWay ((Path.mk "public").place v.files.home) ["forms".toList]) ∧
    (Publisher.siteBuilder.mounts.prepare Publisher.site "css-compiled//").2 =
      .error (.invalidResourcePath "css-compiled//") ∧
    (Publisher.siteBuilder.mounts.prepare Publisher.site "css-compiled/.").2 =
      .ok ⟨"public/."⟩ ∧
    (Publisher.siteBuilder.mounts.prepare Publisher.site "css-compiled/.").1.files.isDirectory
      ⟨"public"⟩ = false := by
  obtain ⟨hlocated, hselected, hmount, hunmade⟩ :
      (Publisher.siteBuilder.mounts.prepare Publisher.site "css-compiled/forms/main.css").2 =
        .ok ⟨"public/forms/main.css"⟩ ∧
      Publisher.siteBuilder.mounts.select "css-compiled/forms/main.css" =
        .ok (⟨"css-compiled", [⟨"public"⟩]⟩, ⟨"forms/main.css"⟩) ∧
      (Publisher.siteBuilder.mounts.prepare Publisher.site "css-compiled/.").2 =
        .ok ⟨"public/."⟩ ∧
      (Publisher.siteBuilder.mounts.prepare Publisher.site "css-compiled/.").1.files.isDirectory
        ⟨"public"⟩ = false := by
    decide +kernel
  have hlong : Publisher.siteBuilder.mounts.LongestPrefix "css-compiled//"
      ⟨"css-compiled", [⟨"public"⟩]⟩ [[], []] :=
    ⟨by decide +kernel, by decide +kernel, by decide +kernel⟩
  obtain ⟨hlocation, -⟩ :=
    prepare_location Publisher.siteBuilder.mounts Publisher.site "css-compiled/forms/main.css"
  obtain ⟨-, hrefused⟩ :=
    prepare_location Publisher.siteBuilder.mounts Publisher.site "css-compiled//"
  refine ⟨?_, (hrefused _ _ hlong (by decide)).2 (by decide), hmount, hunmade⟩
  generalize Publisher.siteBuilder.mounts.prepare Publisher.site "css-compiled/forms/main.css" =
    prepared at hlocated hlocation
  obtain ⟨v, result⟩ := prepared
  obtain rfl : result = .ok ⟨"public/forms/main.css"⟩ := hlocated
  obtain ⟨mount, rest, dir, hselect, hdir, -, hbelow, hway⟩ := hlocation v _ rfl
  obtain ⟨rfl, rfl⟩ := Prod.mk.inj (Except.ok.inj (hselected.symm.trans hselect))
  obtain rfl := Option.some.inj hdir
  exact ⟨v, rfl, hbelow.2 (by decide),
    hway ["forms".toList] "main.css".toList (by decide) fun hempty => absurd hempty (by decide)⟩

end Mounts

end StyleBuild
