import StyleBuild.Proofs.Mounts.WritableLocation
import StyleBuild.Proofs.Publisher.Ids
import StyleBuild.Proofs.Record.Refinement

/-!
# The names of outputs

An entry, a target and a suffix are put together to an id, which the store reads
as the steps of a record file and the mounts as the name of a mount and a
remainder. When the segments of the target are names and the suffix has no
separator, all segments of an id are names (`areNames_id`), and this is all that
the store and the mounts ask for: the store takes the id, and the mounts refuse
it as a path only when it is the name of a mount (`prepare_eq_invalid_iff`).

The steps of an id are those of the mount and of what is left, so ids of
different steps in one mount have outputs in different places
(`place_ne_of_writable`).
-/

namespace StyleBuild

open Text

namespace Path

/-- Names are left when a text that is no dots goes to the end of the last one. -/
theorem AreNames.append_text {s t : List Char} (h : AreNames (segments '/' s)) (hsep : '/' ∉ t)
    (hdot : ¬ t <:+ ['.', '.']) : AreNames (segments '/' (s ++ t)) := by
  obtain ⟨init, l, hsegs⟩ :=
    (List.eq_nil_or_concat' (segments '/' s)).resolve_left (segments_ne_nil _ _)
  rw [segments_append_of_notMem hsegs hsep]
  intro a ha
  rcases List.mem_append.1 ha with ha | ha
  · exact h a (hsegs ▸ List.mem_append_left _ ha)
  · obtain rfl := List.mem_singleton.1 ha
    have hone : ¬ t <:+ ['.'] := fun hsuffix => hdot (hsuffix.trans (by decide))
    exact ⟨isSilent_append_eq_false l hone, fun hup => hdot (hup ▸ List.suffix_append l t)⟩

end Path

namespace Mounts

variable {m : Mounts} {logical logical' : String} {mount : Mount} {rest rest' output output' : Path}

theorem nameSegments_injective : Function.Injective nameSegments := by
  intro a b h
  have hjoined := congrArg (joined '/') h
  rw [joined_nameSegments, joined_nameSegments] at hjoined
  exact String.toList_inj.1 hjoined

theorem nameSegments_eq_segments (hnames : Path.AreNames (segments '/' logical.toList)) :
    nameSegments logical = segments '/' logical.toList := by
  unfold nameSegments
  split
  · next hnil =>
    rw [hnil] at hnames
    cases (hnames [] List.mem_cons_self).1
  · rfl

/-- What is left below a mount starts with a name, if it is not empty. -/
theorem LongestPrefix.remainder_of_areNames {rest : List (List Char)}
    (hnames : Path.AreNames (segments '/' logical.toList))
    (h : m.LongestPrefix logical mount rest) :
    ((remainder rest).isEmpty = true ↔ rest = []) ∧ (remainder rest).isAbsolute = false := by
  rw [Path.isAbsolute_eq, Path.isEmpty, remainder, Path.chars_ofChars]
  cases hrest : rest with
  | nil => simp [joined]
  | cons s tail =>
      have hmem : s ∈ rest := hrest ▸ List.mem_cons_self
      have hname := hnames s (h.segments_eq ▸ List.mem_append_right _ hmem)
      cases hs : s with
      | nil =>
          rw [hs] at hname
          cases hname.1
      | cons c s' =>
          have hc : c ≠ '/' := fun heq =>
            h.notMem s hmem (by rw [hs, heq]; exact List.mem_cons_self)
          simp [joined_cons_cons, hc]

/-- Nothing is left below a mount exactly when the logical path is the name of one. -/
theorem LongestPrefix.eq_nil_iff {rest : List (List Char)}
    (hnames : Path.AreNames (segments '/' logical.toList))
    (h : m.LongestPrefix logical mount rest) :
    rest = [] ↔ ∃ mount' ∈ m.all, mount'.name = logical := by
  have hlogical := nameSegments_eq_segments hnames
  have hsegs := h.segments_eq
  rw [← hlogical] at hsegs
  constructor
  · rintro rfl
    rw [List.append_nil] at hsegs
    exact ⟨mount, h.mem, (nameSegments_injective hsegs).symm⟩
  · rintro ⟨mount', hmem, rfl⟩
    have hlength := h.longest mount' hmem (hlogical ▸ List.prefix_refl _)
    rw [hsegs, List.length_append] at hlength
    exact List.length_eq_zero_iff.1 (by omega)

/-- The mounts take a logical path whose segments are names, unless it is the name of a mount. -/
theorem prepare_eq_invalid_iff (m : Mounts) (w : World) {text : String}
    (hnames : Path.AreNames (segments '/' logical.toList)) :
    (m.prepare w logical).2 = .error (.invalidResourcePath text) ↔
      text = logical ∧ ∃ mount ∈ m.all, mount.name = logical := by
  rw [prepare_eq_invalid_iff_writable]
  rcases select_cases m logical with ⟨hselect, hnone⟩ | ⟨mount, rest, hlong, -⟩
  · rw [writable, hselect]
    constructor
    · intro h
      cases h
    · rintro ⟨-, mount, hmem, rfl⟩
      exact absurd (nameSegments_eq_segments hnames ▸ List.prefix_refl _) (hnone mount hmem)
  · obtain ⟨hempty, hrelative⟩ := hlong.remainder_of_areNames hnames
    have hup : ['.', '.'] ∉ rest := fun hmem =>
      (hnames _ (hlong.segments_eq ▸ List.mem_append_right _ hmem)).2 rfl
    rw [hlong.writable_eq_invalid_iff, ← hlong.eq_nil_iff hnames, hempty]
    simp [hrelative, hup]

/-- The steps of a logical path are those of the name of its mount and those of what is left. -/
theorem steps_of_select (h : m.select logical = .ok (mount, rest)) :
    (Path.mk logical).steps =
      (nameSegments mount.name).filter (fun s => !Path.isSilent s) ++ rest.steps := by
  obtain ⟨segs, hlong, rfl⟩ := owns_iff_longestPrefix.1 (owns_of_select h).1
  have hrest : (remainder segs).steps = segs.filter fun s => !Path.isSilent s := by
    rw [Path.steps, remainder, Path.chars_ofChars]
    rcases eq_or_ne segs [] with rfl | hne
    · rfl
    · rw [segments_joined hne hlong.notMem]
  rw [hrest, ← List.filter_append, ← hlong.segments_eq]
  rfl

/-- Logical paths of different steps get output in different places of one mount. -/
theorem place_ne_of_writable (hselect : m.select logical = .ok (mount, rest))
    (hselect' : m.select logical' = .ok (mount, rest'))
    (hwritable : m.writable logical = .ok output) (hwritable' : m.writable logical' = .ok output')
    (hsteps : (Path.mk logical).steps ≠ (Path.mk logical').steps) (home : Location) :
    output.place home ≠ output'.place home := by
  have hplace : ∀ {l : String} {r o : Path}, m.select l = .ok (mount, r) → m.writable l = .ok o →
      ∃ dir, mount.dirs.head? = some dir ∧ o.place home = dir.place home ++ r.steps := by
    intro l r o hl ho
    obtain ⟨mount', r', dir, hl', -, hdir, rfl⟩ := writable_eq_ok_iff.1 ho
    rw [hl] at hl'
    cases hl'
    obtain ⟨hrelative, hdown⟩ := (escapes_eq_false_iff r).1 (owns_of_select hl).2
    exact ⟨dir, hdir, Path.place_join dir hdown hrelative home⟩
  obtain ⟨dir, hdir, hout⟩ := hplace hselect hwritable
  obtain ⟨dir', hdir', hout'⟩ := hplace hselect' hwritable'
  obtain rfl := Option.some.inj (hdir.symm.trans hdir')
  rw [hout, hout']
  intro heq
  apply hsteps
  rw [steps_of_select hselect, steps_of_select hselect', List.append_cancel_left heq]

end Mounts

/-- A target that is empty or has segments that are names, with a separator at the end or not. -/
def IsTarget (target : String) : Prop :=
  target = "" ∨ ∃ base, Path.AreNames (segments '/' base.toList) ∧
    (target = base ∨ target = base ++ "/")

namespace Publisher

variable {p : Publisher} {target entry entry' id id' : String}

/-- A target whose segments are names stays as it is, and loses a separator at its end. -/
theorem target_withTarget (p : Publisher) {base : String}
    (hnames : Path.AreNames (segments '/' base.toList)) :
    (p.withTarget base).target = base ∧ (p.withTarget (base ++ "/")).target = base := by
  have hlast : base.toList.reverse.dropWhile (· = '/') = base.toList.reverse := by
    cases hreverse : base.toList.reverse with
    | nil => rfl
    | cons c t =>
        have hc : c ≠ '/' := by
          rintro rfl
          rw [List.reverse_eq_cons_iff] at hreverse
          have hsegs := segments_append_sep '/' t.reverse []
          rw [← hreverse] at hsegs
          cases (hnames [] (by rw [hsegs]; exact List.mem_append_right _ List.mem_cons_self)).1
        simp [hc]
  constructor
  · simp [withTarget, hlast]
  · simp [withTarget, String.toList_append, hlast]

/-- The segments of the target are names before those of an entry. -/
theorem areNames_idBefore_append (p : Publisher) (htarget : IsTarget target) {s : List Char}
    (hs : Path.AreNames (segments '/' s)) :
    Path.AreNames (segments '/' ((p.withTarget target).idBefore ++ s)) := by
  unfold idBefore
  rcases htarget with rfl | ⟨base, hnames, h⟩
  · exact hs
  · have hbase : (p.withTarget target).target = base := by
      rcases h with rfl | rfl
      · exact (p.target_withTarget hnames).1
      · exact (p.target_withTarget hnames).2
    rw [hbase]
    split
    · exact hs
    · rw [List.append_assoc, List.singleton_append, segments_append_sep]
      exact fun l hl => (List.mem_append.1 hl).elim (hnames l) (hs l)

theorem suffix_idAfter (p : Publisher) : ".css".toList <:+ p.idAfter := by
  unfold idAfter
  split
  · split
    · exact List.suffix_refl _
    · exact (List.suffix_append _ _).trans (List.suffix_cons _ _)
  · exact List.suffix_refl _

theorem notMem_idAfter (hsuffix : ∀ suffix ∈ p.suffix, '/' ∉ suffix.toList) : '/' ∉ p.idAfter := by
  unfold idAfter
  split
  · next suffix h =>
    have hnot := hsuffix suffix h
    split
    · decide
    · simp [hnot]
  · decide

/-- Every segment of an id is a name. -/
theorem areNames_id (htarget : IsTarget target) (hsuffix : ∀ suffix ∈ p.suffix, '/' ∉ suffix.toList)
    (hid : (p.withTarget target).outputId entry = .ok id) :
    Path.AreNames (segments '/' id.toList) := by
  obtain ⟨hvalid, hchars⟩ := outputId_eq_ok hid
  have hentry : Path.AreNames (segments '/' entry.toList) := by
    intro s hs
    obtain ⟨hne, hdot, hup⟩ := segments_of_isValidEntry hvalid s hs
    exact ⟨by simp [Path.isSilent, hne, hdot], hup⟩
  have hdot : ¬ (p.withTarget target).idAfter <:+ ['.', '.'] := fun h =>
    absurd ((suffix_idAfter _).trans h) (by decide)
  rw [hchars]
  exact p.areNames_idBefore_append htarget (hentry.append_text (notMem_idAfter hsuffix) hdot)

/-- A publisher whose target is empty or has segments that are names, and whose suffix has no
separator. The store takes the id of every entry, and the mounts refuse it as a path only when it is
the name of a mount. Different entries have different ids and different record files, and when one
mount takes both ids, the output, the lock file and the record file of one entry are none of the
output and the lock file of the other. -/
theorem outputs_apart (p : Publisher) (htarget : IsTarget target)
    (hsuffix : ∀ suffix ∈ p.suffix, '/' ∉ suffix.toList)
    (hid : (p.withTarget target).outputId entry = .ok id) :
    (∀ dir, RecordStore.recordPath dir id = .ok (RecordStore.recordFile dir id)) ∧
    (∀ w text, (p.mounts.prepare w id).2 = .error (.invalidResourcePath text) ↔
      text = id ∧ ∃ mount ∈ p.mounts.all, mount.name = id) ∧
    ∀ entry' id', (p.withTarget target).outputId entry' = .ok id' → entry ≠ entry' →
      id ≠ id' ∧
      (∀ dir home, (RecordStore.recordFile dir id).place home ≠
        (RecordStore.recordFile dir id').place home) ∧
      ∀ mount rest rest' output output',
        p.mounts.select id = .ok (mount, rest) → p.mounts.select id' = .ok (mount, rest') →
        p.mounts.writable id = .ok output → p.mounts.writable id' = .ok output' →
        ∀ store home, ∀ l ∈ Session.places id output store home,
          l ∉ ({output'.place home, (lockPath output').place home} : Set Location) := by
  have hnames := areNames_id htarget hsuffix hid
  refine ⟨fun dir => RecordStore.recordPath_eq_ok_iff.2
    ⟨RecordStore.isValidId_of_areNames hnames, rfl⟩,
    fun w text => p.mounts.prepare_eq_invalid_iff w hnames, fun entry' id' hid' hne => ?_⟩
  have hsteps : ∀ extension,
      (Path.mk (id ++ extension)).steps ≠ (Path.mk (id' ++ extension)).steps :=
    steps_id_ne hid hid' hne
  refine ⟨fun heq => hsteps "" (by rw [heq]), fun dir home => ?_,
    fun mount rest rest' output output' hselect hselect' hwritable hwritable' store home => ?_⟩
  · exact apart_of_ne (p := { p.withTarget target with store := .files dir }) hid hid' hne home
      (RecordStore.isValidId_of_areNames hnames)
      (RecordStore.isValidId_of_areNames (areNames_id htarget hsuffix hid'))
  · have houtput : IsOutput output := isOutput hid hwritable
    have houtput' : IsOutput output' := isOutput hid' hwritable'
    have hplace := Mounts.place_ne_of_writable hselect hselect' hwritable hwritable'
      (by simpa using hsteps "") home
    have hlock : (lockPath output).place home ≠ (lockPath output').place home :=
      Path.place_withSuffix_ne houtput.isNamed houtput'.isNamed (by decide) (by decide) hplace
    rintro l ((rfl | rfl) | hrecord) hl
    · rcases hl with h | h
      · exact hplace h
      · exact houtput.lock_ne_output home h.symm
    · rcases hl with h | h
      · exact houtput'.lock_ne_output home h
      · exact hlock h
    · exact places_notMem_output houtput' store home id l hrecord hl

/-- A publisher with a suffix. -/
def blueBuilder : Publisher := { siteBuilder with suffix := some "blue" }

theorem outputs_apart_blueBuilder :
    (blueBuilder.withTarget "css-compiled/").outputId "main" = .ok "css-compiled/main_blue.css" ∧
    RecordStore.recordPath ⟨"meta"⟩ "css-compiled/main_blue.css" =
      .ok ⟨"meta/css-compiled/main_blue.css.meta.json"⟩ ∧
    (∀ text, (blueBuilder.mounts.prepare site "css-compiled/main_blue.css").2 ≠
      .error (.invalidResourcePath text)) ∧
    ∀ l ∈ Session.places "css-compiled/main_blue.css" ⟨"public/main_blue.css"⟩ (.files ⟨"meta"⟩) [],
      l ∉ ({(Path.mk "public/forms/main_blue.css").place [],
        (Path.mk "public/forms/main_blue.css.lock").place []} : Set Location) := by
  have hnames : Path.AreNames (segments '/' "css-compiled".toList) := by
    unfold Path.AreNames
    decide
  have hid : (blueBuilder.withTarget "css-compiled/").outputId "main" =
      .ok "css-compiled/main_blue.css" := by decide +kernel
  obtain ⟨hrecord, hprepare, hapart⟩ := outputs_apart blueBuilder
    (.inr ⟨"css-compiled", hnames, .inr rfl⟩) (by decide) hid
  refine ⟨hid, (hrecord ⟨"meta"⟩).trans (by decide +kernel), fun text htext => ?_, ?_⟩
  · obtain ⟨mount, hmem, hname⟩ := ((hprepare site text).1 htext).2
    revert mount
    decide +kernel
  · exact (hapart "forms/main" "css-compiled/forms/main_blue.css" (by decide +kernel)
      (by decide)).2.2 ⟨"css-compiled", [⟨"public"⟩]⟩ ⟨"main_blue.css"⟩ ⟨"forms/main_blue.css"⟩ _
      ⟨"public/forms/main_blue.css"⟩ (by decide +kernel) (by decide +kernel) (by decide +kernel)
      (by decide +kernel) _ _

end Publisher

end StyleBuild
