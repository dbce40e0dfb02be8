import StyleBuild.Proofs.Publisher.Success

/-!
# Paths stay in their directories

`Path.LiesBelow dir p` says that a path takes the components of a directory and
then names only, where a component that stays where it is does not count. What
is joined to a directory lies below it when it is relative and down
(`liesBelow_join`), and a path below a directory stays there with a suffix
(`LiesBelow.withSuffix`).

From this: what the mounts find and what they give for output, every import,
the output and the lock file of every publication, and the file of every record
lie below a directory of a mount or of the store (`path_containment`).
-/

namespace StyleBuild

open Text

namespace Path

/-- The components but those that stay where they are. -/
def moves (p : Path) : List Component := p.components.filter (· ≠ .current)

/-- The components of `dir`, and then names, at least one. -/
def LiesBelow (dir p : Path) : Prop :=
  ∃ names, names ≠ [] ∧ p.moves = dir.moves ++ names.map Component.name

theorem segmentComponent_ne_current (s : List Char) : segmentComponent s ≠ .current := by
  unfold segmentComponent
  split <;> simp

theorem moves_eq (p : Path) :
    p.moves = (if p.isAbsolute then [.root] else []) ++ p.steps.map segmentComponent := by
  have hsteps : (p.steps.map segmentComponent).filter (· ≠ .current) =
      p.steps.map segmentComponent := by
    rw [List.filter_eq_self]
    intro c hc
    obtain ⟨s, -, rfl⟩ := List.mem_map.1 hc
    exact decide_eq_true (segmentComponent_ne_current s)
  have habsolute := isAbsolute_iff p
  rw [moves, components_eq, List.filter_append, hsteps]
  rcases leadComponents_cases (leadAndSegments p.chars).1 with h | h | h <;>
    rw [h] at habsolute ⊢ <;> simp_all

theorem moves_join (a : Path) {b : Path} (hb : b.isAbsolute = false) :
    (a.join b).moves = a.moves ++ b.moves := by
  obtain ⟨hsteps, habsolute⟩ := steps_join (a := a) hb
  rw [moves_eq, moves_eq, moves_eq, hsteps, habsolute, hb, List.map_append]
  simp

/-- Steps that do not lead up are names. -/
theorem map_segmentComponent {segs : List (List Char)} (h : ['.', '.'] ∉ segs) :
    segs.map segmentComponent = segs.map Component.name := by
  refine List.map_congr_left fun s hs => ?_
  have hup : s ≠ ['.', '.'] := fun heq => h (heq ▸ hs)
  rw [segmentComponent, if_neg hup]

theorem moves_of_isDown {p : Path} (hrelative : p.isAbsolute = false) (hdown : p.IsDown) :
    p.moves = p.steps.map Component.name := by
  rw [moves_eq, hrelative, map_segmentComponent ((isDown_iff p).1 hdown)]
  rfl

theorem liesBelow_join (dir : Path) {rest : Path} (hrelative : rest.isAbsolute = false)
    (hdown : rest.IsDown) (hnamed : rest.IsNamed) : LiesBelow dir (dir.join rest) := by
  refine ⟨rest.steps, ?_, ?_⟩
  · rw [steps_eq_of_isNamed hnamed]
    exact List.append_ne_nil_of_right_ne_nil _ (List.cons_ne_nil _ _)
  · rw [moves_join dir hrelative, moves_of_isDown hrelative hdown]

/-- A path below a directory stays there when a text goes to the end of its last segment. -/
theorem LiesBelow.withSuffix {dir p : Path} (h : LiesBelow dir p) (hp : p.IsNamed)
    {suffix : String} (hsep : '/' ∉ suffix.toList) (hdot : ¬ suffix.toList <:+ ['.', '.']) :
    LiesBelow dir (p.withSuffix suffix) := by
  obtain ⟨habove, hlast⟩ := above_withSuffix p hsep
  have hsuffix := isNamed_withSuffix p hsep hdot
  have hup : p.lastSegment ++ suffix.toList ≠ ['.', '.'] := hlast ▸ hsuffix.2.2
  have hmoves : ∀ q : Path, q.IsNamed → q.moves =
      ((if q.isAbsolute then [.root] else []) ++ q.stepsAbove.map segmentComponent) ++
        [segmentComponent q.lastSegment] := by
    intro q hq
    rw [moves_eq, steps_eq_of_isNamed hq, List.map_append, List.append_assoc]
    rfl
  obtain ⟨names, hnames, hbelow⟩ := h
  obtain ⟨init, name, rfl⟩ := (List.eq_nil_or_concat' names).resolve_left hnames
  rw [hmoves p hp, List.map_append, ← List.append_assoc] at hbelow
  obtain ⟨hinit, -⟩ := List.append_inj' hbelow rfl
  refine ⟨init ++ [p.lastSegment ++ suffix.toList], by simp, ?_⟩
  rw [hmoves _ hsuffix, isAbsolute_withSuffix hp, stepsAbove, habove, ← stepsAbove, hinit, hlast,
    segmentComponent, if_neg hup, List.map_append, List.append_assoc]
  rfl

end Path

namespace Mounts

variable {m : Mounts} {logical : String} {path : Path}

/-- A path lies below one of the directories of the mounts. -/
def Contains (m : Mounts) (path : Path) : Prop :=
  ∃ mount ∈ m.all, ∃ dir ∈ mount.dirs, Path.LiesBelow dir path

/-- The directories of a mount were given with its name. -/
theorem exists_of_mem_ofList {mounts : List (String × List Path)} {mount : Mount}
    (h : mount ∈ (ofList mounts).all) : ∃ name, (name, mount.dirs) ∈ mounts ∧
      mount.name = String.ofList (trimSeparators name.toList) := by
  have hadd : ∀ m : Mounts, mount ∈ (mounts.foldl (fun m e => m.add e.1 e.2) m).all →
      mount ∈ m.all ∨ ∃ name, (name, mount.dirs) ∈ mounts ∧
        mount.name = String.ofList (trimSeparators name.toList) := by
    clear h
    induction mounts with
    | nil => exact fun m hm => Or.inl hm
    | cons e mounts ih =>
        intro m hm
        rcases ih (m.add e.1 e.2) hm with hm | ⟨name, hname, heq⟩
        · rcases List.mem_append.1 hm with hm | hm
          · exact Or.inl (List.mem_filter.1 hm).1
          · obtain rfl := List.mem_singleton.1 hm
            exact Or.inr ⟨e.1, List.mem_cons_self, rfl⟩
        · exact Or.inr ⟨name, List.mem_cons_of_mem _ hname, heq⟩
  exact (hadd empty h).resolve_left (List.not_mem_nil)

/-- What a logical path may stand for takes the components of a directory and those of the
remainder, which are names. -/
theorem moves_of_select {mount : Mount} {rest : Path} (h : m.select logical = .ok (mount, rest))
    (dir : Path) : (dir.join rest).moves = dir.moves ++ rest.moves ∧
      rest.moves = rest.steps.map Path.Component.name := by
  obtain ⟨hrelative, hdown⟩ := (escapes_eq_false_iff rest).1 (owns_of_select h).2
  exact ⟨Path.moves_join dir hrelative, Path.moves_of_isDown hrelative hdown⟩

/-- A logical path that ends in a name stands for paths below the directories. -/
theorem contains_of_select {mount : Mount} {rest dir : Path} {t : List Char}
    (ht : t <:+ logical.toList) (hsep : '/' ∉ t) (hdot : ¬ t <:+ ['.', '.'])
    (hrest : rest.isEmpty = false) (h : m.select logical = .ok (mount, rest))
    (hdir : dir ∈ mount.dirs) : m.Contains (dir.join rest) := by
  obtain ⟨howns, hescapes⟩ := owns_of_select h
  obtain ⟨hrelative, hdown⟩ := (escapes_eq_false_iff rest).1 hescapes
  have hnamed := Path.isNamed_of_suffix (suffix_of_select ht hsep hrest h) hsep hdot
  exact ⟨mount, howns.mem, dir, hdir, Path.liesBelow_join dir hrelative hdown hnamed⟩

end Mounts

namespace RecordStore

/-- The file of a record lies below the directory of the store. -/
theorem liesBelow_recordPath {dir path : Path} {id : String} (h : recordPath dir id = .ok path) :
    Path.LiesBelow dir path := by
  obtain ⟨hid, rfl⟩ := recordPath_eq_ok_iff.1 h
  obtain ⟨hrelative, hdown⟩ := isDown_recordName hid
  exact Path.liesBelow_join dir hrelative hdown (Path.isNamed_of_suffix
    (Path.suffix_append_text id ".meta.json") (by decide) (by decide))

end RecordStore

/-- An import that is found lies below a directory of the mounts. -/
theorem Locator.contains_resolve {l : Locator} {m : Mounts} {isFile : Path → Bool} {token : String}
    {hit : ResolvedImport} (h : l.resolve (m.find? isFile) token = some hit) :
    m.Contains hit.path := by
  obtain ⟨hlogical, hfind⟩ := resolve_eq_some h
  obtain ⟨k, hk⟩ := List.mem_iff_getElem?.1 (List.mem_of_find?_eq_some hfind)
  obtain ⟨mount, rest, dir, hselect, hrest, hdir, hpath⟩ := Mounts.exists_of_candidates hk
  rw [hpath]
  exact Mounts.contains_of_select (suffix_candidates hlogical) (by decide) (by decide) hrest hselect
    (List.mem_of_getElem? hdir)

/-- The output that an outcome names. -/
def PublishOutcome.output : PublishOutcome → Path
  | written output _ => output
  | lockHeld output => output

/-- The output that a stage names. -/
def PublishStage.output? : PublishStage → Option Path
  | started _ => none
  | located _ _ output => some output
  | built b => some b.output
  | locked b _ => some b.output
  | written b _ => some b.output
  | stamped output _ _ => some output
  | releasing (.ok outcome) _ => some outcome.output
  | releasing (.error _) _ => none
  | finished (.ok outcome) => some outcome.output
  | finished (.error _) => none

namespace Publisher

variable {p : Publisher} {entry : String} {v w : World} {stage stage' : PublishStage}

/-- The entry has this output. -/
def HasOutput (p : Publisher) (entry : String) (output : Path) : Prop :=
  ∃ id, p.outputId entry = .ok id ∧ p.mounts.writable id = .ok output

/-- The first step names the output of its entry, and later ones no other. -/
theorem Advances.output? (h : p.Advances v stage w stage') : ∀ output ∈ stage'.output?,
    output ∈ stage.output? ∨ ∃ entry, stage = .started entry ∧ p.HasOutput entry output := by
  intro output houtput
  cases h with
  | named quiet hid hwritable =>
      cases houtput
      exact Or.inr ⟨_, rfl, _, hid, hwritable⟩
  | unnamed => cases houtput
  | rejected => cases houtput
  | unlocked => cases houtput
  | unwritten => cases houtput
  | unrecorded => cases houtput
  | @released result lock =>
      rcases result with e | outcome
      · cases houtput
      · exact Or.inl houtput
  | _ => exact Or.inl houtput

theorem started_of_passes (h : p.Passes w entry v stage) {e : String}
    (hstage : stage = .started e) : e = entry := by
  have hcourse := h.course
  rw [hstage] at hcourse
  exact hcourse.1

/-- Every stage of a publication names the output of its entry, or none. -/
theorem Passes.hasOutput (h : p.Passes w entry v stage) :
    ∀ output ∈ stage.output?, p.HasOutput entry output := by
  induction h with
  | start => exact fun _ houtput => nomatch houtput
  | @step v stage h ih =>
      intro output houtput
      rcases (p.advances_step v stage).output? output houtput with hold | ⟨e, hstage, hnew⟩
      · exact ih output hold
      · rwa [started_of_passes h hstage] at hnew

/-- The output of an entry and its lock file lie below a directory of the mounts. -/
theorem HasOutput.contains {output : Path} (h : p.HasOutput entry output) :
    p.mounts.Contains output ∧ p.mounts.Contains (lockPath output) := by
  obtain ⟨id, hid, hwritable⟩ := h
  have houtput := isOutput hid hwritable
  obtain ⟨mount, rest, dir, hselect, hrest, hdir, heq⟩ := Mounts.exists_of_writable hwritable
  have hcontains : p.mounts.Contains output := by
    rw [heq]
    exact Mounts.contains_of_select (suffix_outputId hid) (by decide) (by decide) hrest hselect hdir
  obtain ⟨mount', hmount', dir', hdir', hbelow⟩ := hcontains
  exact ⟨⟨mount', hmount', dir', hdir', hbelow⟩, mount', hmount', dir', hdir',
    hbelow.withSuffix houtput.isNamed (by decide) (by decide)⟩

end Publisher

/-- Mounts that were added one by one. What they find for a logical path and what they give for
output takes the components of a directory that was given with the mount that owns the logical path,
and then those of the remainder, which are names. So imports lie below directories of the mounts,
and so do the output and the lock file of a publication at every stage; and the file of a record
lies below the directory of its store. -/
theorem path_containment (mounts : List (String × List Path)) :
    (∀ logical path, ((∃ isFile, (Mounts.ofList mounts).find? isFile logical = some path) ∨
        (Mounts.ofList mounts).writable logical = .ok path) →
      ∃ mount rest dir, (Mounts.ofList mounts).Owns logical mount rest ∧ dir ∈ mount.dirs ∧
        (∃ name, (name, mount.dirs) ∈ mounts ∧
          mount.name = String.ofList (Mounts.trimSeparators name.toList)) ∧
        path.moves = dir.moves ++ rest.moves ∧
        ∀ c ∈ rest.moves, ∃ name, c = Path.Component.name name) ∧
    (∀ (l : Locator) isFile token hit,
      l.resolve ((Mounts.ofList mounts).find? isFile) token = some hit →
        (Mounts.ofList mounts).Contains hit.path) ∧
    (∀ (p : Publisher) w entry v stage output, p.mounts = Mounts.ofList mounts →
      p.Passes w entry v stage → output ∈ stage.output? →
        (Mounts.ofList mounts).Contains output ∧
          (Mounts.ofList mounts).Contains (lockPath output)) ∧
    ∀ dir id path, RecordStore.recordPath dir id = .ok path → Path.LiesBelow dir path := by
  refine ⟨fun logical path h => ?_, fun l isFile token hit => Locator.contains_resolve,
    fun p w entry v stage output hmounts hpasses houtput => ?_,
    fun dir id path => RecordStore.liesBelow_recordPath⟩
  · obtain ⟨mount, rest, dir, hselect, hdir, rfl⟩ : ∃ mount rest dir,
        (Mounts.ofList mounts).select logical = .ok (mount, rest) ∧ dir ∈ mount.dirs ∧
          path = dir.join rest := by
      rcases h with ⟨isFile, hfind⟩ | hwritable
      · obtain ⟨k, hk⟩ := List.mem_iff_getElem?.1 (List.mem_of_find?_eq_some hfind)
        obtain ⟨mount, rest, dir, hselect, -, hdir, hpath⟩ := Mounts.exists_of_candidates hk
        exact ⟨mount, rest, dir, hselect, List.mem_of_getElem? hdir, hpath⟩
      · obtain ⟨mount, rest, dir, hselect, -, hdir, hpath⟩ := Mounts.exists_of_writable hwritable
        exact ⟨mount, rest, dir, hselect, hdir, hpath⟩
    obtain ⟨hmoves, hnames⟩ := Mounts.moves_of_select hselect dir
    have howns := (Mounts.owns_of_select hselect).1
    refine ⟨mount, rest, dir, howns, hdir, Mounts.exists_of_mem_ofList howns.mem, hmoves,
      fun c hc => ?_⟩
    rw [hnames] at hc
    obtain ⟨s, -, rfl⟩ := List.mem_map.1 hc
    exact ⟨s, rfl⟩
  · rw [← hmounts]
    exact (hpasses.hasOutput output houtput).contains

/-- A logical path with segments that take no step, a partial, an output with its lock file, and a
record. -/
theorem path_containment_siteBuilder :
    (∃ mount rest dir, Publisher.siteBuilder.mounts.Owns "theme/./forms//button.scss" mount rest ∧
      dir ∈ mount.dirs ∧ (Path.mk "theme/./forms//button.scss").moves = dir.moves ++ rest.moves) ∧
    Publisher.siteBuilder.mounts.Contains ⟨"theme/forms/_button.scss"⟩ ∧
    Publisher.siteBuilder.mounts.Contains ⟨"public/main.css"⟩ ∧
    Publisher.siteBuilder.mounts.Contains ⟨"public/main.css.lock"⟩ ∧
    Path.LiesBelow ⟨"meta"⟩ ⟨"meta/css-compiled/main.css.meta.json"⟩ := by
  obtain ⟨hfound, himport, houtput, hrecord⟩ :
      Publisher.siteBuilder.mounts.find? (fun _ => true) "theme/./forms//button.scss" =
        some ⟨"theme/./forms//button.scss"⟩ ∧
      Publisher.siteBuilder.locator.resolve
          (Publisher.siteBuilder.mounts.find? fun path => path == ⟨"theme/forms/_button.scss"⟩)
          "forms/button" =
        some ⟨"theme/forms/_button.scss", ⟨"theme/forms/_button.scss"⟩⟩ ∧
      (Publisher.siteBuilder.after 2 Publisher.site "main").2.output? = some ⟨"public/main.css"⟩ ∧
      RecordStore.recordPath ⟨"meta"⟩ "css-compiled/main.css" =
        .ok ⟨"meta/css-compiled/main.css.meta.json"⟩ := by
    decide +kernel
  obtain ⟨hlookups, himports, houtputs, hrecords⟩ :=
    path_containment [("theme", [⟨"theme"⟩]), ("css-compiled", [⟨"public"⟩])]
  obtain ⟨mount, rest, dir, howns, hdir, -, hmoves, -⟩ := hlookups _ _ (Or.inl ⟨_, hfound⟩)
  obtain ⟨hcontains, hlock⟩ := houtputs Publisher.siteBuilder Publisher.site "main" _ _ _ rfl
    (Publisher.passes_after Publisher.siteBuilder 2 Publisher.site "main") houtput
  exact ⟨⟨mount, rest, dir, howns, hdir, hmoves⟩, himports _ _ _ _ himport, hcontains, hlock,
    hrecords _ _ _ hrecord⟩

end StyleBuild
