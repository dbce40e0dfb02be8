import StyleBuild.Proofs.Publisher.Step

/-!
# What stays when files change

An output and its record are found again after every change to other files
(`keeps_of_sameOutside`), and no step of a publication changes a source
(`Advances.sources`).
-/

namespace StyleBuild

open Files

variable {id : String} {output : Path} {store : RecordStore} {s : Set Location} {v w : World}

theorem lock_notMem_places (home : Location) :
    (lockPath output).place home ∉ store.places home id := by
  cases store with
  | memory n =>
      intro h
      exact h
  | files dir =>
      intro h
      exact record_ne_lock home dir id output h.symm

theorem output_notMem_places (hout : IsOutput output) (home : Location) :
    output.place home ∉ store.places home id := by
  cases store with
  | memory n =>
      intro h
      exact h
  | files dir =>
      intro h
      exact hout.record_ne_output home dir id h.symm

/-- No record is where an output or its lock file is. -/
theorem places_notMem_output (houtput : IsOutput output) (store : RecordStore) (home : Location)
    (id : String) : ∀ l ∈ store.places home id,
      l ∉ ({output.place home, (lockPath output).place home} : Set Location) := by
  rintro l hl (rfl | rfl)
  · exact output_notMem_places houtput home hl
  · exact lock_notMem_places home hl

theorem source_notMem_places {path : Path} (hpath : IsSource path) (home : Location) :
    path.place home ∉ store.places home id := by
  cases store with
  | memory n =>
      intro h
      exact h
  | files dir =>
      intro h
      exact hpath.ne_record dir id home h

theorem exists_of_length_eq (h : w.memory.length = v.memory.length) (hv : store.Exists v) :
    store.Exists w := by
  cases store with
  | memory i =>
      have hi : i < v.memory.length := hv
      exact (h ▸ hi : i < w.memory.length)
  | files dir => trivial

/-- The output and its record are still found as they were. -/
structure Keeps (id : String) (output : Path) (store : RecordStore) (v w : World) : Prop where
  output : ∀ content, v.files.read output = .ok content → w.files.read output = .ok content
  record : ∀ r, store.get v id = .ok (some r) → store.get w id = .ok (some r)

theorem keeps_of_sameOutside (hout : IsOutput output) (hfiles : SameOutside s v.files w.files)
    (hmemory : w.memory = v.memory) (houtput : output.place v.files.home ∉ s)
    (hrecord : ∀ l ∈ store.places v.files.home id, l ∉ s) : Keeps id output store v w :=
  ⟨fun _ h => hfiles.read hout.isNamed houtput h,
    fun _ h => RecordStore.get_of_sameOutside hfiles hmemory hrecord h⟩

theorem keeps_of_eq (hfiles : w.files = v.files) (hmemory : w.memory = v.memory) :
    Keeps id output store v w := by
  have hsame : SameOutside ∅ v.files w.files := by
    rw [hfiles]
  constructor
  · intro content h
    rw [hfiles]
    exact h
  · intro r h
    exact RecordStore.get_of_sameOutside hsame hmemory (fun _ _ hmem => hmem) h

theorem keeps_of_quiet (hout : IsOutput output) (h : v.SameOutside ∅ w) :
    Keeps id output store v w :=
  keeps_of_sameOutside hout h.files h.memory (fun hmem => hmem) fun _ _ hmem => hmem

theorem keeps_of_triesLock (hout : IsOutput output) (h : v.TriesLock output w) :
    Keeps id output store v w := by
  refine keeps_of_sameOutside hout h.files h.memory ?_ fun l hl hmem => ?_
  · intro hmem
    exact hout.lock_ne_output _ hmem.symm
  · rw [Set.mem_singleton_iff.1 hmem] at hl
    exact lock_notMem_places _ hl

/-- A change of a source leaves the output and its record alone. -/
theorem keeps_of_source {path : Path} (hout : IsOutput output) (hpath : IsSource path)
    (hfiles : SameOutside {path.place v.files.home} v.files w.files)
    (hmemory : w.memory = v.memory) : Keeps id output store v w := by
  refine keeps_of_sameOutside hout hfiles hmemory ?_ fun l hl hmem => ?_
  · intro hmem
    exact hpath.ne_output hout _ hmem.symm
  · rw [Set.mem_singleton_iff.1 hmem] at hl
    exact source_notMem_places hpath _ hl

/-- The locations of no source. -/
def noSource (home : Location) : Set Location := {l | ∀ path, IsSource path → path.place home ≠ l}

theorem sameOutside_noSource {f g : Files} (h : SameOutside s f g)
    (hs : ∀ path, IsSource path → path.place f.home ∉ s) : SameOutside (noSource f.home) f g := by
  refine h.mono fun l hl path hpath heq => hs path hpath ?_
  rw [heq]
  exact hl

theorem triesLock_sources (h : v.TriesLock output w) :
    SameOutside (noSource v.files.home) v.files w.files :=
  sameOutside_noSource h.files fun _ hpath => hpath.ne_lock output _

/-- The build that a stage is about to write, or to try the lock for. -/
def PublishStage.build? : PublishStage → Option Build
  | built b => some b
  | locked b _ => some b
  | _ => none

/-- A step changes no source, not the clock, and makes no store. -/
theorem Publisher.Advances.sources {p : Publisher} {stage stage' : PublishStage}
    (h : p.Advances v stage w stage') (hout : ∀ b ∈ stage.build?, IsOutput b.output) :
    SameOutside (noSource v.files.home) v.files w.files ∧ w.now = v.now ∧
      w.memory.length = v.memory.length := by
  cases h with
  | unnamed quiet | named quiet | unwritten quiet | unrecorded quiet =>
      exact ⟨quiet.files.of_empty _, quiet.now, congrArg List.length quiet.memory⟩
  | unlocked tries | busy tries | acquired tries =>
      exact ⟨triesLock_sources tries, tries.now, congrArg List.length tries.memory⟩
  | @wrote _ b lock same =>
      have hb : IsOutput b.output := hout b rfl
      have hsame := same hb.isNamed
      exact ⟨sameOutside_noSource hsame.files fun _ hpath => hpath.ne_output hb _, hsame.now,
        congrArg List.length hsame.memory⟩
  | recorded hput =>
      obtain ⟨hsame, hnow, -, hmemory⟩ := RecordStore.put_ok hput
      exact ⟨sameOutside_noSource hsame fun _ hpath => source_notMem_places hpath _, hnow, hmemory⟩
  | rejected | compiled | stamped | released | ended => exact ⟨SameOutside.refl _ _, rfl, rfl⟩

end StyleBuild
