import StyleBuild.Proofs.Files.Directories
import StyleBuild.Proofs.Mounts.Selection
import StyleBuild.Proofs.Record.Apart

/-!
# Records away from the mounts

The directories that are made for an output lie on the way to it, so no record
file is among them when the directory of the store is neither in a directory of
a mount nor around one (`IsApartFrom.notMem_ancestors`). Then every look-up in
the store has the answer that it had (`get_eq`).
-/

namespace StyleBuild

open Files

namespace World

/-- The directories that are made for a path are on the way to it. -/
theorem createParents_newDirectoriesIn (w : World) {p : Path} (hp : p.IsNamed) (hdown : p.IsDown) :
    NewDirectoriesIn (p.ancestors w.files.home) w.files (w.createParents p).1.files := by
  unfold createParents
  split
  · exact NewDirectoriesIn.refl _ _
  · next parent hparent =>
    have hplace : parent.place w.files.home = p.directoryPlace w.files.home := by
      rw [hdown.place_parent? hparent, hdown.directoryPlace_eq, Path.steps_eq_of_isNamed hp,
        List.dropLast_concat]
    have hnew := newDirectoriesIn_createDirectoriesUpTo w.files w.now
      (parent.components.length + 1) (hdown.parent? hparent)
    rw [hplace] at hnew
    split
    · next g hg => rw [createDirectories] at hg; rw [hg] at hnew; exact hnew
    · next g e hg => rw [createDirectories] at hg; rw [hg] at hnew; exact hnew

theorem replaceFile_newDirectoriesIn (w : World) (p : Path) (content : ByteArray) :
    NewDirectoriesIn ∅ w.files (w.replaceFile p content).1.files := by
  have hnew := newDirectoriesIn_replace w.files w.now p content
  unfold replaceFile
  split
  · next g hg => rw [hg] at hnew; exact hnew
  · next g e hg => rw [hg] at hnew; exact hnew

end World

namespace RecordStore

/-- The directory of the store is not given by a path that leads up. -/
def IsDown (store : RecordStore) : Prop :=
  match store with
  | .memory _ => True
  | .files dir => dir.IsDown

/-- The directory of the store is neither in a directory of a mount nor around one. -/
def IsApartFrom (store : RecordStore) (m : Mounts) (home : Location) : Prop :=
  match store with
  | .memory _ => True
  | .files dir => ∀ mount ∈ m.all, ∀ d ∈ mount.dirs,
      ¬ d.place home <+: dir.place home ∧ ¬ dir.place home <+: d.place home

variable {store : RecordStore} {m : Mounts} {home : Location} {id logical : String}

/-- No record is kept on the way to an output. -/
theorem IsApartFrom.notMem_ancestors (h : store.IsApartFrom m home) (hid : isValidId id = true)
    {output : Path} (hnamed : output.IsNamed) (houtput : m.writable logical = .ok output) :
    ∀ l ∈ store.places home id, l ∉ output.ancestors home := by
  intro l hl hmem
  cases store with
  | memory i => exact hl
  | files dir =>
      obtain ⟨mount, rest, d, hselect, -, hd, rfl⟩ := Mounts.exists_of_writable houtput
      obtain ⟨howns, hescapes⟩ := Mounts.owns_of_select hselect
      obtain ⟨hrelative, hrest⟩ := (Mounts.escapes_eq_false_iff rest).1 hescapes
      have hdirectory : d.place home <+: (d.join rest).place home := by
        rw [Path.place_join d hrest hrelative]
        exact List.prefix_append _ _
      have hstore : dir.place home <+: (d.join rest).place home := by
        have habove : dir.place home <+: l := by
          rw [hl, place_recordFile dir home hid]
          exact List.prefix_append _ _
        rw [Path.place_eq_of_isNamed home hnamed]
        exact (habove.trans hmem).trans (List.prefix_append _ _)
      obtain ⟨hout, hin⟩ := h mount howns.mem d hd
      rcases List.prefix_or_prefix_of_prefix hdirectory hstore with h | h
      · exact hout h
      · exact hin h

variable {s t : Set Location} {v w : World}

/-- A look-up has the answer that it had, unless its file has changed or a directory was made in
its place. -/
theorem get_eq (hfiles : SameOutside s v.files w.files) (hnew : NewDirectoriesIn t v.files w.files)
    (hmemory : w.memory = v.memory) (htree : v.files.IsTree) (hdown : store.IsDown)
    (hs : isValidId id = true → ∀ l ∈ store.places v.files.home id, l ∉ s ∧ l ∉ t) :
    store.get w id = store.get v id := by
  cases store with
  | memory i => rw [get, get, hmemory]
  | files dir =>
      unfold get
      simp only
      split
      · rfl
      · next path hpath =>
        obtain ⟨hid, rfl⟩ := recordPath_eq_ok_iff.1 hpath
        obtain ⟨hrelative, hname⟩ := isDown_recordName hid
        have hnamed := isNamed_recordFile dir id
        obtain ⟨hls, hlt⟩ := hs hid _ rfl
        have hhas := hfiles.has_eq hnew htree hnamed (Path.IsDown.join hdown hname hrelative)
          hls hlt
        rw [hhas]
        split
        · next h => rw [readText, readText, hfiles.read_eq_of_has hnamed hls h]
        · rfl

/-- Changes elsewhere bring no record and take none away. -/
theorem Unmoved.get_eq_some_iff (h : store.Unmoved id v w)
    (hfiles : SameOutside s v.files w.files) (htree : v.files.IsTree) (hdown : store.IsDown)
    (hs : isValidId id = true → ∀ l ∈ store.places v.files.home id, l ∉ s) (r : CompileRecord) :
    store.get w id = .ok (some r) ↔ store.get v id = .ok (some r) := by
  refine ⟨fun hr => ?_, h.get r⟩
  cases store with
  | memory i =>
      rcases hv : (v.memory[i]?).bind (·.find? id) with _ | r'
      · exact absurd hr ((h.vacant hv).get_ne r)
      · have hr' : (RecordStore.memory i).get v id = .ok (some r') := by
          rw [RecordStore.get, hv]
        rw [hr', ← h.get r' hr', hr]
  | files dir =>
      rw [get_files_eq_some_iff] at hr ⊢
      obtain ⟨hid, l, x, text, hfind, hread⟩ := hr
      obtain ⟨hrelative, hname⟩ := isDown_recordName hid
      exact ⟨hid, l, x, text, (hfiles.find_file_iff htree (isNamed_recordFile dir id)
        (Path.IsDown.join hdown hname hrelative) (hs hid _ rfl) l x).1 hfind, hread⟩

/-- The locations on the way to the record of an output. -/
def ancestors (store : RecordStore) (home : Location) (id : String) : Set Location :=
  match store with
  | .memory _ => ∅
  | .files dir => (recordFile dir id).ancestors home

theorem places_notMem_ancestors (store : RecordStore) (home : Location) (id : String) :
    ∀ l ∈ store.places home id, l ∉ store.ancestors home id := by
  cases store with
  | memory i => exact fun _ hl => absurd hl (Set.notMem_empty _)
  | files dir =>
      rintro l rfl
      exact Path.place_notMem_ancestors (isNamed_recordFile dir id) home

/-- The directories that are made for a record are on the way to its file. -/
theorem put_newDirectoriesIn (hdown : store.IsDown) (w : World) (r : CompileRecord) :
    NewDirectoriesIn (store.ancestors w.files.home r.file) w.files (store.put w r).1.files := by
  cases store with
  | memory i => exact NewDirectoriesIn.refl _ _
  | files dir =>
      unfold put
      simp only
      split
      · exact NewDirectoriesIn.refl _ _
      · next path hpath =>
        obtain ⟨hid, rfl⟩ := recordPath_eq_ok_iff.1 hpath
        obtain ⟨hrelative, hname⟩ := isDown_recordName hid
        have hparents := w.createParents_newDirectoriesIn (isNamed_recordFile dir r.file)
          (Path.IsDown.join hdown hname hrelative)
        split
        · next v e hv => rw [hv] at hparents; exact hparents
        · next v hv =>
          rw [hv] at hparents
          exact hparents.trans ((v.replaceFile_newDirectoriesIn _ _).of_empty _)

end RecordStore

end StyleBuild
