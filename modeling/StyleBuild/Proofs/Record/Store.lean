import StyleBuild.Proofs.Files.Components
import StyleBuild.Proofs.Files.Replacement
import StyleBuild.Proofs.Record.RoundTrip
import StyleBuild.Record.Store

/-!
# Keeping a record and finding it again

A record that was put into a store is found there as it was (`get_put`), in a
file or in memory. Putting it changes the file of the record and no other, and
neither the clock nor the locks (`put_ok` and `put_error`). A record is found as
long as its file and the memory are left alone (`get_of_sameOutside`).
-/

namespace StyleBuild

open Text Files

theorem fromUTF8?_toUTF8 (s : String) : String.fromUTF8? s.toUTF8 = some s := by
  unfold String.fromUTF8?
  rw [String.toUTF8_eq_toByteArray, dif_pos s.isValidUTF8]
  exact congrArg some (String.toByteArray_inj.1 rfl)

namespace Files

theorem read_of_find {f : Files} {p : Path} {l : Location} {x : StoredFile}
    (h : f.find p = .ok (l, .file x)) : f.read p = .ok x.content := by
  rw [read, h]

theorem find_of_read {f : Files} {p : Path} {content : ByteArray} (h : f.read p = .ok content) :
    ∃ l x, f.find p = .ok (l, .file x) ∧ x.content = content := by
  unfold read at h
  split at h
  · cases h
  · cases h
  · next l x hx =>
    cases h
    exact ⟨l, x, hx, rfl⟩

/-- The content of a file outside `s` is read as before. -/
theorem SameOutside.read {s : Set Location} {f g : Files} (hfg : SameOutside s f g) {p : Path}
    (hp : p.IsNamed) (hs : p.place f.home ∉ s) {content : ByteArray}
    (h : f.read p = .ok content) : g.read p = .ok content := by
  obtain ⟨l, x, hx, rfl⟩ := find_of_read h
  exact read_of_find (hfg.find_file hp hs hx)

theorem read_of_nodeAt? {f : Files} {p : Path} {x : StoredFile} (hp : p.IsNamed)
    (hreach : f.Reaches p) (hx : f.nodeAt? (p.place f.home) = some (.file x)) :
    f.read p = .ok x.content :=
  read_of_find ((find_eq_ok_iff hp _ _).2 ⟨hreach, rfl, hx⟩)

theorem has_of_read {f : Files} {p : Path} {content : ByteArray} (h : f.read p = .ok content) :
    f.has p = true := by
  obtain ⟨l, x, hx, -⟩ := find_of_read h
  rw [has, hx]

theorem isFile_of_read {f : Files} {p : Path} {content : ByteArray} (h : f.read p = .ok content) :
    f.isFile p = true := by
  obtain ⟨l, x, hx, -⟩ := find_of_read h
  rw [isFile, hx]

end Files

namespace World

/-- The files are the same outside `s`, and so are the clock, the locks and the memory. -/
structure SameOutside (s : Set Location) (v w : World) : Prop where
  files : Files.SameOutside s v.files w.files
  now : w.now = v.now
  held : w.held = v.held
  memory : w.memory = v.memory

namespace SameOutside

variable {s : Set Location} {u v w : World}

@[refl] theorem refl (s : Set Location) (w : World) : SameOutside s w w :=
  ⟨Files.SameOutside.refl s w.files, rfl, rfl, rfl⟩

theorem of_empty (h : SameOutside ∅ v w) (s : Set Location) : SameOutside s v w :=
  ⟨h.files.of_empty s, h.now, h.held, h.memory⟩

theorem trans (huv : SameOutside s u v) (hvw : SameOutside s v w) : SameOutside s u w :=
  ⟨huv.files.trans hvw.files, hvw.now.trans huv.now, hvw.held.trans huv.held,
    hvw.memory.trans huv.memory⟩

end SameOutside

/-- The parent directories of a path are made without a change to any file. -/
theorem createParents_sameOutside (w : World) (p : Path) :
    w.SameOutside ∅ (w.createParents p).1 := by
  unfold createParents
  split
  · exact SameOutside.refl ∅ w
  · next parent _ =>
    have h := sameOutside_createDirectories w.files w.now parent
    split
    · next g hg => rw [hg] at h; exact ⟨h, rfl, rfl, rfl⟩
    · next g e hg => rw [hg] at h; exact ⟨h, rfl, rfl, rfl⟩

theorem replaceFile_ok {w w' : World} {p : Path} {content : ByteArray} (hp : p.IsNamed)
    (h : w.replaceFile p content = (w', .ok ())) :
    w.SameOutside {p.place w.files.home} w' ∧ w'.files.read p = .ok content := by
  unfold replaceFile at h
  split at h
  · next g hg =>
    cases h
    obtain ⟨hsame, hreach, hnode⟩ := replace_ok hp hg
    rw [← hsame.home] at hnode
    exact ⟨⟨hsame, rfl, rfl, rfl⟩, read_of_nodeAt? hp hreach hnode⟩
  · cases h

theorem replaceFile_error {w w' : World} {p : Path} {content : ByteArray} {e : Error}
    (h : w.replaceFile p content = (w', .error e)) : w.SameOutside ∅ w' := by
  unfold replaceFile at h
  split at h
  · cases h
  · next g fault hg =>
    cases h
    exact ⟨replace_error hg, rfl, rfl, rfl⟩

end World

namespace RecordStore

/-- The file of the record of an output, when the id is one that the store takes. -/
def recordFile (dir : Path) (id : String) : Path := dir.join ⟨id ++ ".meta.json"⟩

theorem suffix_recordFile (dir : Path) (id : String) :
    ".meta.json".toList <:+ (recordFile dir id).chars :=
  Path.suffix_join (Path.suffix_append_text id ".meta.json")

theorem isNamed_recordFile (dir : Path) (id : String) : (recordFile dir id).IsNamed :=
  Path.isNamed_of_suffix (suffix_recordFile dir id) (by decide) (by decide)

theorem recordPath_eq_ok_iff {dir : Path} {id : String} {path : Path} :
    recordPath dir id = .ok path ↔ isValidId id = true ∧ path = recordFile dir id := by
  unfold recordPath recordFile
  split
  · next h => simp [h, eq_comm]
  · next h => simp [h]

/-- The locations at which a store keeps the record of an output. -/
def places (store : RecordStore) (home : Location) (id : String) : Set Location :=
  match store with
  | .memory _ => ∅
  | .files dir => {(recordFile dir id).place home}

/-- Whether the store is there; a store in memory has to be made first. -/
def Exists (store : RecordStore) (w : World) : Prop :=
  match store with
  | .memory i => i < w.memory.length
  | .files _ => True

/-- A record that is given out is in the file for it, in a version that can be read. -/
theorem get_files_eq_some_iff {dir : Path} {w : World} {id : String} {r : CompileRecord} :
    (RecordStore.files dir).get w id = .ok (some r) ↔ isValidId id = true ∧
      ∃ l x text, w.files.find (recordFile dir id) = .ok (l, .file x) ∧
        String.fromUTF8? x.content = some text ∧ CompileRecord.read text = .ok r ∧
          ¬ currentRecordVersion < r.version := by
  constructor
  · intro h
    unfold get at h
    simp only at h
    split at h
    · cases h
    · next path hpath =>
      obtain ⟨hid, rfl⟩ := recordPath_eq_ok_iff.1 hpath
      refine ⟨hid, ?_⟩
      split at h
      · split at h
        · cases h
        · next text htext =>
          unfold readText at htext
          split at htext
          · cases htext
          · next content hread =>
            obtain ⟨l, x, hfind, rfl⟩ := find_of_read hread
            refine ⟨l, x, text, hfind, ?_⟩
            split at htext
            · cases htext
            · next text' hutf =>
              cases htext
              split at h
              · cases h
              · next r' hread =>
                split at h
                · cases h
                · next hversion =>
                  cases h
                  exact ⟨hutf, hread, hversion⟩
      · cases h
  · rintro ⟨hid, l, x, text, hfind, hutf, hread, hversion⟩
    have hpath : recordPath dir id = .ok (recordFile dir id) := recordPath_eq_ok_iff.2 ⟨hid, rfl⟩
    have hcontent := read_of_find hfind
    simp only [get, hpath, has_of_read hcontent, if_true, readText, hcontent, hutf,
      hread, if_neg hversion]

/-- What a look-up makes of the text of a record: one of a later version is not given out. -/
theorem get_files_of_read {dir : Path} {w : World} {id : String} {r : CompileRecord}
    (hid : recordPath dir id = .ok (recordFile dir id))
    (hread : w.files.read (recordFile dir id) = .ok r.write.toUTF8) :
    (RecordStore.files dir).get w id =
      .ok (if currentRecordVersion < r.version then none else some r) := by
  have htext : w.files.readText (recordFile dir id) = .ok r.write := by
    rw [readText, hread]
    simp only [fromUTF8?_toUTF8]
  simp only [get, hid, has_of_read hread, if_true, htext, CompileRecord.read_write]

theorem put_files_ok {dir : Path} {w w' : World} {r : CompileRecord}
    (h : (RecordStore.files dir).put w r = (w', .ok ())) :
    isValidId r.file = true ∧
      w.SameOutside {(recordFile dir r.file).place w.files.home} w' := by
  rw [put] at h
  split at h
  · cases h
  · next path hpath =>
    obtain ⟨hid, rfl⟩ := recordPath_eq_ok_iff.1 hpath
    have hparents := w.createParents_sameOutside (recordFile dir r.file)
    split at h
    · cases h
    · next v hv =>
      rw [hv] at hparents
      obtain ⟨hsame, -⟩ := World.replaceFile_ok (isNamed_recordFile dir r.file) h
      rw [hparents.files.home] at hsame
      exact ⟨hid, (hparents.of_empty _).trans hsame⟩

theorem read_of_put_files {dir : Path} {w w' : World} {r : CompileRecord}
    (h : (RecordStore.files dir).put w r = (w', .ok ())) :
    w'.files.read (recordFile dir r.file) = .ok r.write.toUTF8 := by
  rw [put] at h
  split at h
  · cases h
  · next path hpath =>
    obtain ⟨-, rfl⟩ := recordPath_eq_ok_iff.1 hpath
    split at h
    · cases h
    · next v hv => exact (World.replaceFile_ok (isNamed_recordFile dir r.file) h).2

/-- What putting a record does when it succeeds. -/
theorem put_ok {store : RecordStore} {w w' : World} {r : CompileRecord}
    (h : store.put w r = (w', .ok ())) :
    SameOutside (store.places w.files.home r.file) w.files w'.files ∧ w'.now = w.now ∧
      w'.held = w.held ∧ w'.memory.length = w.memory.length := by
  cases store with
  | memory i =>
      rw [put] at h
      cases h
      exact ⟨SameOutside.refl _ _, rfl, rfl, List.length_modify _ _ _⟩
  | files dir =>
      have hall := (put_files_ok h).2
      exact ⟨hall.files, hall.now, hall.held, congrArg List.length hall.memory⟩

theorem put_error {store : RecordStore} {w w' : World} {r : CompileRecord} {e : Error}
    (h : store.put w r = (w', .error e)) : w.SameOutside ∅ w' := by
  cases store with
  | memory i =>
      rw [put] at h
      cases h
  | files dir =>
      rw [put] at h
      split at h
      · cases h
        exact World.SameOutside.refl ∅ _
      · next path _ =>
        have hparents := w.createParents_sameOutside path
        split at h
        · next v e hv =>
          cases h
          rw [hv] at hparents
          exact hparents
        · next v hv =>
          rw [hv] at hparents
          exact hparents.trans (World.replaceFile_error h)

/-- A record that was put is found. -/
theorem get_put {store : RecordStore} {w w' : World} {r : CompileRecord}
    (hstore : store.Exists w) (hversion : r.version ≤ currentRecordVersion)
    (h : store.put w r = (w', .ok ())) : store.get w' r.file = .ok (some r) := by
  cases store with
  | memory i =>
      rw [put] at h
      cases h
      have hi : i < w.memory.length := hstore
      simp [get, List.getElem?_eq_getElem hi, Dictionary.find?_insert]
  | files dir =>
      have hpath : recordPath dir r.file = .ok (recordFile dir r.file) :=
        recordPath_eq_ok_iff.2 ⟨(put_files_ok h).1, rfl⟩
      rw [get_files_of_read hpath (read_of_put_files h), if_neg (UInt32.not_lt.2 hversion)]

/-- A record is still found after a change that left its file and the memory alone. -/
theorem get_of_sameOutside {store : RecordStore} {s : Set Location} {v w : World} {id : String}
    {r : CompileRecord} (hfiles : SameOutside s v.files w.files) (hmemory : w.memory = v.memory)
    (hs : ∀ l ∈ store.places v.files.home id, l ∉ s) (h : store.get v id = .ok (some r)) :
    store.get w id = .ok (some r) := by
  cases store with
  | memory i =>
      rw [get] at h ⊢
      rw [hmemory]
      exact h
  | files dir =>
      rw [get_files_eq_some_iff] at h ⊢
      obtain ⟨hid, l, x, text, hfind, hread⟩ := h
      have hkept := hfiles.find_file (isNamed_recordFile dir id) (hs _ rfl) hfind
      exact ⟨hid, l, x, text, hkept, hread⟩

end RecordStore

end StyleBuild
