import StyleBuild.Proofs.Files.Components
import StyleBuild.Proofs.Record.Store

/-!
# Records that are kept apart

A record file lies below the directory of its store, at the steps of its id
(`place_recordFile`). Putting a record leaves the records alone that are apart
from it, and so does every other change that does not touch their files
(`Unmoved`). A record that is found is not `Vacant`.
-/

namespace StyleBuild

open Text Files

namespace RecordStore

open StyleBuild.Path

/-- An id that a store takes is a way down. -/
theorem isDown_of_isValidId {id : String} (h : isValidId id = true) :
    (Path.mk id).isAbsolute = false ∧ (Path.mk id).IsDown := by
  rw [isValidId, Bool.and_eq_true, List.all_eq_true] at h
  constructor
  · apply Bool.eq_false_iff.2
    intro habsolute
    cases h.2 .root ((root_mem_components _).2 habsolute)
  · by_contra hup
    cases h.2 .parent ((parent_mem_components _).2 hup)

/-- And so is the name of its record file. -/
theorem isDown_recordName {id : String} (h : isValidId id = true) :
    (Path.mk (id ++ ".meta.json")).isAbsolute = false ∧ (Path.mk (id ++ ".meta.json")).IsDown := by
  obtain ⟨hrelative, hdown⟩ := isDown_of_isValidId h
  constructor
  · rw [isAbsolute_eq] at hrelative ⊢
    rw [chars, String.toList_append, List.head?_append]
    cases hhead : id.toList.head? with
    | none => rfl
    | some c =>
        rw [chars, hhead] at hrelative
        exact hrelative
  · exact hdown.withSuffix (by decide) (by decide)

/-- A record file lies below the directory at the steps of its id. -/
theorem place_recordFile {id : String} (dir : Path) (home : Location) (h : isValidId id = true) :
    (recordFile dir id).place home = dir.place home ++ (Path.mk (id ++ ".meta.json")).steps := by
  obtain ⟨hrelative, hdown⟩ := isDown_recordName h
  exact place_join dir hdown hrelative home

/-- The records of two outputs are in different places, if the store takes both. -/
def Apart (store : RecordStore) (home : Location) (id id' : String) : Prop :=
  match store with
  | .memory _ => id ≠ id'
  | .files dir => isValidId id = true → isValidId id' = true →
      (recordFile dir id).place home ≠ (recordFile dir id').place home

/-- There is no record of an output, and no file in its place. -/
def Vacant (store : RecordStore) (w : World) (id : String) : Prop :=
  match store with
  | .memory i => (w.memory[i]?).bind (·.find? id) = none
  | .files dir => isValidId id = true →
      ∀ x, w.files.nodeAt? ((recordFile dir id).place w.files.home) ≠ some (.file x)

/-- What the store says of an output stays. -/
structure Unmoved (store : RecordStore) (id : String) (v w : World) : Prop where
  get : ∀ r, store.get v id = .ok (some r) → store.get w id = .ok (some r)
  vacant : store.Vacant v id → store.Vacant w id

variable {store : RecordStore} {id : String} {u v w : World}

/-- Records that are apart have different places, if one of them is there. -/
theorem Apart.places_notMem {home : Location} {id' : String} {r : CompileRecord}
    (h : store.Apart home id id') (hget : store.get w id = .ok (some r))
    (hid' : isValidId id' = true) : ∀ l ∈ store.places home id', l ∉ store.places home id := by
  cases store with
  | memory i => exact fun _ hl => absurd hl (Set.notMem_empty _)
  | files dir =>
      rintro l rfl hmem
      exact h (get_files_eq_some_iff.1 hget).1 hid' (Set.mem_singleton_iff.1 hmem).symm

theorem Unmoved.refl (store : RecordStore) (id : String) (w : World) : store.Unmoved id w w := by
  constructor
  · intro r h
    exact h
  · intro h
    exact h

theorem Unmoved.trans (h : store.Unmoved id u v) (h' : store.Unmoved id v w) :
    store.Unmoved id u w :=
  ⟨fun r hr => h'.get r (h.get r hr), fun hvacant => h'.vacant (h.vacant hvacant)⟩

theorem mem_of_get_memory {i : Nat} {r : CompileRecord}
    (h : (RecordStore.memory i).get w id = .ok (some r)) :
    ∃ d ∈ w.memory, (id, r) ∈ d.entries := by
  rw [get] at h
  obtain ⟨d, hd, hfind⟩ := Option.bind_eq_some_iff.1 (Except.ok.inj h)
  obtain ⟨before, after, hentries, -⟩ := List.lookup_eq_some_iff.1 hfind
  refine ⟨d, List.mem_of_getElem? hd, ?_⟩
  rw [hentries]
  exact List.mem_append_right _ List.mem_cons_self

/-- A record that is found has a file in its place. -/
theorem Vacant.get_ne (h : store.Vacant w id) (r : CompileRecord) :
    store.get w id ≠ .ok (some r) := by
  intro hget
  cases store with
  | memory i =>
      rw [get] at hget
      rw [Vacant, Except.ok.inj hget] at h
      cases h
  | files dir =>
      obtain ⟨hid, l, x, text, hfind, -⟩ := get_files_eq_some_iff.1 hget
      exact h hid x (find_place hfind).2

theorem unmoved_of_sameOutside {s : Set Location} (hfiles : SameOutside s v.files w.files)
    (hmemory : w.memory = v.memory) (hs : ∀ l ∈ store.places v.files.home id, l ∉ s) :
    store.Unmoved id v w := by
  refine ⟨fun r hr => get_of_sameOutside hfiles hmemory hs hr, fun h => ?_⟩
  cases store with
  | memory i =>
      rw [Vacant, hmemory]
      exact h
  | files dir =>
      intro hid x hx
      rw [hfiles.home] at hx
      exact h hid x ((hfiles.files _ (hs _ rfl) x).1 hx)

theorem unmoved_of_eq (hfiles : w.files = v.files) (hmemory : w.memory = v.memory) :
    store.Unmoved id v w := by
  have hsame : SameOutside ∅ v.files w.files := by
    rw [hfiles]
  exact unmoved_of_sameOutside hsame hmemory fun _ _ hmem => hmem

/-- The locks that are held are no records. -/
theorem get_held (store : RecordStore) (w : World) (held : List Nat) (id : String) :
    store.get { w with held } id = store.get w id := by
  cases store <;> rfl

/-- Putting a record leaves the records apart from it alone. -/
theorem unmoved_of_put {r : CompileRecord} (hput : store.put v r = (w, .ok ()))
    (hapart : store.Apart v.files.home r.file id) : store.Unmoved id v w := by
  cases store with
  | memory i =>
      rw [put] at hput
      cases hput
      have hsame : ((v.memory.modify i fun d => d.insert r.file r)[i]?).bind (·.find? id) =
          (v.memory[i]?).bind (·.find? id) := by
        rw [List.getElem?_modify_eq]
        cases v.memory[i]? with
        | none => rfl
        | some d =>
            have hne : ¬ id = r.file := fun h => hapart h.symm
            simp [Dictionary.find?_insert, hne]
      refine ⟨fun r' hr' => ?_, fun hvacant => ?_⟩
      · rw [get, hsame]
        exact hr'
      · rw [Vacant, hsame]
        exact hvacant
  | files dir =>
      obtain ⟨hfile, hsame⟩ := put_files_ok hput
      by_cases hid : isValidId id = true
      · apply unmoved_of_sameOutside hsame.files hsame.memory
        intro l hl hmem
        exact hapart hfile hid ((Set.mem_singleton_iff.1 hmem).symm.trans hl)
      · have hpath : recordPath dir id = .error (.record (.invalidId id)) := by
          rw [recordPath, if_neg hid]
        refine ⟨fun r' hr' => ?_, fun _ hvalid => absurd hvalid hid⟩
        rw [get, hpath] at hr'
        cases hr'

end RecordStore

end StyleBuild
