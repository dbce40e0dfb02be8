import StyleBuild.Proofs.Publisher.Success

/-!
# Publications that fail

A publication that does not come to its record leaves everything as it was, but
for new directories and a new lock file (`publish_without_record`), and every
publication gives its lock back. When it is the record that cannot be put, the
output is already another one (`publish_of_put_error`): the output is replaced
first, and nothing takes that back.
-/

namespace StyleBuild

open Files

namespace Publisher

variable {p : Publisher} {entry : String} {v w w' : World}

/-- Nothing that was there is another one, and what is new is a directory or an empty lock file. -/
structure Unaltered (p : Publisher) (entry : String) (w w' : World) : Prop where
  /-- Every file has its content, its mode and its time. -/
  kept : ∀ l x, w.files.nodeAt? l = some (.file x) → w'.files.nodeAt? l = some (.file x)
  directories : ∀ l, w.files.IsDirectoryAt l → w'.files.IsDirectoryAt l
  new : ∀ l node, w.files.nodeAt? l = none → w'.files.nodeAt? l = some node →
    w'.files.IsDirectoryAt l ∨
      l ∈ p.lockPlaces entry w.files.home ∧ ∃ x, node = .file x ∧ x.content = ByteArray.empty
  output : ∀ id output, p.outputId entry = .ok id → p.mounts.writable id = .ok output →
    w'.files.has output = w.files.has output
  record : ∀ id, p.store.get w' id = p.store.get w id

/-- No record is where a lock file is, or on the way to the output. -/
theorem places_notMem (hapart : p.store.IsApartFrom p.mounts w.files.home) {id : String}
    (hid : RecordStore.isValidId id = true) : ∀ l ∈ p.store.places w.files.home id,
      l ∉ p.lockPlaces entry w.files.home ∧ l ∉ p.ancestors entry w.files.home := by
  refine fun l hl => ⟨?_, ?_⟩
  · rintro ⟨own, output, -, -, rfl⟩
    exact lock_notMem_places w.files.home hl
  · rintro ⟨own, output, hown, houtput, hmem⟩
    exact hapart.notMem_ancestors hid (isOutput hown houtput).isNamed houtput l hl hmem

theorem Prepares.unaltered (h : p.Prepares entry w w') (hmounts : p.mounts.AreDown)
    (htree : w.files.IsTree) (hdown : p.store.IsDown)
    (hapart : p.store.IsApartFrom p.mounts w.files.home) : p.Unaltered entry w w' := by
  refine ⟨h.kept, h.files.directories, fun l node hnone hnode => ?_,
    fun id output hid houtput => ?_, fun id => ?_⟩
  · cases node with
    | directory mode modified => exact Or.inl ⟨mode, modified, hnode⟩
    | file x =>
        right
        constructor
        · by_contra hl
          rw [(h.files.files l hl x).1 hnode] at hnone
          cases hnone
        · rcases h.fresh l x hnode with hold | ⟨-, hempty⟩
          · rw [hold] at hnone
            cases hnone
          · exact ⟨x, rfl, hempty⟩
  · have houtputNamed := isOutput hid houtput
    refine h.files.has_eq (h.directories hmounts) htree houtputNamed.isNamed
      (Mounts.isDown_of_writable hmounts houtput) ?_ ?_
    · rw [lockPlaces_eq hid houtput]
      exact fun hmem => houtputNamed.lock_ne_output _ hmem.symm
    · rw [ancestors_eq hid houtput]
      exact Path.place_notMem_ancestors houtputNamed.isNamed _
  · exact RecordStore.get_eq h.files (h.directories hmounts) h.memory htree hdown
      fun hid => places_notMem hapart hid

/-- Every publication gives its lock back. One that comes to its record answers `written`, unless
the record cannot be put. One that does not come to it answers an error, or that the lock is held,
and leaves everything unaltered. -/
theorem publish_without_record (p : Publisher) (w : World) (entry : String) :
    (p.publish w entry).1.held = w.held ∧
    (p.ComesToRecord w entry →
      (∃ output fingerprint, (p.publish w entry).2 = .ok (.written output fingerprint)) ∨
        ∃ v r e, (p.store.put v r).2 = .error e ∧ (p.publish w entry).2 = .error e) ∧
    (¬ p.ComesToRecord w entry →
      (∀ output fingerprint, (p.publish w entry).2 ≠ .ok (.written output fingerprint)) ∧
      (p.mounts.AreDown → w.files.IsTree → p.store.IsDown →
        p.store.IsApartFrom p.mounts w.files.home →
        p.Unaltered entry w (p.publish w entry).1)) := by
  refine ⟨held_publish p w entry, ?_, fun hnot => ?_⟩
  · rintro ⟨v, output, r, lock, hpasses⟩
    rw [hpasses.publish_eq]
    rcases hput : p.store.put v r with ⟨v', e | ok⟩
    · exact Or.inr ⟨v, r, e, by rw [hput], rfl⟩
    · exact Or.inl ⟨output, r.fingerprint, rfl⟩
  · obtain ⟨hprepares, hresult⟩ := (p.passes_publish w entry).course.resolve_left hnot
    exact ⟨hresult, hprepares.unaltered⟩

/-- A site with the file of the entry and a directory for output. -/
def prepared : Files :=
  (site.files.addEntry 0 [] "public".toList (.directory newDirectoryMode 0))

/-- There is a directory in the place of the output, so the new file cannot be moved there. -/
def occupied : World :=
  { site with
    files := prepared.addEntry 0 ["public".toList] "main.css".toList
      (.directory newDirectoryMode 0) }

/-- The records of the site are away from its mounts. -/
theorem siteBuilder_isApartFrom : siteBuilder.mounts.AreDown ∧ siteBuilder.store.IsDown ∧
    siteBuilder.store.IsApartFrom siteBuilder.mounts [] := by
  have hmeta : (Path.mk "meta").IsDown := by decide
  have hdirs : ∀ mount ∈ siteBuilder.mounts.all, ∀ d ∈ mount.dirs,
      ¬ d.place [] <+: (Path.mk "meta").place [] ∧ ¬ (Path.mk "meta").place [] <+: d.place [] := by
    decide +kernel
  exact ⟨by decide +kernel, hmeta, hdirs⟩

theorem publish_without_record_occupied :
    (siteBuilder.publish occupied "main").2 = .error (.files .isADirectory) ∧
      (siteBuilder.publish occupied "main").1.held = [] ∧
      siteBuilder.Unaltered "main" occupied (siteBuilder.publish occupied "main").1 := by
  obtain ⟨hmounts, hdown, hapart⟩ := siteBuilder_isApartFrom
  have hnot : ¬ siteBuilder.ComesToRecord occupied "main" :=
    not_comesToRecord (n := 5) (by decide +kernel) (by decide +kernel)
  have htree : occupied.files.IsTree := isTree_of_forall_mem (by decide +kernel)
  obtain ⟨hheld, -, hearly⟩ := publish_without_record siteBuilder occupied "main"
  exact ⟨by decide +kernel, hheld, (hearly hnot).2 hmounts htree hdown hapart⟩

/-- When a record cannot be put, a look-up of it has the answer from before the publication. -/
theorem Writes.get_of_put_error {b : Build} {v' : World} {r : CompileRecord} {e : Error}
    (hplaced : p.Placed entry b) (h : p.Writes entry b w v) (hfile : r.file = b.id)
    (hput : p.store.put v r = (v', .error e)) (hmounts : p.mounts.AreDown)
    (htree : w.files.IsTree) (hdown : p.store.IsDown)
    (hapart : p.store.IsApartFrom p.mounts w.files.home) :
    p.store.get v' b.id = p.store.get w b.id := by
  have hquiet := RecordStore.put_error hput
  have hfiles := (h.sameOutside hplaced).trans (hquiet.files.of_empty _)
  -- directories are made on the way to the output, and then on the way to the record
  have hnew := RecordStore.put_newDirectoriesIn hdown v r
  rw [hput, h.files.home, hfile] at hnew
  have hdirectories := (h.directories hmounts).trans_union hnew
  refine RecordStore.get_eq hfiles hdirectories (hquiet.memory.trans h.memory) htree hdown
    fun hid l hl => ⟨places_notMem_output hplaced.isOutput _ _ b.id l hl, ?_⟩
  rintro (hmem | hmem)
  · exact (places_notMem hapart hid l hl).2 hmem
  · exact RecordStore.places_notMem_ancestors _ _ _ l hl hmem

/-- When the record cannot be put, the output holds the new text all the same, and the record is the
one before. Nothing else has changed. -/
theorem publish_of_put_error {output : Path} {r : CompileRecord} {lock : Nat} {e : Error}
    (hpasses : p.Passes w entry v (.stamped output r lock))
    (hput : (p.store.put v r).2 = .error e) :
    (p.publish w entry).2 = .error e ∧ (p.publish w entry).1.held = w.held ∧
    p.outputId entry = .ok r.file ∧ p.mounts.writable r.file = .ok output ∧
    (∃ css, p.buildCss (p.locate w entry).1.files entry = .ok css ∧
      (p.publish w entry).1.files.read output = .ok css.toUTF8) ∧
    SameOutside {output.place w.files.home, (lockPath output).place w.files.home} w.files
      (p.publish w entry).1.files ∧
    (∀ id r', p.store.get w id = .ok (some r') →
      p.store.get (p.publish w entry).1 id = .ok (some r')) ∧
    (p.mounts.AreDown → w.files.IsTree → p.store.IsDown →
      p.store.IsApartFrom p.mounts w.files.home →
      p.store.get (p.publish w entry).1 r.file = p.store.get w r.file) := by
  obtain ⟨b, u, hmakes, rfl, rfl, hwrites⟩ := hpasses.course
  rcases hput' : p.store.put v (p.recordOf b u) with ⟨v', e' | ok⟩
  · rw [hput'] at hput
    cases hput
    have hpublish : p.publish w entry = (v'.unlock lock, .error e) := by
      rw [hpasses.publish_eq, hput']
    have hheld := held_publish p w entry
    have hplaced := hmakes.placed
    have hquiet := RecordStore.put_error hput'
    have hfiles := (hwrites.sameOutside hplaced).trans (hquiet.files.of_empty _)
    rw [hpublish] at hheld ⊢
    refine ⟨rfl, hheld, hplaced.id, hplaced.output, ⟨b.css, ?_, ?_⟩, hfiles, fun id r' hr' => ?_,
      fun hmounts htree hdown hapart => ?_⟩
    · rw [buildCss, hmakes.build]
      rfl
    · exact hquiet.files.read hplaced.isOutput.isNamed (Set.notMem_empty _) hwrites.read
    · rw [World.unlock, RecordStore.get_held]
      exact RecordStore.get_of_sameOutside hfiles (hquiet.memory.trans hwrites.memory)
        (places_notMem_output hplaced.isOutput _ _ id) hr'
    · rw [World.unlock, RecordStore.get_held]
      exact hwrites.get_of_put_error hplaced rfl hput' hmounts htree hdown hapart
  · rw [hput'] at hput
    cases hput

/-- There is an output from before, and a file in the place of the store's directory. -/
def blocked : World :=
  { site with
    files := (prepared.addFile 0 ["public".toList] "main.css".toList "old".toUTF8
      newFileMode).addFile 0 [] "meta".toList ByteArray.empty newFileMode }

/-- The old text is lost, and the record is not there. -/
theorem publish_of_put_error_blocked :
    blocked.files.read ⟨"public/main.css"⟩ = .ok "old".toUTF8 ∧
      (siteBuilder.publish blocked "main").2 = .error (.files .notADirectory) ∧
      (∃ css, siteBuilder.buildCss (siteBuilder.locate blocked "main").1.files "main" = .ok css ∧
        (siteBuilder.publish blocked "main").1.files.read ⟨"public/main.css"⟩ = .ok css.toUTF8 ∧
        css.toUTF8 ≠ "old".toUTF8) ∧
      siteBuilder.store.get (siteBuilder.publish blocked "main").1 "css-compiled/main.css" =
        .ok none := by
  obtain ⟨hmounts, hdown, hapart⟩ := siteBuilder_isApartFrom
  have htree : blocked.files.IsTree := isTree_of_forall_mem (by decide +kernel)
  obtain ⟨output, r, lock, hstage, hput⟩ : ∃ output r lock,
      (siteBuilder.after 5 blocked "main").2 = .stamped output r lock ∧
        (siteBuilder.store.put (siteBuilder.after 5 blocked "main").1 r).2 =
          .error (.files .notADirectory) :=
    ⟨_, _, _, rfl, by decide +kernel⟩
  obtain ⟨hold, hnew, hid, houtput, hget⟩ : blocked.files.read ⟨"public/main.css"⟩ =
        .ok "old".toUTF8 ∧
      (siteBuilder.publish blocked "main").1.files.read ⟨"public/main.css"⟩ ≠ .ok "old".toUTF8 ∧
      siteBuilder.outputId "main" = .ok "css-compiled/main.css" ∧
      siteBuilder.mounts.writable "css-compiled/main.css" = .ok ⟨"public/main.css"⟩ ∧
      siteBuilder.store.get blocked "css-compiled/main.css" = .ok none := by
    decide +kernel
  have hpasses := passes_after siteBuilder 5 blocked "main"
  rw [hstage] at hpasses
  obtain ⟨hresult, -, hid', houtput', ⟨css, hbuild, hread⟩, -, -, hrecord⟩ :=
    publish_of_put_error hpasses hput
  rw [← Except.ok.inj (hid.symm.trans hid')] at houtput' hrecord
  rw [← Except.ok.inj (houtput.symm.trans houtput')] at hread
  refine ⟨hold, hresult, ⟨css, hbuild, hread, fun heq => hnew (heq ▸ hread)⟩, ?_⟩
  rw [hrecord hmounts htree hdown hapart, hget]

end Publisher

end StyleBuild
