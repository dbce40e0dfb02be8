import StyleBuild.Proofs.Publisher.Current
import StyleBuild.Proofs.Publisher.Success

/-!
# What is decided after a publication

After a publication that wrote its output, files may be written, removed and
touched (`Aftermath.Moves.write`, `Aftermath.Moves.remove`,
`Aftermath.Moves.touch`), variables may be set, and other entries may be
published. None of this moves the record of the publication
(`Aftermath.Keeps.of_moves`), so that one record decides at all times: an output
is current when the file that is found for it has the recorded fingerprint, the
variables are the recorded ones, and every recorded source has a time that is
not later than the record (`needsCompile_iff_isCurrent`).
-/

namespace StyleBuild

open Files

/-- `g` is `f` after the file at a path was given another time. -/
structure Files.Touches (path : Path) (time : Int) (f g : Files) : Prop where
  same : SameOutside {path.place f.home} f g
  file : ∃ x, f.nodeAt? (path.place f.home) = some (.file x) ∧
    g.nodeAt? (path.place f.home) = some (.file { x with modified := time })

theorem Files.touches_put {f : Files} {path : Path} {x : StoredFile} (time : Int)
    (h : f.nodeAt? (path.place f.home) = some (.file x)) :
    f.Touches path time (f.put (path.place f.home) (.file { x with modified := time })) := by
  refine ⟨sameOutside_put _ (not_isDirectoryAt_of_file h), x, h, ?_⟩
  rw [nodeAt?_put, if_pos rfl]

/-- The variables of a publisher and the world, some time after a publication. -/
structure Aftermath where
  bindings : Dictionary String
  world : World

namespace Aftermath

/-- The publisher as it is now. -/
def publisher (p : Publisher) (s : Aftermath) : Publisher := p.withBindings s.bindings

/-- Right after the publication of an entry. -/
def ofPublish (p : Publisher) (w : World) (entry : String) : Aftermath :=
  ⟨p.compiler.bindings, (p.publish w entry).1⟩

/-- What can happen to the output `id` of an entry, other than another publication of it. -/
inductive Moves (p : Publisher) (entry id : String) : Aftermath → Aftermath → Prop
  /-- Files change that are not the record, and directories may be made. -/
  | files (s : Aftermath) {changed : Set Location} {files : Files}
      (apart : ∀ l ∈ p.store.places s.world.files.home id, l ∉ changed)
      (same : SameOutside changed s.world.files files) :
      Moves p entry id s { s with world := { s.world with files } }
  | accepted (s : Aftermath) {bindings : Dictionary String} {compiler : Compiler}
      (set : (s.publisher p).compiler.setVariables bindings = .ok compiler) :
      Moves p entry id s { s with bindings := compiler.bindings }
  | rejected (s : Aftermath) {bindings : Dictionary String} {e : Error}
      (set : (s.publisher p).compiler.setVariables bindings = .error e) : Moves p entry id s s
  | publish (s : Aftermath) {other : String} (hother : other ≠ entry) :
      Moves p entry id s { s with world := ((s.publisher p).publish s.world other).1 }
  | clock (s : Aftermath) (now : Nat) :
      Moves p entry id s { s with world := { s.world with now } }

section Changes

variable {p : Publisher} {entry id : String} {s : Aftermath} {path : Path} {files : Files}

/-- A path leads to a file other than the record of the output. -/
def Elsewhere (p : Publisher) (id : String) (s : Aftermath) (path : Path) : Prop :=
  path.place s.world.files.home ∉ p.store.places s.world.files.home id

/-- A change of one file that is not the record is a move. -/
theorem Moves.of_sameOutside (helsewhere : Elsewhere p id s path)
    (hsame : SameOutside {path.place s.world.files.home} s.world.files files) :
    Moves p entry id s { s with world := { s.world with files } } :=
  .files s (fun l hl hmem => helsewhere (by rwa [Set.mem_singleton_iff.1 hmem] at hl)) hsame

theorem Moves.write {content : ByteArray} {time : Int} (helsewhere : Elsewhere p id s path)
    (hwrites : s.world.files.Writes path content time files) :
    Moves p entry id s { s with world := { s.world with files } } :=
  .of_sameOutside helsewhere hwrites.same

theorem Moves.remove (helsewhere : Elsewhere p id s path)
    (hremoves : s.world.files.Removes path files) :
    Moves p entry id s { s with world := { s.world with files } } :=
  .of_sameOutside helsewhere hremoves.same

theorem Moves.touch {time : Int} (helsewhere : Elsewhere p id s path)
    (htouches : s.world.files.Touches path time files) :
    Moves p entry id s { s with world := { s.world with files } } :=
  .of_sameOutside helsewhere htouches.same

end Changes

/-- The record of an output is in the store. -/
structure Keeps (p : Publisher) (id : String) (r : CompileRecord) (s : Aftermath) : Prop where
  store : p.store.Exists s.world
  record : p.store.get s.world id = .ok (some r)

/-- What a record says of an output holds: it has the recorded fingerprint, the variables are the
recorded ones, and no recorded source is missing, older than the epoch or later than the record. -/
structure IsCurrent (p : Publisher) (id : String) (r : CompileRecord) (s : Aftermath) : Prop where
  output : ∃ found content, p.mounts.find? s.world.files.isFile id = some found ∧
    s.world.files.read found = .ok content ∧ Fingerprint.of content = r.fingerprint
  bindings : s.bindings = r.bindings
  sources : ∀ source ∈ r.imports, ∃ t, s.world.files.modified source = .ok t ∧ 0 ≤ t ∧
    millisecond t ≤ r.compiledAt

variable {p : Publisher} {entry id : String} {r : CompileRecord} {s t : Aftermath} {w : World}

/-- No move is one of the record. -/
theorem Keeps.of_moves (hid : p.outputId entry = .ok id) (h : Keeps p id r s)
    (hmoves : Moves p entry id s t) : Keeps p id r t := by
  cases hmoves with
  | files hapart hsame =>
      have hunmoved : p.store.Unmoved id s.world { s.world with files := _ } :=
        RecordStore.unmoved_of_sameOutside hsame rfl hapart
      exact ⟨exists_of_length_eq rfl h.store, hunmoved.get r h.record⟩
  | accepted hset => exact ⟨h.store, h.record⟩
  | rejected hset => exact h
  | publish hother =>
      obtain ⟨-, hmemory, hunmoved, -⟩ :=
        Publisher.publish_spec (p := s.publisher p) h.store _
      refine ⟨exists_of_length_eq hmemory h.store,
        (hunmoved id fun _ own hown => ?_).get r h.record⟩
      exact Publisher.apart_of_ne hown hid hother _
  | clock now =>
      have hunmoved : p.store.Unmoved id s.world { s.world with now } :=
        RecordStore.unmoved_of_eq rfl rfl
      exact ⟨exists_of_length_eq rfl h.store, hunmoved.get r h.record⟩

theorem Keeps.of_run (hid : p.outputId entry = .ok id) (h : Keeps p id r s)
    (hrun : Relation.ReflTransGen (Moves p entry id) s t) : Keeps p id r t := by
  induction hrun with
  | refl => exact h
  | tail _ hmoves ih => exact ih.of_moves hid hmoves

/-- The file that is found for an output can be read. -/
theorem exists_needsCompile (hid : p.outputId entry = .ok id)
    (hget : p.store.get w id = .ok (some r)) : ∃ b, p.needsCompile w entry = .ok b := by
  cases hfind : p.mounts.find? w.files.isFile id with
  | none => exact ⟨true, by simp only [Publisher.needsCompile, hid, hget, hfind]⟩
  | some found =>
      obtain ⟨l, x, hx⟩ := find_of_isFile (List.find?_some hfind)
      exact ⟨_, Publisher.needsCompile_of_get hid hget hfind (read_of_find hx)⟩

/-- The record of an output decides whether it has to be compiled again. -/
theorem needsCompile_iff_isCurrent (hid : p.outputId entry = .ok id)
    (hproduction : r.production = p.production) (h : Keeps p id r s) :
    ((s.publisher p).needsCompile s.world entry = .ok false ↔ IsCurrent p id r s) ∧
      ((s.publisher p).needsCompile s.world entry = .ok true ↔ ¬ IsCurrent p id r s) := by
  have hfalse : (s.publisher p).needsCompile s.world entry = .ok false ↔ IsCurrent p id r s := by
    rw [Publisher.needsCompile_eq_false_iff]
    constructor
    · rintro ⟨id', r', found, content, hid', hget', hfind, hread, hfingerprint, -, hbindings,
        himports⟩
      obtain rfl := Except.ok.inj (hid'.symm.trans hid)
      obtain rfl := Option.some.inj (Except.ok.inj (hget'.symm.trans h.record))
      exact ⟨⟨found, content, hfind, hread, hfingerprint⟩, hbindings.symm,
        fun source hsource => (Publisher.isCurrentSource_iff _ _ _).1 (himports source hsource)⟩
    · rintro ⟨⟨found, content, hfind, hread, hfingerprint⟩, hbindings, hsources⟩
      exact ⟨id, r, found, content, hid, h.record, hfind, hread, hfingerprint, hproduction,
        hbindings.symm, fun source hsource =>
          (Publisher.isCurrentSource_iff _ _ _).2 (hsources source hsource)⟩
  refine ⟨hfalse, ?_⟩
  rw [← hfalse]
  obtain ⟨b, hb⟩ := exists_needsCompile (p := s.publisher p) (w := s.world) hid h.record
  rw [hb]
  cases b <;> simp

/-- A publication leaves its output and the record of it behind. -/
theorem exists_record_of_publish {output : Path} {fingerprint : Fingerprint}
    (hstore : p.store.Exists w) (h : (p.publish w entry).2 = .ok (.written output fingerprint)) :
    ∃ id r, p.outputId entry = .ok id ∧ Keeps p id r (ofPublish p w entry) ∧
      r.production = p.production ∧ r.bindings = p.compiler.bindings ∧
      r.fingerprint = fingerprint ∧
      p.mounts.find? (p.publish w entry).1.files.isFile id = some output ∧
      ∃ content, (p.publish w entry).1.files.read output = .ok content ∧
        Fingerprint.of content = r.fingerprint := by
  obtain ⟨-, hmemory, -⟩ := Publisher.publish_spec hstore entry
  have hexists := exists_of_length_eq hmemory hstore
  obtain ⟨v, output', r, lock, hpasses⟩ | ⟨-, hnot⟩ := (p.passes_publish w entry).course
  · obtain ⟨b, u, hmakes, rfl, rfl, hwrites⟩ := hpasses.course
    rcases hput : p.store.put v (p.recordOf b u) with ⟨v', e | ok⟩
    · rw [hpasses.publish_eq, hput] at h
      cases h
    · have hpublish : p.publish w entry =
          (v'.unlock lock, .ok (.written b.output (p.recordOf b u).fingerprint)) := by
        rw [hpasses.publish_eq, hput]
      rw [hpublish] at h hexists
      cases h
      have hplaced := hmakes.placed
      have hget := RecordStore.get_put
        (exists_of_length_eq (congrArg List.length hwrites.memory) hstore) (UInt32.le_refl _) hput
      obtain ⟨hsame, -⟩ := RecordStore.put_ok hput
      have hread := hsame.read hplaced.isOutput.isNamed
        (output_notMem_places hplaced.isOutput _) hwrites.read
      rw [ofPublish, hpublish]
      refine ⟨b.id, p.recordOf b u, hplaced.id, ⟨hexists, ?_⟩, rfl, rfl, rfl,
        Mounts.find?_of_writable hplaced.output (isFile_of_read hread), _, hread, rfl⟩
      rw [World.unlock, RecordStore.get_held]
      exact hget
  · exact absurd h (hnot output fingerprint)

/-- Milliseconds fit into a record for half a billion years. -/
theorem millisecond_le_iff {time : Int} {compiledAt : UInt64}
    (h : time.toNat / 1000000 < 2 ^ 64) :
    millisecond time ≤ compiledAt ↔ time.toNat / 1000000 ≤ compiledAt.toNat := by
  rw [millisecond, UInt64.le_iff_toNat_le, Nat.toUInt64_eq, UInt64.toNat_ofNat_of_lt' h]

/-- After a publication that wrote its output, and whatever happened since but another publication
of it: the record of the publication is found, and the output need not be compiled again exactly
when what the record says of it holds. Right after the publication the times of the sources alone
decide. -/
theorem needsCompile_decides {output : Path} {fingerprint : Fingerprint}
    (hstore : p.store.Exists w) (h : (p.publish w entry).2 = .ok (.written output fingerprint)) :
    ∃ id r, p.outputId entry = .ok id ∧ r.fingerprint = fingerprint ∧
      r.bindings = p.compiler.bindings ∧
      (∀ s, Relation.ReflTransGen (Moves p entry id) (ofPublish p w entry) s →
        p.store.get s.world id = .ok (some r) ∧
        ((s.publisher p).needsCompile s.world entry = .ok false ↔ IsCurrent p id r s) ∧
        ((s.publisher p).needsCompile s.world entry = .ok true ↔ ¬ IsCurrent p id r s)) ∧
      (p.needsCompile (p.publish w entry).1 entry = .ok false ↔ ∀ source ∈ r.imports,
        ∃ t, (p.publish w entry).1.files.modified source = .ok t ∧ 0 ≤ t ∧
          millisecond t ≤ r.compiledAt) ∧
      ∀ t : Int, t.toNat / 1000000 < 2 ^ 64 →
        (millisecond t ≤ r.compiledAt ↔ t.toNat / 1000000 ≤ r.compiledAt.toNat) := by
  obtain ⟨id, r, hid, hkeeps, hproduction, hbindings, hfingerprint, hfind, content, hread,
    hcontent⟩ := exists_record_of_publish hstore h
  refine ⟨id, r, hid, hfingerprint, hbindings, fun s hrun => ?_, ?_,
    fun t ht => millisecond_le_iff ht⟩
  · have hkeeps' := hkeeps.of_run hid hrun
    exact ⟨hkeeps'.record, needsCompile_iff_isCurrent hid hproduction hkeeps'⟩
  · obtain ⟨hfalse, -⟩ := needsCompile_iff_isCurrent hid hproduction hkeeps
    refine hfalse.trans ⟨fun hcurrent => hcurrent.sources, fun hsources => ?_⟩
    exact ⟨⟨output, content, hfind, hread, hcontent⟩, hbindings.symm, hsources⟩

open History in
/-- After a publication in the seventh millisecond the entry is given another time. -/
def themedTouched (time : Int) : Aftermath :=
  let s := ofPublish overriding (themed "a{}") "main"
  { s with
    world := { s.world with
      files := s.world.files.put ((Path.mk "theme/main.scss").place s.world.files.home)
        (.file ⟨0, "a{}".toUTF8, newFileMode, time⟩) } }

open History in
theorem moves_themedTouched (time : Int)
    (hnode : (ofPublish overriding (themed "a{}") "main").world.files.nodeAt?
      ((Path.mk "theme/main.scss").place
        (ofPublish overriding (themed "a{}") "main").world.files.home) =
          some (.file ⟨0, "a{}".toUTF8, newFileMode, 0⟩)) :
    Moves overriding "main" "css-compiled/main.css" (ofPublish overriding (themed "a{}") "main")
      (themedTouched time) :=
  Moves.touch (fun hmem => hmem) (touches_put time hnode)

/-- The record of that publication. -/
def themedRecord : CompileRecord where
  version := currentRecordVersion
  file := "css-compiled/main.css"
  fingerprint := Fingerprint.of "a{}".toUTF8
  compiledAt := 7
  production := true
  bindings := .empty
  imports := [⟨"theme/main.scss"⟩]

open History in
/-- A time in the same millisecond as the publication is not noticed, a later one is, and so is
another value of a variable. -/
theorem needsCompile_decides_themed :
    overriding.needsCompile (themedTouched 7999999).world "main" = .ok false ∧
      overriding.needsCompile (themedTouched 8000000).world "main" = .ok true ∧
      ∃ compiler,
        overriding.compiler.setVariables (Dictionary.empty.insert "a" "1") = .ok compiler ∧
        (overriding.withBindings compiler.bindings).needsCompile (themedTouched 7999999).world
          "main" = .ok true := by
  obtain ⟨hwritten, hnode, hrecord, hfind, hread, hsame, hlater⟩ :
      (PublishStage.finished (overriding.publish (themed "a{}") "main").2).hasWritten = true ∧
      (ofPublish overriding (themed "a{}") "main").world.files.nodeAt?
        ((Path.mk "theme/main.scss").place
          (ofPublish overriding (themed "a{}") "main").world.files.home) =
            some (.file ⟨0, "a{}".toUTF8, newFileMode, 0⟩) ∧
      overriding.store.get (themedTouched 7999999).world "css-compiled/main.css" =
        .ok (some themedRecord) ∧
      overriding.mounts.find? (themedTouched 7999999).world.files.isFile "css-compiled/main.css" =
        some ⟨"public/main.css"⟩ ∧
      (themedTouched 7999999).world.files.read ⟨"public/main.css"⟩ = .ok "a{}".toUTF8 ∧
      (themedTouched 7999999).world.files.modified ⟨"theme/main.scss"⟩ = .ok 7999999 ∧
      (themedTouched 8000000).world.files.modified ⟨"theme/main.scss"⟩ = .ok 8000000 := by
    decide +kernel
  obtain ⟨output, fingerprint, hresult⟩ := Publisher.exists_of_hasWritten hwritten
  have hstore : overriding.store.Exists (themed "a{}") := Nat.zero_lt_one
  obtain ⟨id, r, hid, -, -, hdecides, -⟩ := needsCompile_decides hstore hresult
  have hid' : overriding.outputId "main" = .ok "css-compiled/main.css" := by
    decide +kernel
  obtain rfl := Except.ok.inj (hid'.symm.trans hid)
  have hrun (time : Int) := Relation.ReflTransGen.single (moves_themedTouched time hnode)
  obtain ⟨hget, hfalse, -⟩ := hdecides _ (hrun 7999999)
  obtain rfl := Option.some.inj (Except.ok.inj (hget.symm.trans hrecord))
  obtain ⟨-, -, htrue⟩ := hdecides _ (hrun 8000000)
  refine ⟨hfalse.2 ⟨⟨_, _, hfind, hread, rfl⟩, rfl, ?_⟩, htrue.2 fun hcurrent => ?_, ?_⟩
  · intro source hsource
    rw [List.mem_singleton.1 hsource]
    exact ⟨7999999, hsame, by decide, by decide⟩
  · obtain ⟨t, ht, -, hle⟩ := hcurrent.sources _ List.mem_cons_self
    obtain rfl := Except.ok.inj (hlater.symm.trans ht)
    exact absurd hle (by decide)
  · have hset : overriding.compiler.setVariables (Dictionary.empty.insert "a" "1") =
        .ok { overriding.compiler with bindings := Dictionary.empty.insert "a" "1" } := by
      rfl
    refine ⟨_, hset, ?_⟩
    obtain ⟨-, -, htrue⟩ := hdecides _ ((hrun 7999999).tail (.accepted _ hset))
    refine htrue.2 fun hcurrent => ?_
    have hempty : Dictionary.empty.insert "a" "1" ≠ Dictionary.empty := by
      decide
    exact hempty hcurrent.bindings

end Aftermath

end StyleBuild
