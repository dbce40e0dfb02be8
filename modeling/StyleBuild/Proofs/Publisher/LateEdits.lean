import StyleBuild.Proofs.Engine.Dialogue
import StyleBuild.Proofs.Publisher.Edits
import StyleBuild.Proofs.Publisher.Stale

/-!
# Edits that come too late for a publication

A source that a publication has read is still what was read, or bears the time
of a later edit (`SourceReading.Stands`). The record is stamped after the last read,
so an edit between the two is older than the stamp, and the whole milliseconds
of both times are compared: the output is found to be stale exactly when a
recorded source was edited in a later millisecond than that of the stamp
(`needsCompile_after_edits`).
-/

namespace StyleBuild

open Files

/-- The file still is what was read, or it was edited since. -/
def SourceReading.Stands (w : World) (a : SourceReading) : Prop :=
  IsSource a.path ∧ a.time ≤ w.now ∧ ∃ l x, w.files.find a.path = .ok (l, .file x) ∧
    (x.content = a.content ∨ ∃ e : Nat, a.time < e ∧ e ≤ w.now ∧ x.modified = e)

namespace SourceReading

variable {a : SourceReading} {v w : World}

theorem Stands.mono (h : a.Stands v) (hnow : v.now ≤ w.now)
    (hfind : ∀ l x, v.files.find a.path = .ok (l, .file x) →
      w.files.find a.path = .ok (l, .file x)) : a.Stands w := by
  obtain ⟨hpath, htime, l, x, hx, hcontent⟩ := h
  refine ⟨hpath, htime.trans hnow, l, x, hfind l x hx, ?_⟩
  rcases hcontent with hcontent | ⟨e, hlater, he, hmodified⟩
  · exact Or.inl hcontent
  · exact Or.inr ⟨e, hlater, he.trans hnow, hmodified⟩

/-- A change of other files than sources does not matter. -/
theorem Stands.of_noSource (h : a.Stands v) (hnow : v.now ≤ w.now)
    (hfiles : SameOutside (noSource v.files.home) v.files w.files) : a.Stands w := by
  have hpath := h.1
  refine h.mono hnow fun l x hx => hfiles.find_file hpath.isNamed (fun hmem => ?_) hx
  exact hmem a.path hpath rfl

/-- An edit of a source gives the files at its place a time after every reading. -/
theorem Stands.of_writes {path : Path} {content : ByteArray} {now : Nat} (h : a.Stands v)
    (hnow : v.now < now) (hw : w.now = now)
    (hwrites : v.files.Writes path content now w.files) : a.Stands w := by
  have hle : v.now ≤ w.now := by
    rw [hw]
    exact hnow.le
  by_cases hplace : a.path.place v.files.home = path.place v.files.home
  · obtain ⟨hpath, htime, l, x, hx, -⟩ := h
    obtain ⟨hreach, -, -⟩ := (find_eq_ok_iff hpath.isNamed _ _).1 hx
    obtain ⟨y, hy, -, hmodified⟩ := hwrites.file
    rw [← hplace, ← hwrites.same.home] at hy
    refine ⟨hpath, htime.trans hle, _, y,
      (find_eq_ok_iff hpath.isNamed _ _).2 ⟨hwrites.same.reaches hreach, rfl, hy⟩, Or.inr ?_⟩
    exact ⟨now, htime.trans_lt hnow, hw.ge, hmodified⟩
  · have hpath := h.1
    exact h.mono hle fun l x hx => hwrites.same.find_file hpath.isNamed hplace hx

theorem stands_noted {path : Path} (hpath : IsSource path) :
    ∀ b ∈ Publication.noted path w.now (w.files.read path), b.Stands w := by
  intro b hb
  cases hread : w.files.read path with
  | error e =>
      rw [hread] at hb
      cases hb
  | ok content =>
      rw [hread] at hb
      obtain rfl := List.mem_singleton.1 hb
      obtain ⟨l, x, hx, hcontent⟩ := find_of_read hread
      exact ⟨hpath, le_refl _, l, x, hx, Or.inl hcontent⟩

end SourceReading

namespace Publication

variable {p : Publisher} {ask : Asking} {entry : String} {x y : Publication}

/-- What is known at a phase: the questions still to come read only sources that were named. -/
def Underway (p : Publisher) (entry : String) (x : Publication) : Phase → Prop
  | .asking id output questions =>
      p.outputId entry = .ok id ∧ p.mounts.writable id = .ok output ∧
        ∃ named, questions.ReadsHits named ∧ ∀ path ∈ named, IsSource path
  | .staged stage => p.Carries entry (fun _ => True) x.stampedAt x.world stage

/-- What holds of every publication that can come about. -/
structure Sound (p : Publisher) (entry : String) (x : Publication) : Prop where
  store : p.store.Exists x.world
  phase : Underway p entry x x.phase
  readings : ∀ a ∈ x.readings, a.Stands x.world

theorem sound_start {w : World} (hstore : p.store.Exists w) : Sound p entry (start w entry) :=
  ⟨hstore, rfl, fun _ ha => nomatch ha⟩

/-- A change that leaves outputs and records alone. -/
theorem Sound.of_world {w : World} (h : Sound p entry x)
    (hkeeps : ∀ b, p.Placed entry b → Keeps b.id b.output p.store x.world w)
    (hmemory : w.memory = x.world.memory)
    (hreadings : ∀ a : SourceReading, a.Stands x.world → a.Stands w) :
    Sound p entry { x with world := w } := by
  refine ⟨exists_of_length_eq (congrArg List.length hmemory) h.store, ?_,
    fun a ha => hreadings a (h.readings a ha)⟩
  have hphase := h.phase
  unfold Underway at hphase ⊢
  cases hx : x.phase with
  | asking id output questions =>
      rw [hx] at hphase
      exact hphase
  | staged stage =>
      rw [hx] at hphase
      exact Publisher.Carries.mono hkeeps hphase

theorem Sound.advance (h : Sound p entry x) (nanoseconds : Nat) :
    Sound p entry (x.advance nanoseconds) := by
  refine h.of_world (fun b hplaced => ?_) rfl fun a ha => ?_
  · exact keeps_of_eq rfl rfl
  · exact ha.mono (Nat.le_add_right _ _) fun l y hy => hy

theorem Sound.edit {nanoseconds : Nat} {path : Path} {content : ByteArray} {files : Files}
    (h : Sound p entry x) (hpath : IsSource path)
    (hwrites : x.world.files.Writes path content (x.world.now + (nanoseconds + 1) : Nat) files) :
    Sound p entry { x with world := { x.world.advance (nanoseconds + 1) with files } } := by
  refine h.of_world (fun b hplaced => ?_) rfl fun a ha => ?_
  · exact keeps_of_source hplaced.isOutput hpath hwrites.same rfl
  · exact ha.of_writes (Nat.lt_add_of_pos_right (Nat.succ_pos _)) rfl hwrites

/-- A question of the build. -/
theorem Sound.answer {id : String} {output : Path}
    {questions : Inquiry (Except Error (String × List Path))} (h : Sound p entry x)
    (hx : x.phase = .asking id output questions) : Sound p entry (step p ask x) := by
  have hphase := h.phase
  rw [hx] at hphase
  obtain ⟨hid, houtput, named, hreads, hnamed⟩ := hphase
  cases questions with
  | done result =>
      simp only [step, hx]
      refine ⟨h.store, ?_, h.readings⟩
      rcases result with e | ⟨css, sources⟩
      · trivial
      · exact ⟨⟨hid, houtput⟩, trivial⟩
  | resolve token next =>
      simp only [step, hx]
      refine ⟨h.store, ⟨hid, houtput, ?_⟩, h.readings⟩
      cases hhit : (p.importer x.world.files).resolve token with
      | none => exact ⟨named, hreads.1, hnamed⟩
      | some hit =>
          refine ⟨hit.path :: named, hreads.2 hit, fun path hpath => ?_⟩
          rcases List.mem_cons.1 hpath with rfl | hpath
          · exact (Publisher.resolve_eq_some hhit).1
          · exact hnamed path hpath
  | read path next =>
      simp only [step, hx]
      refine ⟨h.store, ⟨hid, houtput, named, hreads.2 _, hnamed⟩, fun a ha => ?_⟩
      rcases List.mem_append.1 ha with ha | ha
      · exact h.readings a ha
      · exact SourceReading.stands_noted (hnamed path hreads.1) a ha

/-- The first question is asked after the output was located. -/
theorem Sound.firstQuestion {e id : String} {output : Path}
    (hinquires : p.compiler.engine.Inquires ask) (h : Sound p entry x)
    (hx : x.phase = .staged (.located e id output)) : Sound p entry (step p ask x) := by
  have hphase := h.phase
  rw [hx] at hphase
  obtain ⟨rfl, hid, houtput⟩ := hphase
  simp only [step, hx]
  refine ⟨h.store, ⟨hid, houtput, [], Publisher.readsHits_inquiry hinquires e, ?_⟩, h.readings⟩
  intro path hpath
  cases hpath

/-- A stage after the build, or before it. -/
theorem Sound.stage {stage : PublishStage} (h : Sound p entry x) (hx : x.phase = .staged stage)
    (hlocated : ∀ e id output, stage ≠ .located e id output) : Sound p entry (step p ask x) := by
  have hphase := h.phase
  rw [hx] at hphase
  have hadvances := p.advances_step x.world stage
  obtain ⟨hsources, hnow, hmemory⟩ := hadvances.sources (Publisher.Carries.isOutput hphase)
  have hstep : step p ask x =
      { x with
        world := (p.step x.world stage).1
        phase := .staged (p.step x.world stage).2
        stampedAt := stage.stampAfter x.world.now x.stampedAt } := by
    cases stage with
    | located e id output => exact absurd rfl (hlocated e id output)
    | _ => simp only [step, hx]
  rw [hstep]
  refine ⟨?_, ?_, fun a ha => ?_⟩
  · exact exists_of_length_eq hmemory h.store
  · exact hphase.step hadvances h.store fun e id output css sources hstage _ =>
      absurd hstage (hlocated e id output)
  · exact (h.readings a ha).of_noSource hnow.ge hsources

theorem Sound.of_moves (hinquires : p.compiler.engine.Inquires ask) (h : Sound p entry x)
    (hmoves : Moves p ask x y) : Sound p entry y := by
  cases hmoves with
  | step nanoseconds =>
      have hadvance := h.advance (nanoseconds + 1)
      cases hx : x.phase with
      | asking id output questions => exact hadvance.answer hx
      | staged stage =>
          by_cases hlocated : ∃ e id output, stage = .located e id output
          · obtain ⟨e, id, output, rfl⟩ := hlocated
            exact hadvance.firstQuestion hinquires hx
          · refine hadvance.stage hx fun e id output hstage => hlocated ?_
            exact ⟨e, id, output, hstage⟩
  | edit nanoseconds hpath hwrites => exact h.edit hpath hwrites

theorem sound_of_run {w : World} (hinquires : p.compiler.engine.Inquires ask)
    (hstore : p.store.Exists w)
    (hrun : Relation.ReflTransGen (Moves p ask) (start w entry) x) : Sound p entry x := by
  induction hrun with
  | refl => exact sound_start hstore
  | tail _ hmoves ih => exact ih.of_moves hinquires hmoves

/-- A source that was edited after it was read bears the time of the last edit. -/
theorem Sound.edited {a : SourceReading} (h : Sound p entry x) (ha : a ∈ x.readings)
    (hread : x.world.files.read a.path ≠ .ok a.content) :
    ∃ e : Nat, a.time < e ∧ e ≤ x.world.now ∧ x.world.files.modified a.path = .ok e ∧
      ∀ source t, source.components = a.path.components →
        x.world.files.modified source = .ok t → t = e := by
  obtain ⟨-, -, l, y, hy, hcontent | ⟨e, hlater, he, hmodified⟩⟩ := h.readings a ha
  · exact absurd (hcontent ▸ read_of_find hy) hread
  · refine ⟨e, hlater, he, hmodified ▸ modified_of_find hy, fun source t hsource ht => ?_⟩
    have hnode := (find_place hy).2
    rw [← Path.place_eq_of_components_eq _ hsource] at hnode
    rw [← hmodified, modified_place ht hnode]

/-- After a publication whose sources were edited at any time: the output is found to be current
exactly when no recorded source was modified in a later millisecond than that of the stamp. A
source that is not what was read was edited after the read, and this is noticed when the edit was
made in such a later millisecond. -/
theorem needsCompile_after_edits {w : World} {output : Path} {fingerprint : Fingerprint}
    (hinquires : p.compiler.engine.Inquires ask) (hstore : p.store.Exists w)
    (hrun : Relation.ReflTransGen (Moves p ask) (start w entry) x)
    (hwritten : x.phase = .staged (.finished (.ok (.written output fingerprint)))) :
    ∃ id r stamp, p.outputId entry = .ok id ∧ p.store.get x.world id = .ok (some r) ∧
      x.stampedAt = some stamp ∧ r.compiledAt = millisecond stamp ∧
      (p.needsCompile x.world entry = .ok true ∨ p.needsCompile x.world entry = .ok false) ∧
      (p.needsCompile x.world entry = .ok false ↔ ∀ source ∈ r.imports,
        ∃ t, x.world.files.modified source = .ok t ∧ 0 ≤ t ∧
          millisecond t ≤ millisecond stamp) ∧
      ∀ a ∈ x.readings, x.world.files.read a.path ≠ .ok a.content →
        ∃ e : Nat, a.time < e ∧ e ≤ x.world.now ∧ x.world.files.modified a.path = .ok e ∧
          ∀ source ∈ r.imports, source.components = a.path.components →
            millisecond stamp < millisecond e → p.needsCompile x.world entry = .ok true := by
  have hsound := sound_of_run hinquires hstore hrun
  have hphase := hsound.phase
  rw [hwritten] at hphase
  obtain ⟨id, r, stamp, hid, hget, hstamp, hcompiledAt, hneeds⟩ :=
    Publisher.IsPublished.needsCompile_eq hphase
  have hiff : p.needsCompile x.world entry = .ok false ↔ ∀ source ∈ r.imports,
      ∃ t, x.world.files.modified source = .ok t ∧ 0 ≤ t ∧ millisecond t ≤ millisecond stamp := by
    rw [hneeds, hcompiledAt]
    simp only [Except.ok.injEq, Bool.not_eq_false', List.all_eq_true,
      Publisher.isCurrentSource_iff]
  have htotal : p.needsCompile x.world entry = .ok true ∨
      p.needsCompile x.world entry = .ok false := by
    rw [hneeds]
    cases r.imports.all (Publisher.isCurrentSource x.world.files r.compiledAt)
    · exact Or.inl rfl
    · exact Or.inr rfl
  refine ⟨id, r, stamp, hid, hget, hstamp, hcompiledAt, htotal, hiff, fun a ha hread => ?_⟩
  obtain ⟨e, hlater, he, hmodified, hsame⟩ := hsound.edited ha hread
  refine ⟨e, hlater, he, hmodified, fun source hmem hsource hmillisecond => ?_⟩
  apply htotal.resolve_right
  intro hfalse
  obtain ⟨t, ht, -, hle⟩ := hiff.1 hfalse source hmem
  rw [hsame source t hsource ht] at hle
  exact absurd hmillisecond (UInt64.not_lt.2 hle)

/-- The publication after a number of steps, one in each millisecond. -/
def after (p : Publisher) (ask : Asking) (n : Nat) (x : Publication) : Publication :=
  (fun y : Publication => (y.advance 1000000).step p ask)^[n] x

theorem moves_after (p : Publisher) (ask : Asking) (n : Nat) (x : Publication) :
    Relation.ReflTransGen (Moves p ask) x (after p ask n x) := by
  induction n generalizing x with
  | zero => exact Relation.ReflTransGen.refl
  | succ n ih => exact Relation.ReflTransGen.head (Moves.step x 999999) (ih _)

def copyingPublisher : Publisher :=
  .new (.ofList [("", [⟨"site"⟩])]) [""] (.memory 0) (.new (.ofDialogue "copying" .copyMain) true)

/-- A directory with the file of the entry, and an empty store. -/
def copyingWorld : World :=
  { files := ((Files.atHome [] 0).addEntry 0 [] "site".toList
      (.directory newDirectoryMode 0)).addFile 0 ["site".toList] "main.scss".toList
        "a{}".toUTF8 newFileMode
    now := 7000000, held := [], memory := [.empty] }

/-- The file was read, and the build is about to end. -/
def copied : Publication :=
  after copyingPublisher (.ofDialogue .copyMain) 5 (start copyingWorld "main")

/-- The file is edited before the build ends, and the publication goes on to its end. -/
def copiedEdited : Publication :=
  { copied with world := { copied.world.advance 1000000 with
      files := copied.world.files.put ["site".toList, "main.scss".toList]
        (.file ⟨0, "b{}".toUTF8, newFileMode, 13000000⟩) } }

def copiedLate : Publication := after copyingPublisher (.ofDialogue .copyMain) 6 copiedEdited

theorem moves_copiedEdited :
    Moves copyingPublisher (.ofDialogue .copyMain) copied copiedEdited := by
  obtain ⟨hplace, hnode, hnow⟩ : (Path.mk "site/main.scss").place copied.world.files.home =
      ["site".toList, "main.scss".toList] ∧
      copied.world.files.nodeAt? ["site".toList, "main.scss".toList] =
        some (.file ⟨0, "a{}".toUTF8, newFileMode, 0⟩) ∧ copied.world.now = 12000000 := by
    decide +kernel
  have hsource : IsSource ⟨"site/main.scss"⟩ := ⟨"site/main".toList, by decide⟩
  have hwrites := writes_put ⟨0, "b{}".toUTF8, newFileMode, 13000000⟩
    (not_isDirectoryAt_of_file (hplace ▸ hnode))
  rw [hplace] at hwrites
  have htime : ((copied.world.now + (999999 + 1) : Nat) : Int) = 13000000 := by
    rw [hnow]
    rfl
  exact Moves.edit copied 999999 hsource (htime ▸ hwrites)

/-- The edit came between the read and the stamp, and the output is found to be current. -/
theorem needsCompile_after_edits_missed :
    (∃ output fingerprint,
      copiedLate.phase = .staged (.finished (.ok (.written output fingerprint)))) ∧
    (∃ a ∈ copiedLate.readings, copiedLate.world.files.read a.path ≠ .ok a.content) ∧
    copyingPublisher.needsCompile copiedLate.world "main" = .ok false := by
  have hrun : Relation.ReflTransGen (Moves copyingPublisher (.ofDialogue .copyMain))
      (start copyingWorld "main") copiedLate :=
    ((moves_after _ _ 5 _).tail moves_copiedEdited).trans (moves_after _ _ 6 _)
  have hstore : copyingPublisher.store.Exists copyingWorld := Nat.zero_lt_one
  obtain ⟨output, fingerprint, hphase⟩ : ∃ output fingerprint,
      copiedLate.phase = .staged (.finished (.ok (.written output fingerprint))) := ⟨_, _, rfl⟩
  obtain ⟨hstampedAt, ⟨a, ha, hpath, hcontent⟩, himports, hmodified, hread, hid⟩ :
      copiedLate.stampedAt = some 17000000 ∧
      (∃ a ∈ copiedLate.readings, a.path = ⟨"site/main.scss"⟩ ∧ a.content = "a{}".toUTF8) ∧
      ((copyingPublisher.store.get copiedLate.world "css-compiled/main.css").map
        fun r => r.map (·.imports)) = .ok (some [⟨"site/main.scss"⟩]) ∧
      copiedLate.world.files.modified ⟨"site/main.scss"⟩ = .ok 13000000 ∧
      copiedLate.world.files.read ⟨"site/main.scss"⟩ = .ok "b{}".toUTF8 ∧
      copyingPublisher.outputId "main" = .ok "css-compiled/main.css" := by
    decide +kernel
  obtain ⟨id, r, stamp, hid', hget, hstamp, -, -, hcurrent, -⟩ :=
    needsCompile_after_edits (inquires_ofDialogue "copying" .copyMain) hstore hrun hphase
  obtain rfl := Except.ok.inj (hid.symm.trans hid')
  obtain rfl := Option.some.inj (hstampedAt.symm.trans hstamp)
  rw [hget] at himports
  have himports : r.imports = [⟨"site/main.scss"⟩] := Option.some.inj (Except.ok.inj himports)
  refine ⟨⟨output, fingerprint, hphase⟩, ⟨a, ha, ?_⟩, hcurrent.2 fun source hsource => ?_⟩
  · rw [hpath, hcontent, hread]
    decide
  · rw [himports] at hsource
    obtain rfl := List.mem_singleton.1 hsource
    exact ⟨13000000, hmodified, by decide, by decide⟩

end Publication

end StyleBuild
