import StyleBuild.Proofs.Publisher.Success

/-!
# Publications that commute

At no stage does a publication change what any entry is built to
(`Passes.build_eq`). So two publications with outputs at different places write
the same, whichever comes first, and neither touches the output or the record of
the other (`publish_commutes`).
-/

namespace StyleBuild

open Files

namespace Publisher

variable {p : Publisher} {entry entry' : String} {b b' : Build} {f : Files} {u v w : World}
variable {stage : PublishStage}

/-- The build that a stage is about to write or to try the lock for has an output. -/
theorem Course.isOutput (h : p.Course w entry v stage) :
    ∀ b ∈ stage.build?, IsOutput b.output := by
  intro b hb
  cases stage with
  | built b' =>
      cases hb
      exact h.1.placed.isOutput
  | locked b' lock =>
      cases hb
      exact h.1.placed.isOutput
  | _ => cases hb

/-- No stage changes a source. -/
theorem Passes.sources (h : p.Passes w entry v stage) :
    SameOutside (noSource w.files.home) w.files v.files := by
  induction h with
  | start => exact SameOutside.refl _ _
  | @step v stage h ih =>
      have hstep := ((p.advances_step v stage).sources h.course.isOutput).1
      rw [ih.home] at hstep
      exact ih.trans hstep

/-- What an entry is built to stays when no source changes. -/
theorem build_eq_of_sources (hengine : p.compiler.engine.SeesImports) (hmounts : p.mounts.AreDown)
    (htree : f.IsTree) (h : SameOutside (noSource f.home) f v.files) (entry : String) :
    p.build v.files entry = p.build f entry :=
  build_eq_of_compile_eq (compile_eq_of_sameOutside hengine hmounts htree h
    (fun path hpath hmem => hmem path hpath rfl) entry)

/-- Nothing that a publication does feeds back into a build. -/
theorem Passes.buildCss_eq (hengine : p.compiler.engine.SeesImports) (hmounts : p.mounts.AreDown)
    (htree : w.files.IsTree) (h : p.Passes w entry v stage) (entry' : String) :
    p.buildCss v.files entry' = p.buildCss w.files entry' := by
  rw [buildCss, buildCss, build_eq_of_sources hengine hmounts htree h.sources]

/-- While no lock is held, no publication finds its lock held. -/
theorem Passes.ne_lockHeld (h : p.Passes w entry v stage) (hfree : w.held = []) (output : Path) :
    stage ≠ .finished (.ok (.lockHeld output)) ∧
      ∀ lock, stage ≠ .releasing (.ok (.lockHeld output)) lock := by
  induction h with
  | start => exact ⟨nofun, nofun⟩
  | @step v stage h ih =>
      have hheld := h.held
      have hadvances := p.advances_step v stage
      generalize (p.step v stage).1 = v' at hadvances ⊢
      generalize (p.step v stage).2 = stage' at hadvances ⊢
      cases hadvances with
      | busy tries hsame hbusy =>
          rw [World.IsLocked, hheld, hfree] at hbusy
          obtain ⟨x, -, hx⟩ | hnew := hbusy
          · cases hx
          · cases hnew
      | released =>
          refine ⟨fun heq => ?_, nofun⟩
          cases heq
          exact ih.2 _ rfl
      | ended => exact ⟨ih.1, nofun⟩
      | _ => exact ⟨nofun, nofun⟩

/-- What a publication that writes a build has done to a world. -/
structure Publishes (p : Publisher) (entry : String) (b : Build) (v w : World) : Prop where
  makes : p.Makes v entry b
  files : SameOutside (Session.places b.id b.output p.store v.files.home) v.files w.files
  sources : SameOutside (noSource v.files.home) v.files w.files
  read : w.files.read b.output = .ok b.css.toUTF8
  record : ∃ u, p.store.get w b.id = .ok (some (p.recordOf b u))
  store : p.store.Exists v → p.store.Exists w
  unmoved : ∀ entry' id, p.outputId entry' = .ok id → entry' ≠ entry → p.store.Unmoved id v w

/-- Without a lock in the way, a publication that does not fail writes its build. -/
theorem publishes_of_ok {outcome : PublishOutcome} (hfree : v.held = []) (hstore : p.store.Exists v)
    (h : p.publish v entry = (w, .ok outcome)) :
    ∃ b, p.Publishes entry b v w ∧ outcome = .written b.output b.fingerprint := by
  have hpasses := p.passes_publish v entry
  obtain ⟨-, hmemory, hunmoved, -⟩ := p.publish_spec hstore entry
  rw [h] at hpasses hmemory hunmoved
  obtain ⟨u, output, r, lock, hstamped⟩ | ⟨-, hnot⟩ := hpasses.course
  · obtain ⟨b, u', hmakes, rfl, rfl, hwrites⟩ := hstamped.course
    have hpublish := hstamped.publish_eq
    rw [h] at hpublish
    rcases hput : p.store.put u (p.recordOf b u') with ⟨u'', e | ok⟩
    · rw [hput] at hpublish
      cases hpublish
    · rw [hput] at hpublish
      cases hpublish
      have hplaced := hmakes.placed
      have hexists := exists_of_length_eq (congrArg List.length hwrites.memory) hstore
      have hfiles := hwrites.sameOutside_of_put hplaced rfl hput
      obtain ⟨hsame, -⟩ := RecordStore.put_ok hput
      refine ⟨b, ⟨hmakes, hfiles, hpasses.sources,
        hsame.read hplaced.isOutput.isNamed (output_notMem_places hplaced.isOutput _) hwrites.read,
        ⟨u', ?_⟩, exists_of_length_eq hmemory, fun entry' id hid hne => hunmoved id ?_⟩, rfl⟩
      · rw [World.unlock, RecordStore.get_held]
        exact RecordStore.get_put hexists (UInt32.le_refl _) hput
      · exact fun _ own hown => apart_of_ne hown hid hne.symm _
  · cases outcome with
    | written path fingerprint => exact absurd rfl (hnot path fingerprint)
    | lockHeld path => exact absurd rfl (hpasses.ne_lockHeld hfree path).1

namespace Publishes

/-- The build is one from every tree with the same sources. -/
theorem build_eq (h : p.Publishes entry b v w) (hengine : p.compiler.engine.SeesImports)
    (hmounts : p.mounts.AreDown) (htree : f.IsTree)
    (hsame : SameOutside (noSource f.home) f v.files) :
    p.build f entry = .ok (b.css, b.sources) := by
  have hlocate := (sameOutside_locate (p := p) v entry).files.of_empty (noSource f.home)
  rw [← build_eq_of_sources hengine hmounts htree (hsame.trans hlocate)]
  exact h.makes.build

/-- The output of another entry stays, if it is at another place. -/
theorem read_other (h : p.Publishes entry b v w) {output : Path} (houtput : IsOutput output)
    (hne : output.place v.files.home ≠ b.output.place v.files.home) {content : ByteArray}
    (hread : v.files.read output = .ok content) : w.files.read output = .ok content := by
  refine h.files.read houtput.isNamed ?_ hread
  rintro ((hout | hlock) | hrecord)
  · exact hne hout
  · exact houtput.lock_ne_output _ (Set.mem_singleton_iff.1 hlock).symm
  · exact output_notMem_places houtput _ hrecord

/-- The record of another entry is at another place than what is written. -/
theorem places_notMem_other (h : p.Publishes entry b v w) {id : String}
    (hid : p.outputId entry' = .ok id) (hne : entry' ≠ entry) (home : Location)
    (hvalid : RecordStore.isValidId id = true) :
    ∀ l ∈ p.store.places home id, l ∉ Session.places b.id b.output p.store home := by
  obtain ⟨u, hget⟩ := h.record
  have hplaced := h.makes.placed
  have hapart := apart_of_ne hplaced.id hid hne.symm home
  rintro l hl (hmem | hmem)
  · exact places_notMem_output hplaced.isOutput p.store home id l hl hmem
  · exact hapart.places_notMem hget hvalid l hl hmem

end Publishes

/-- What two publications that write their builds have done to a world. -/
structure PublishesBoth (p : Publisher) (entry : String) (b : Build) (entry' : String) (b' : Build)
    (v w : World) : Prop where
  files : SameOutside (Session.places b.id b.output p.store v.files.home ∪
    Session.places b'.id b'.output p.store v.files.home) v.files w.files
  read : w.files.read b.output = .ok b.css.toUTF8
  read' : w.files.read b'.output = .ok b'.css.toUTF8
  record : ∃ u, p.store.get w b.id = .ok (some (p.recordOf b u))
  record' : ∃ u, p.store.get w b'.id = .ok (some (p.recordOf b' u))
  others : ∀ entry'' id, p.outputId entry'' = .ok id → entry'' ≠ entry → entry'' ≠ entry' →
    ∀ r, p.store.get w id = .ok (some r) ↔ p.store.get v id = .ok (some r)

namespace PublishesBoth

theorem symm (h : p.PublishesBoth entry b entry' b' v w) :
    p.PublishesBoth entry' b' entry b v w :=
  ⟨Set.union_comm _ _ ▸ h.files, h.read', h.read, h.record', h.record,
    fun entry'' id hid hne' hne => h.others entry'' id hid hne hne'⟩

end PublishesBoth

/-- Two publications, one after the other, with outputs at different places. -/
theorem Publishes.both (h : p.Publishes entry b u v) {n : Nat}
    (h' : p.Publishes entry' b' (v.advance n) w) (hdown : p.store.IsDown) (htree : u.files.IsTree)
    (hne : b.output.place u.files.home ≠ b'.output.place u.files.home) :
    p.PublishesBoth entry b entry' b' u w := by
  have hhome : (v.advance n).files.home = u.files.home := h.files.home
  have hplaced := h.makes.placed
  have hplaced' := h'.makes.placed
  have hentry : entry' ≠ entry := by
    rintro rfl
    obtain ⟨hid, houtput⟩ := hplaced
    rw [Except.ok.inj (hid.symm.trans hplaced'.id), hplaced'.output] at houtput
    exact hne (by rw [Except.ok.inj houtput])
  have hadvance : ∀ id, p.store.Unmoved id v (v.advance n) :=
    fun id => RecordStore.unmoved_of_eq rfl rfl
  have hfiles' := h'.files
  rw [hhome] at hfiles'
  refine ⟨h.files.trans_union hfiles', h'.read_other hplaced.isOutput (hhome ▸ hne) h.read, h'.read,
    ?_, h'.record, fun entry'' id hid hne₁ hne₂ => ?_⟩
  · obtain ⟨time, hget⟩ := h.record
    exact ⟨time, (h'.unmoved _ _ hplaced.id hentry.symm).get _ ((hadvance _).get _ hget)⟩
  · have hunmoved := ((h.unmoved _ _ hid hne₁).trans (hadvance id)).trans (h'.unmoved _ _ hid hne₂)
    refine hunmoved.get_eq_some_iff (h.files.trans_union hfiles') htree hdown fun hvalid l hl => ?_
    rintro (hmem | hmem)
    · exact h.places_notMem_other hid hne₁ _ hvalid l hl hmem
    · exact h'.places_notMem_other hid hne₂ _ hvalid l hl hmem

/-- Two publications that do not fail while no lock is held write what the files before both of them
are built to. -/
theorem exists_publishesBoth (hengine : p.compiler.engine.SeesImports) (hmounts : p.mounts.AreDown)
    (hdown : p.store.IsDown) (htree : u.files.IsTree) (hstore : p.store.Exists u)
    (hfree : u.held = []) {n : Nat} {id id' : String} {output output' : Path}
    {first second : PublishOutcome} (hid : p.outputId entry = .ok id)
    (houtput : p.mounts.writable id = .ok output) (hid' : p.outputId entry' = .ok id')
    (houtput' : p.mounts.writable id' = .ok output')
    (hne : output.place u.files.home ≠ output'.place u.files.home)
    (h : p.publish u entry = (v, .ok first))
    (h' : p.publish (v.advance n) entry' = (w, .ok second)) :
    ∃ css css' sources sources',
      p.build u.files entry = .ok (css, sources) ∧ p.build u.files entry' = .ok (css', sources') ∧
      first = .written output (Fingerprint.of css.toUTF8) ∧
      second = .written output' (Fingerprint.of css'.toUTF8) ∧
      p.PublishesBoth entry ⟨id, output, css, sources⟩ entry' ⟨id', output', css', sources'⟩
        u w := by
  have hfree' : (v.advance n).held = [] := by
    have hheld := held_publish p u entry
    rwa [h, hfree] at hheld
  obtain ⟨⟨i, o, css, sources⟩, hb, rfl⟩ := publishes_of_ok hfree hstore h
  have hstore' : p.store.Exists (v.advance n) := exists_of_length_eq rfl (hb.store hstore)
  obtain ⟨⟨i', o', css', sources'⟩, hb', rfl⟩ := publishes_of_ok hfree' hstore' h'
  obtain rfl := Except.ok.inj (hid.symm.trans hb.makes.placed.id)
  obtain rfl := Except.ok.inj (houtput.symm.trans hb.makes.placed.output)
  obtain rfl := Except.ok.inj (hid'.symm.trans hb'.makes.placed.id)
  obtain rfl := Except.ok.inj (houtput'.symm.trans hb'.makes.placed.output)
  exact ⟨css, css', sources, sources', hb.build_eq hengine hmounts htree (SameOutside.refl _ _),
    hb'.build_eq hengine hmounts htree hb.sources, rfl, rfl, hb.both hb' hdown htree hne⟩

/-- The same files outside `s`, and the same records of all entries but for the times. -/
structure AgreesButTimes (p : Publisher) (s : Set Location) (v w : World) : Prop where
  files : ∀ l, l ∉ s → ∀ x, v.files.nodeAt? l = some (.file x) ↔ w.files.nodeAt? l = some (.file x)
  records : ∀ entry id, p.outputId entry = .ok id → ∀ r : CompileRecord,
    (∃ time, p.store.get v id = .ok (some { r with compiledAt := time })) ↔
      ∃ time, p.store.get w id = .ok (some { r with compiledAt := time })

/-- Two records of a build differ in their times only. -/
theorem agrees_recordOf (p : Publisher) (b : Build) (u v : World) (r : CompileRecord) :
    (∃ time, p.recordOf b u = { r with compiledAt := time }) ↔
      ∃ time, p.recordOf b v = { r with compiledAt := time } := by
  have hother : ∀ {u v : World}, (∃ time, p.recordOf b u = { r with compiledAt := time }) →
      ∃ time, p.recordOf b v = { r with compiledAt := time } := by
    rintro u v ⟨time, h⟩
    refine ⟨v.milliseconds.toUInt64, ?_⟩
    have hreplaced := congrArg (fun q : CompileRecord =>
      { q with compiledAt := v.milliseconds.toUInt64 }) h
    exact hreplaced
  exact ⟨hother, hother⟩

theorem PublishesBoth.agrees (h : p.PublishesBoth entry b entry' b' u v)
    (h' : p.PublishesBoth entry b entry' b' u w) (hid : p.outputId entry = .ok b.id)
    (hid' : p.outputId entry' = .ok b'.id) :
    p.AgreesButTimes (Session.places b.id b.output p.store u.files.home ∪
      Session.places b'.id b'.output p.store u.files.home) v w := by
  have hrecords : ∀ {c : Build}, (∃ t, p.store.get v c.id = .ok (some (p.recordOf c t))) →
      (∃ t, p.store.get w c.id = .ok (some (p.recordOf c t))) → ∀ r : CompileRecord,
      (∃ time, p.store.get v c.id = .ok (some { r with compiledAt := time })) ↔
        ∃ time, p.store.get w c.id = .ok (some { r with compiledAt := time }) := by
    rintro c ⟨t, hv⟩ ⟨t', hw⟩ r
    rw [hv, hw]
    simp only [Except.ok.injEq, Option.some.injEq]
    exact agrees_recordOf p c t t' r
  refine ⟨fun l hl x => (h.files.files l hl x).trans (h'.files.files l hl x).symm,
    fun entry'' id hid'' r => ?_⟩
  by_cases hentry : entry'' = entry
  · subst hentry
    obtain rfl := Except.ok.inj (hid''.symm.trans hid)
    exact hrecords h.record h'.record r
  by_cases hentry' : entry'' = entry'
  · subst hentry'
    obtain rfl := Except.ok.inj (hid''.symm.trans hid')
    exact hrecords h.record' h'.record' r
  simp only [h.others entry'' id hid'' hentry hentry', h'.others entry'' id hid'' hentry hentry']

/-- At no stage does a publication change what any entry is built to. And two publications with
outputs at different places, of which neither fails in either order while no lock is held, write the
same whichever comes first, also when the clock goes on in between: the same outputs with the same
fingerprints, the same records but for the times, and nothing else in other files. -/
theorem publish_commutes (hengine : p.compiler.engine.SeesImports) (hmounts : p.mounts.AreDown)
    (hdown : p.store.IsDown) (htree : w.files.IsTree) (hstore : p.store.Exists w) :
    (∀ entry entry' v stage, p.Passes w entry v stage →
      p.buildCss v.files entry' = p.buildCss w.files entry') ∧
    ∀ entry₁ entry₂ id₁ id₂ output₁ output₂ n m v₁ v₂ w₁ w₂ first second first' second',
      p.outputId entry₁ = .ok id₁ → p.mounts.writable id₁ = .ok output₁ →
      p.outputId entry₂ = .ok id₂ → p.mounts.writable id₂ = .ok output₂ →
      output₁.place w.files.home ≠ output₂.place w.files.home → w.held = [] →
      p.publish w entry₁ = (v₁, .ok first) →
      p.publish (v₁.advance n) entry₂ = (w₁, .ok second) →
      p.publish w entry₂ = (v₂, .ok second') →
      p.publish (v₂.advance m) entry₁ = (w₂, .ok first') →
      ∃ css₁ css₂ : String, first = .written output₁ (Fingerprint.of css₁.toUTF8) ∧ first' = first ∧
        second = .written output₂ (Fingerprint.of css₂.toUTF8) ∧ second' = second ∧
        w₁.files.read output₁ = .ok css₁.toUTF8 ∧ w₂.files.read output₁ = .ok css₁.toUTF8 ∧
        w₁.files.read output₂ = .ok css₂.toUTF8 ∧ w₂.files.read output₂ = .ok css₂.toUTF8 ∧
        p.AgreesButTimes (Session.places id₁ output₁ p.store w.files.home ∪
          Session.places id₂ output₂ p.store w.files.home) w₁ w₂ := by
  refine ⟨fun entry entry' v stage h => h.buildCss_eq hengine hmounts htree entry', ?_⟩
  intro entry₁ entry₂ id₁ id₂ output₁ output₂ n m v₁ v₂ w₁ w₂ first second first' second'
    hid₁ houtput₁ hid₂ houtput₂ hne hfree h₁ h₂ h₂' h₁'
  obtain ⟨css₁, css₂, sources₁, sources₂, hbuild₁, hbuild₂, rfl, rfl, hboth⟩ :=
    exists_publishesBoth hengine hmounts hdown htree hstore hfree hid₁ houtput₁ hid₂ houtput₂ hne
      h₁ h₂
  obtain ⟨css₂', css₁', sources₂', sources₁', hbuild₂', hbuild₁', rfl, rfl, hboth'⟩ :=
    exists_publishesBoth hengine hmounts hdown htree hstore hfree hid₂ houtput₂ hid₁ houtput₁
      hne.symm h₂' h₁'
  obtain ⟨rfl, rfl⟩ := Prod.mk.inj (Except.ok.inj (hbuild₁.symm.trans hbuild₁'))
  obtain ⟨rfl, rfl⟩ := Prod.mk.inj (Except.ok.inj (hbuild₂.symm.trans hbuild₂'))
  exact ⟨css₁, css₂, rfl, rfl, rfl, rfl, hboth.read, hboth'.read', hboth.read', hboth'.read,
    hboth.agrees hboth'.symm hid₁ hid₂⟩

theorem exists_publish_eq_ok
    (h : (PublishStage.finished (p.publish w entry).2).hasWritten = true) :
    ∃ v outcome, p.publish w entry = (v, .ok outcome) := by
  obtain ⟨output, fingerprint, hresult⟩ := exists_of_hasWritten h
  exact ⟨_, _, Prod.ext rfl hresult⟩

/-- A publisher whose sources, outputs and records are all in one directory. -/
def sharedBuilder : Publisher :=
  .new (.ofList [("theme", [⟨"site"⟩]), ("css-compiled", [⟨"site"⟩])]) ["theme"]
    (.files ⟨"site"⟩) (.new (.ofDialogue "copying" .copyMain) false)

/-- One entry is there and one is not, so the text of that one is a comment. -/
def sharedSite : World :=
  { files := ((Files.atHome [] 0).addEntry 0 [] "site".toList
      (.directory newDirectoryMode 0)).addFile 0 ["site".toList] "main.scss".toList
        "a{}".toUTF8 newFileMode
    now := 7000000, held := [], memory := [] }

/-- Both entries, with a second between the publications or none. -/
theorem publish_commutes_sharedSite : ∃ v₁ v₂ w₁ w₂ first second,
    sharedBuilder.publish sharedSite "main" = (v₁, .ok first) ∧
    sharedBuilder.publish (v₁.advance 1000000000) "print" = (w₁, .ok second) ∧
    sharedBuilder.publish sharedSite "print" = (v₂, .ok second) ∧
    sharedBuilder.publish (v₂.advance 0) "main" = (w₂, .ok first) ∧
    sharedBuilder.buildCss v₂.files "main" = sharedBuilder.buildCss sharedSite.files "main" ∧
    w₁.files.read ⟨"site/main.css"⟩ = w₂.files.read ⟨"site/main.css"⟩ ∧
    w₁.files.read ⟨"site/print.css"⟩ = w₂.files.read ⟨"site/print.css"⟩ := by
  obtain ⟨hmounts, hdown, hplace, hid₁, houtput₁, hid₂, houtput₂⟩ :
      sharedBuilder.mounts.AreDown ∧ (Path.mk "site").IsDown ∧
      (Path.mk "site/main.css").place [] ≠ (Path.mk "site/print.css").place [] ∧
      sharedBuilder.outputId "main" = .ok "css-compiled/main.css" ∧
      sharedBuilder.mounts.writable "css-compiled/main.css" = .ok ⟨"site/main.css"⟩ ∧
      sharedBuilder.outputId "print" = .ok "css-compiled/print.css" ∧
      sharedBuilder.mounts.writable "css-compiled/print.css" = .ok ⟨"site/print.css"⟩ := by
    decide +kernel
  have htree : sharedSite.files.IsTree := isTree_of_forall_mem (by decide +kernel)
  obtain ⟨hbuild, hcommutes⟩ := publish_commutes (p := sharedBuilder)
    (inquires_ofDialogue "copying" .copyMain).seesImports hmounts hdown htree trivial
  obtain ⟨hmain, hmainPrint, hprint, hprintMain⟩ :
      (PublishStage.finished (sharedBuilder.publish sharedSite "main").2).hasWritten = true ∧
      (PublishStage.finished (sharedBuilder.publish ((sharedBuilder.publish sharedSite
        "main").1.advance 1000000000) "print").2).hasWritten = true ∧
      (PublishStage.finished (sharedBuilder.publish sharedSite "print").2).hasWritten = true ∧
      (PublishStage.finished (sharedBuilder.publish ((sharedBuilder.publish sharedSite
        "print").1.advance 0) "main").2).hasWritten = true := by
    decide +kernel
  obtain ⟨v₁, first, h₁⟩ := exists_publish_eq_ok hmain
  obtain ⟨v₂, second, h₂⟩ := exists_publish_eq_ok hprint
  rw [h₁] at hmainPrint
  rw [h₂] at hprintMain
  obtain ⟨w₁, second', h₁₂⟩ := exists_publish_eq_ok hmainPrint
  obtain ⟨w₂, first', h₂₁⟩ := exists_publish_eq_ok hprintMain
  obtain ⟨css₁, css₂, -, rfl, -, rfl, hread₁, hread₁', hread₂, hread₂', -⟩ :=
    hcommutes "main" "print" _ _ _ _ 1000000000 0 _ _ _ _ _ _ _ _ hid₁ houtput₁ hid₂ houtput₂ hplace
      rfl h₁ h₁₂ h₂ h₂₁
  have hpasses := sharedBuilder.passes_publish sharedSite "print"
  rw [h₂] at hpasses
  exact ⟨v₁, v₂, w₁, w₂, _, _, h₁, h₁₂, h₂, h₂₁, hbuild _ _ _ _ hpasses,
    hread₁.trans hread₁'.symm, hread₂.trans hread₂'.symm⟩

end Publisher

end StyleBuild
