import StyleBuild.Proofs.Engine.Dialogue
import StyleBuild.Proofs.Publisher.History

/-!
# Outputs that are current

An output that need not be compiled again is what a build gives now, as long as
every look-up of the recorded build has the answer that it had then
(`buildCss_of_needsCompile_eq_false`): the sources that the build read are the
recorded ones, and none of them was written since.

The record says nothing of look-ups. An override that was made since is not
noticed, and neither is a change of what was taken for an echo
(`needsCompile_misses_override`).
-/

namespace StyleBuild

open Files

namespace Publisher

/-- The look-ups of a build from some files have the same answers with others. -/
def LooksUpAlike (p : Publisher) (ask : Asking) (entry : String) (files files' : Files) : Prop :=
  ∀ token ∈ (p.inquiry ask entry).tokens (p.importer files),
    (p.importer files').resolve token = (p.importer files).resolve token

end Publisher

namespace History

variable {p : Publisher} {ask : Asking} {entry : String} {s : History} {w : World}

/-- With the same look-ups and no recorded source written since, a build gives what it gave. -/
theorem Attests.build_eq {files : Files} {r : CompileRecord}
    (hinquires : p.compiler.engine.Inquires ask) (h : Attests p entry files r w)
    (hecho : ¬ (p.withBindings r.bindings).Echoes files entry)
    (halike : (p.withBindings r.bindings).LooksUpAlike ask entry files w.files)
    (hcurrent : ∀ source ∈ r.imports,
      Publisher.isCurrentSource w.files r.compiledAt source = true) :
    (p.withBindings r.bindings).build w.files entry =
      (p.withBindings r.bindings).build files entry := by
  have hinquires' : (p.withBindings r.bindings).compiler.engine.Inquires ask := hinquires
  rw [Publisher.build_eq_run hinquires', Publisher.build_eq_run hinquires']
  apply Inquiry.run_congr _ halike
  intro path hpath
  rcases (Publisher.readsHits_inquiry hinquires' entry).exists_token _ path hpath with
    hnamed | ⟨token, htoken, hit, hresolve, rfl⟩
  · cases hnamed
  obtain ⟨hsource, hfile⟩ := Publisher.resolve_eq_some hresolve
  obtain ⟨-, hfile'⟩ := Publisher.resolve_eq_some ((halike token htoken).trans hresolve)
  obtain ⟨l, x, hx⟩ := find_of_isFile hfile
  obtain ⟨l', y, hy⟩ := find_of_isFile hfile'
  have hcontent : y.content = x.content := by
    have hplace := (find_place hy).2
    rcases h.fresh hit.path hsource x (find_place hx).2 y (h.home ▸ hplace) with hsame | hlater
    · exact hsame
    · obtain ⟨css, hbuild, -⟩ := h.build
      obtain ⟨source, hmem, hcomponents⟩ :=
        Publisher.listed_build hinquires' hbuild hecho hit.path hpath
      obtain ⟨t, ht, -, hle⟩ := (Publisher.isCurrentSource_iff _ _ _).1 (hcurrent source hmem)
      rw [← Path.place_eq_of_components_eq _ hcomponents] at hplace
      rw [modified_place ht hplace] at hlater
      exact absurd hlater (UInt64.not_lt.2 hle)
  exact (read_of_find hy).trans (hcontent ▸ (read_of_find hx).symm)

/-- Along every history that starts without records: when an output need not be compiled again,
and the look-ups of the recorded build, which was no echo, have the same answers now, a build
gives the output. -/
theorem buildCss_of_needsCompile_eq_false (hinquires : p.compiler.engine.Inquires ask)
    (hstore : p.store.Exists w)
    (hvacant : ∀ entry id, p.outputId entry = .ok id → p.store.Vacant w id)
    (hrun : Relation.ReflTransGen (Moves p) (start p w) s)
    (hcurrent : (s.publisher p).needsCompile s.world entry = .ok false) :
    ∃ files, s.builtFrom entry = some files ∧
      (¬ (s.publisher p).Echoes files entry →
        (s.publisher p).LooksUpAlike ask entry files s.world.files →
          ∃ css id output content, (s.publisher p).buildCss s.world.files entry = .ok css ∧
            p.outputId entry = .ok id ∧ p.mounts.find? s.world.files.isFile id = some output ∧
              s.world.files.read output = .ok content ∧
                Fingerprint.of content = Fingerprint.of css.toUTF8) := by
  have hsound := sound_of_run hstore hvacant hrun
  obtain ⟨id, r, output, content, hid, hget, hfind, hread, hfingerprint, -, hbindings, himports⟩ :=
    Publisher.needsCompile_eq_false_iff.1 hcurrent
  rcases hsound.records entry id hid with ⟨-, hnone⟩ | ⟨files, r', hfiles, hget', hattests⟩
  · exact absurd hget (hnone.get_ne r)
  obtain rfl : r = r' := Option.some.inj (Except.ok.inj (hget.symm.trans hget'))
  have hpublisher : s.publisher p = p.withBindings r.bindings := by
    rw [hbindings]
    rfl
  refine ⟨files, hfiles, fun hecho halike => ?_⟩
  rw [hpublisher] at hecho halike ⊢
  obtain ⟨css, hbuild, hcss⟩ := hattests.build
  have hsame := hattests.build_eq hinquires hecho halike himports
  refine ⟨css, id, output, content, ?_, hid, hfind, hread, hfingerprint.trans hcss⟩
  rw [Publisher.buildCss, hsame, hbuild]
  rfl

/-- After a publication and a change of a source, the recorded sources alone decide. -/
theorem needsCompile_of_source {path : Path} {files : Files} (hstore : p.store.Exists s.world)
    (hwritten :
      (PublishStage.finished ((s.publisher p).publish s.world entry).2).hasWritten = true)
    (hpath : IsSource path)
    (hsame : SameOutside {path.place (s.publish p entry).world.files.home}
      (s.publish p entry).world.files files) :
    ∃ id r, p.outputId entry = .ok id ∧
      p.store.get { (s.publish p entry).world with files } id = .ok (some r) ∧
      (s.publisher p).needsCompile { (s.publish p entry).world with files } entry =
        .ok (!r.imports.all (Publisher.isCurrentSource files r.compiledAt)) := by
  obtain ⟨-, -, -, hpublished⟩ := Publisher.publish_spec (p := s.publisher p) hstore entry
  obtain ⟨stamp, hpublished⟩ := hpublished hwritten
  have hkept := hpublished.mono (w := { (s.publish p entry).world with files })
    fun b hplaced => keeps_of_source hplaced.isOutput hpath hsame rfl
  obtain ⟨id, r, -, hid, hget, -, -, hneeds⟩ := hkept.needsCompile_eq
  exact ⟨id, r, hid, hget, hneeds⟩

/-- Two roots, of which the first one overrides the second one. -/
def overriding : Publisher :=
  .new (.ofList [("custom", [⟨"custom"⟩]), ("theme", [⟨"theme"⟩]), ("css-compiled", [⟨"public"⟩])])
    ["custom", "theme"] (.memory 0) (.new (.ofDialogue "copying" .copyMain) true)

/-- A directory for each root, the entry in the second one, and an empty store. -/
def themed (text : String) : World :=
  { files := (((Files.atHome [] 0).addEntry 0 [] "custom".toList
      (.directory newDirectoryMode 0)).addEntry 0 [] "theme".toList
        (.directory newDirectoryMode 0)).addFile 0 ["theme".toList] "main.scss".toList
          text.toUTF8 newFileMode
    now := 7000000, held := [], memory := [.empty] }

def themedPublished (text : String) : History :=
  (start overriding (themed text)).publish overriding "main"

/-- Another text is written to a path in the millisecond after the publication. -/
def themedChanged (text : String) (path : Path) : History :=
  { themedPublished text with
    world := { (themedPublished text).world with
      files := (themedPublished text).world.files.put
        (path.place (themedPublished text).world.files.home)
        (.file ⟨7, "b{}".toUTF8, newFileMode, 8000000⟩) } }

/-- Every record is older than the change, and its sources are current. -/
def RecordsCurrent (s : History) : Prop :=
  ∀ d ∈ s.world.memory, ∀ e ∈ d.entries, e.2.compiledAt < 8 ∧
    e.2.imports.all (Publisher.isCurrentSource s.world.files e.2.compiledAt) = true

instance (s : History) : Decidable (RecordsCurrent s) :=
  inferInstanceAs (Decidable (∀ d ∈ s.world.memory, ∀ e ∈ d.entries, e.2.compiledAt < 8 ∧
    e.2.imports.all (Publisher.isCurrentSource s.world.files e.2.compiledAt) = true))

theorem themedChanged_current {text : String} {path : Path} (hpath : IsSource path)
    (hwritten :
      (PublishStage.finished (overriding.publish (themed text) "main").2).hasWritten = true)
    (hdirectory : ¬ (themedPublished text).world.files.IsDirectoryAt
      (path.place (themedPublished text).world.files.home))
    (hrecords : RecordsCurrent (themedChanged text path)) :
    Relation.ReflTransGen (Moves overriding) (start overriding (themed text))
        (themedChanged text path) ∧
      overriding.needsCompile (themedChanged text path).world "main" = .ok false := by
  have hwrites := writes_put ⟨7, "b{}".toUTF8, newFileMode, 8000000⟩ hdirectory
  have hlater : Later overriding (themedPublished text) 8000000 := by
    intro entry id r _ hget
    obtain ⟨d, hd, hr⟩ := RecordStore.mem_of_get_memory hget
    exact (hrecords d hd _ hr).1
  refine ⟨(Relation.ReflTransGen.single (Moves.publish _ "main")).tail
    (Moves.write _ hpath hwrites hlater), ?_⟩
  have hstore : overriding.store.Exists (start overriding (themed text)).world := Nat.zero_lt_one
  obtain ⟨id, r, -, hget, hneeds⟩ := needsCompile_of_source hstore hwritten hpath hwrites.same
  obtain ⟨d, hd, hr⟩ := RecordStore.mem_of_get_memory hget
  have himports : r.imports.all (Publisher.isCurrentSource (themedChanged text path).world.files
      r.compiledAt) = true := (hrecords d hd _ hr).2
  exact hneeds.trans (congrArg (fun current => Except.ok !current) himports)

/-- The output need not be compiled again, although a build gives another one. -/
def Missed (p : Publisher) (s : History) (entry : String) : Prop :=
  (s.publisher p).needsCompile s.world entry = .ok false ∧
    ∃ css id output content, (s.publisher p).buildCss s.world.files entry = .ok css ∧
      p.outputId entry = .ok id ∧ p.mounts.find? s.world.files.isFile id = some output ∧
        s.world.files.read output = .ok content ∧ content ≠ css.toUTF8

theorem missed_of_read {css : String} {content : ByteArray}
    (hcurrent : overriding.needsCompile s.world "main" = .ok false)
    (hbindings : s.bindings = .empty)
    (hbuild : overriding.buildCss s.world.files "main" = .ok css)
    (hread : s.world.files.read ⟨"public/main.css"⟩ = .ok content) (hne : content ≠ css.toUTF8) :
    Missed overriding s "main" := by
  obtain ⟨hid, hwritable⟩ : overriding.outputId "main" = .ok "css-compiled/main.css" ∧
      overriding.mounts.writable "css-compiled/main.css" = .ok ⟨"public/main.css"⟩ := by
    decide +kernel
  have hpublisher : s.publisher overriding = overriding := by
    rw [publisher, hbindings]
    rfl
  have hfind := Mounts.find?_of_writable hwritable (isFile_of_read hread)
  rw [Missed, hpublisher]
  exact ⟨hcurrent, css, _, _, content, hbuild, hid, hfind, hread, hne⟩

/-- An override is made after a publication, and a text that is its own import is replaced. -/
theorem needsCompile_misses_override :
    overriding.compiler.engine.Inquires (.ofDialogue .copyMain) ∧
      (Relation.ReflTransGen (Moves overriding) (start overriding (themed "a{}"))
          (themedChanged "a{}" ⟨"custom/main.scss"⟩) ∧
        Missed overriding (themedChanged "a{}" ⟨"custom/main.scss"⟩) "main") ∧
      Relation.ReflTransGen (Moves overriding) (start overriding (themed "@import \"main.scss\";"))
          (themedChanged "@import \"main.scss\";" ⟨"theme/main.scss"⟩) ∧
        Missed overriding (themedChanged "@import \"main.scss\";" ⟨"theme/main.scss"⟩) "main" := by
  refine ⟨inquires_ofDialogue "copying" .copyMain, ?_, ?_⟩
  · obtain ⟨hwritten, hnode, hrecords, hbuild, hread⟩ :
        (PublishStage.finished (overriding.publish (themed "a{}") "main").2).hasWritten = true ∧
        (themedPublished "a{}").world.files.nodeAt?
          ((Path.mk "custom/main.scss").place (themedPublished "a{}").world.files.home) = none ∧
        RecordsCurrent (themedChanged "a{}" ⟨"custom/main.scss"⟩) ∧
        overriding.buildCss (themedChanged "a{}" ⟨"custom/main.scss"⟩).world.files "main" =
          .ok "b{}" ∧
        (themedChanged "a{}" ⟨"custom/main.scss"⟩).world.files.read ⟨"public/main.css"⟩ =
          .ok "a{}".toUTF8 := by
      decide +kernel
    obtain ⟨hrun, hcurrent⟩ := themedChanged_current ⟨"custom/main".toList, by decide⟩ hwritten
      (not_isDirectoryAt_of_none hnode) hrecords
    exact ⟨hrun, missed_of_read hcurrent rfl hbuild hread (by decide)⟩
  · obtain ⟨hwritten, hnode, hrecords, hbuild, hread⟩ :
        (PublishStage.finished
          (overriding.publish (themed "@import \"main.scss\";") "main").2).hasWritten = true ∧
        (themedPublished "@import \"main.scss\";").world.files.nodeAt?
            ((Path.mk "theme/main.scss").place
              (themedPublished "@import \"main.scss\";").world.files.home) =
          some (.file ⟨0, "@import \"main.scss\";".toUTF8, newFileMode, 0⟩) ∧
        RecordsCurrent (themedChanged "@import \"main.scss\";" ⟨"theme/main.scss"⟩) ∧
        overriding.buildCss
          (themedChanged "@import \"main.scss\";" ⟨"theme/main.scss"⟩).world.files "main" =
            .ok "b{}" ∧
        (themedChanged "@import \"main.scss\";" ⟨"theme/main.scss"⟩).world.files.read
          ⟨"public/main.css"⟩ = .ok "/* @import \"main.scss\" */".toUTF8 := by
      decide +kernel
    obtain ⟨hrun, hcurrent⟩ := themedChanged_current ⟨"theme/main".toList, by decide⟩ hwritten
      (not_isDirectoryAt_of_file hnode) hrecords
    exact ⟨hrun, missed_of_read hcurrent rfl hbuild hread (by decide)⟩

/-- A source that the build did not look up is made after the publication. -/
theorem buildCss_of_needsCompile_eq_false_themed :
    ∃ css id output content,
      overriding.buildCss (themedChanged "a{}" ⟨"theme/other.scss"⟩).world.files "main" = .ok css ∧
        overriding.outputId "main" = .ok id ∧
          overriding.mounts.find? (themedChanged "a{}" ⟨"theme/other.scss"⟩).world.files.isFile id =
            some output ∧
            (themedChanged "a{}" ⟨"theme/other.scss"⟩).world.files.read output = .ok content ∧
              Fingerprint.of content = Fingerprint.of css.toUTF8 := by
  obtain ⟨hwritten, hnode, hrecords, hcompile⟩ :
      (PublishStage.finished (overriding.publish (themed "a{}") "main").2).hasWritten = true ∧
      (themedPublished "a{}").world.files.nodeAt?
        ((Path.mk "theme/other.scss").place (themedPublished "a{}").world.files.home) = none ∧
      RecordsCurrent (themedChanged "a{}" ⟨"theme/other.scss"⟩) ∧
      overriding.compile (overriding.locate (themed "a{}") "main").1.files "main" =
        .ok ⟨"a{}", [⟨"theme/main.scss"⟩], true⟩ := by
    decide +kernel
  have halike : overriding.LooksUpAlike (.ofDialogue .copyMain) "main"
      (overriding.locate (themed "a{}") "main").1.files
      (themedChanged "a{}" ⟨"theme/other.scss"⟩).world.files := by
    unfold Publisher.LooksUpAlike
    decide +kernel
  obtain ⟨hrun, hcurrent⟩ := themedChanged_current ⟨"theme/other".toList, by decide⟩ hwritten
    (not_isDirectoryAt_of_none hnode) hrecords
  have hstore : overriding.store.Exists (themed "a{}") := Nat.zero_lt_one
  obtain ⟨files, hfiles, hsame⟩ := buildCss_of_needsCompile_eq_false
    (inquires_ofDialogue "copying" .copyMain) hstore (fun _ _ _ => rfl) hrun hcurrent
  have hbuilt : (themedChanged "a{}" ⟨"theme/other.scss"⟩).builtFrom "main" =
      some (overriding.locate (themed "a{}") "main").1.files := by
    have hupdate : (themedPublished "a{}").builtFrom = Function.update (fun _ => none) "main"
        (some (overriding.locate (themed "a{}") "main").1.files) := if_pos hwritten
    exact (congrFun hupdate "main").trans (Function.update_self _ _ _)
  obtain rfl := Option.some.inj (hbuilt.symm.trans hfiles)
  refine hsame (fun hecho => ?_) halike
  obtain ⟨-, compiled, hcompiled, hnotFound⟩ := hecho
  obtain rfl := Except.ok.inj (hcompile.symm.trans hcompiled)
  cases hnotFound

end History

end StyleBuild
