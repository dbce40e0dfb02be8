import StyleBuild.Proofs.Publisher.Ids
import StyleBuild.Proofs.Publisher.Stage

/-!
# Publications without interruption

What a whole publication does follows from what its steps do, by induction on
the steps that are left (`finish_spec`): it changes no source, it leaves the
records of other entries alone, and every record if it does not end with
`written`. If it does, output and record are those of its build (`publish_spec`).
-/

namespace StyleBuild

open Files

namespace PublishStage

/-- The record that is about to be put. -/
def record? : PublishStage → Option CompileRecord
  | stamped _ r _ => some r
  | _ => none

/-- Output and record were written. -/
def hasWritten : PublishStage → Bool
  | releasing (.ok (.written ..)) _ => true
  | finished (.ok (.written ..)) => true
  | _ => false

end PublishStage

namespace Publisher

variable {p : Publisher} {entry id : String} {good : Build → Prop} {stamp : Option Nat}
variable {v w : World} {stage stage' : PublishStage}

theorem unmoved_of_quiet (h : v.SameOutside ∅ w) : p.store.Unmoved id v w :=
  RecordStore.unmoved_of_sameOutside h.files h.memory fun _ _ hmem => hmem

theorem unmoved_of_triesLock {output : Path} (h : v.TriesLock output w) :
    p.store.Unmoved id v w := by
  apply RecordStore.unmoved_of_sameOutside h.files h.memory
  intro l hl hmem
  rw [Set.mem_singleton_iff.1 hmem] at hl
  exact lock_notMem_places _ hl

/-- A step leaves every record alone that is apart from the one it puts. -/
theorem Advances.unmoved (h : p.Advances v stage w stage')
    (hout : ∀ b ∈ stage.build?, IsOutput b.output)
    (hapart : ∀ r ∈ stage.record?, stage'.hasWritten = true →
      p.store.Apart v.files.home r.file id) : p.store.Unmoved id v w := by
  cases h with
  | unnamed quiet => exact unmoved_of_quiet quiet
  | named quiet => exact unmoved_of_quiet quiet
  | rejected => exact RecordStore.Unmoved.refl _ _ _
  | compiled => exact RecordStore.Unmoved.refl _ _ _
  | unlocked tries => exact unmoved_of_triesLock tries
  | busy tries => exact unmoved_of_triesLock tries
  | acquired tries => exact unmoved_of_triesLock tries
  | unwritten quiet => exact unmoved_of_quiet quiet
  | @wrote _ b lock same =>
      have hb : IsOutput b.output := hout b rfl
      have hsame := same hb.isNamed
      apply RecordStore.unmoved_of_sameOutside hsame.files hsame.memory
      intro l hl hmem
      rw [Set.mem_singleton_iff.1 hmem] at hl
      exact output_notMem_places hb _ hl
  | stamped => exact RecordStore.Unmoved.refl _ _ _
  | unrecorded quiet => exact unmoved_of_quiet quiet
  | recorded hput => exact RecordStore.unmoved_of_put hput (hapart _ rfl rfl)
  | released => exact RecordStore.unmoved_of_eq rfl rfl
  | ended => exact RecordStore.Unmoved.refl _ _ _

theorem sameOutside_locate (w : World) (entry : String) :
    w.SameOutside ∅ (p.locate w entry).1 := by
  have hadvances := p.advances_locate w entry
  generalize (p.locate w entry).1 = w' at hadvances
  generalize (p.locate w entry).2 = stage at hadvances
  cases hadvances with
  | unnamed quiet => exact quiet
  | named quiet => exact quiet

theorem finish_of_result? {result : Except Error PublishOutcome} (h : stage.result? = some result) :
    p.finish w stage = (w, result) := by
  rw [finish]
  split
  · next result' h' => rw [Option.some.inj (h.symm.trans h')]
  · next h' => rw [h] at h'; cases h'

theorem finish_of_step (h : stage.result? = none) :
    p.finish w stage = p.finish (p.step w stage).1 (p.step w stage).2 := by
  rw [finish]
  split
  · next h' => rw [h] at h'; cases h'
  · rfl

theorem hasWritten_finish (h : stage.hasWritten = true) :
    (PublishStage.finished (p.finish w stage).2).hasWritten = true := by
  cases stage with
  | releasing result lock =>
      rw [finish_of_step rfl, finish_of_result? rfl]
      rcases result with e | outcome
      · cases h
      · cases outcome with
        | written path fingerprint => rfl
        | lockHeld path => cases h
  | finished result =>
      rw [finish_of_result? rfl]
      exact h
  | _ => cases h

/-- The files that a publication builds from, when it has not built yet. -/
def filesOfBuild? (p : Publisher) (w : World) : PublishStage → Option Files
  | .started entry => some (p.locate w entry).1.files
  | .located .. => some w.files
  | _ => none

theorem filesOfBuild?_step (h : p.Carries entry good stamp v stage) :
    ∀ files ∈ p.filesOfBuild? (p.step v stage).1 (p.step v stage).2,
      files ∈ p.filesOfBuild? v stage := by
  intro files hfiles
  have hadvances := p.advances_step v stage
  generalize hw : (p.step v stage).1 = w at hadvances hfiles
  generalize hstage : (p.step v stage).2 = stage' at hadvances hfiles
  cases hadvances with
  | named =>
      rw [← hw] at hfiles
      exact hfiles
  | _ => cases hfiles

/-- What is known of the record of a stage. -/
theorem Carries.file_record (h : p.Carries entry good stamp w stage) :
    ∀ r ∈ stage.record?, p.outputId entry = .ok r.file := by
  intro r hr
  cases stage with
  | stamped output r' lock =>
      cases hr
      obtain ⟨b, u, hplaced, -, -, -, rfl⟩ := h
      exact hplaced.id
  | _ => cases hr

/-- What a publication does from a stage to its end. -/
theorem finish_spec (good : Build → Prop) (hstore : p.store.Exists v)
    (hgood : ∀ files ∈ p.filesOfBuild? v stage, ∀ id output css sources,
      p.build files entry = .ok (css, sources) → good ⟨id, output, css, sources⟩)
    (h : p.Carries entry good stamp v stage) :
    (∃ stamp, p.Carries entry good stamp (p.finish v stage).1 (.finished (p.finish v stage).2)) ∧
      SameOutside (noSource v.files.home) v.files (p.finish v stage).1.files ∧
      (p.finish v stage).1.memory.length = v.memory.length ∧
      ∀ id, ((PublishStage.finished (p.finish v stage).2).hasWritten = true →
        ∀ own, p.outputId entry = .ok own → p.store.Apart v.files.home own id) →
        p.store.Unmoved id v (p.finish v stage).1 := by
  induction hn : stage.stepsLeft using Nat.strong_induction_on generalizing v stage stamp with
  | _ n ih =>
      cases hresult : stage.result? with
      | some result =>
          rw [finish_of_result? hresult]
          cases stage with
          | finished result' =>
              cases hresult
              exact ⟨⟨stamp, h⟩, SameOutside.refl _ _, rfl,
                fun _ _ => RecordStore.Unmoved.refl _ _ _⟩
          | _ => cases hresult
      | none =>
          have hadvances := p.advances_step v stage
          obtain ⟨hsources, -, hmemory⟩ := hadvances.sources h.isOutput
          have hcarries := h.step hadvances hstore fun e id output css sources hstage hbuild => by
            subst hstage
            obtain ⟨rfl, -, -⟩ := h
            exact hgood _ rfl id output css sources hbuild
          obtain ⟨hend, hsources', hmemory', hunmoved'⟩ :=
            ih _ (hn ▸ stepsLeft_step p v stage hresult) (exists_of_length_eq hmemory hstore)
              (fun files hfiles => hgood files (filesOfBuild?_step h files hfiles)) hcarries rfl
          rw [hsources.home] at hsources' hunmoved'
          rw [finish_of_step hresult]
          refine ⟨hend, hsources.trans hsources', hmemory'.trans hmemory, fun id hapart => ?_⟩
          refine (hadvances.unmoved h.isOutput fun r hr hwritten => ?_).trans (hunmoved' id hapart)
          exact hapart (hasWritten_finish hwritten) _ (h.file_record r hr)

/-- What a whole publication does. The build is made from the files that `locate` leaves. -/
theorem publish_spec (hstore : p.store.Exists w) (entry : String) :
    SameOutside (noSource w.files.home) w.files (p.publish w entry).1.files ∧
      (p.publish w entry).1.memory.length = w.memory.length ∧
      (∀ id, ((PublishStage.finished (p.publish w entry).2).hasWritten = true →
        ∀ own, p.outputId entry = .ok own → p.store.Apart w.files.home own id) →
        p.store.Unmoved id w (p.publish w entry).1) ∧
      ((PublishStage.finished (p.publish w entry).2).hasWritten = true → ∃ stamp,
        p.IsPublished entry
          (fun b => p.build (p.locate w entry).1.files entry = .ok (b.css, b.sources)) stamp
          (p.publish w entry).1) := by
  have hstart : p.Carries entry
      (fun b => p.build (p.locate w entry).1.files entry = .ok (b.css, b.sources)) none w
      (.started entry) := rfl
  obtain ⟨⟨stamp, hcarries⟩, hsources, hmemory, hunmoved⟩ := finish_spec _ hstore
    (fun files hfiles id output css sources hbuild => by cases hfiles; exact hbuild) hstart
  refine ⟨hsources, hmemory, hunmoved, fun hwritten => ⟨stamp, ?_⟩⟩
  rw [publish] at hwritten ⊢
  generalize (p.finish w (.started entry)).2 = result at hwritten hcarries
  rcases result with e | outcome
  · cases hwritten
  · cases outcome with
    | written path fingerprint => exact hcarries
    | lockHeld path => cases hwritten

end Publisher

end StyleBuild
