import StyleBuild.Proofs.Files.Numbered
import StyleBuild.Proofs.Publisher.Kept

/-!
# From the lock to the output

A call that took the lock goes on to write, and says in the end what it wrote,
unless it fails (`Advances.isCommitted` and `Advances.wrote_mono`). No other
step changes an output (`Advances.read`). The lock that is taken is the id of a
file, so the ids in use stay below the counter (`Advances.numbered`).
-/

namespace StyleBuild

open Files

namespace PublishStage

/-- The call has failed, and has ended or is about to. -/
def isError : PublishStage → Bool
  | releasing (.error _) _ => true
  | finished (.error _) => true
  | _ => false

/-- The call has taken the lock and goes on to write, or has written. -/
def isCommitted : PublishStage → Bool
  | locked .. => true
  | written .. => true
  | stamped .. => true
  | releasing (.ok (.written ..)) _ => true
  | finished (.ok (.written ..)) => true
  | _ => false

/-- The call has written this build. -/
def Wrote (b : Build) : PublishStage → Prop
  | written b' _ => b' = b
  | stamped output r _ => output = b.output ∧ r.fingerprint = b.fingerprint
  | releasing result _ => result = .ok (.written b.output b.fingerprint)
  | finished result => result = .ok (.written b.output b.fingerprint)
  | _ => False

theorem exists_outcome {stage : PublishStage} (hend : stage.result?.isSome = true)
    (hok : stage.isError = false) : ∃ outcome, stage = .finished (.ok outcome) := by
  cases stage with
  | finished result =>
      cases result with
      | error e => cases hok
      | ok outcome => exact ⟨outcome, rfl⟩
  | _ => cases hend

end PublishStage

/-- A lock that is held is the lock of a file that is there. -/
theorem World.Numbered.isLocked {w : World} {output : Path} (h : w.Numbered)
    (hbusy : w.IsLocked output ∨ w.files.nextId ∈ w.held) : w.IsLocked output :=
  hbusy.resolve_right fun hnew => (h.held _ hnew).false

theorem RecordStore.put_numbersOn (store : RecordStore) (w : World) (r : CompileRecord) :
    w.files.NumbersOn (store.put w r).1.files := by
  cases store with
  | memory i => exact NumbersOn.refl _
  | files dir =>
      unfold put
      simp only
      split
      · exact NumbersOn.refl _
      · next path _ =>
        have hparents := w.createParents_numbersOn path
        split
        · next v e hv => rw [hv] at hparents; exact hparents
        · next v hv =>
          rw [hv] at hparents
          exact hparents.trans (v.replaceFile_numbersOn _ _)

namespace Publisher

variable {p : Publisher} {v w : World} {stage stage' : PublishStage} {output : Path}

theorem step_numbersOn (p : Publisher) (w : World) (stage : PublishStage) :
    w.files.NumbersOn (p.step w stage).1.files := by
  unfold step
  split
  · unfold locate
    split
    · exact NumbersOn.refl _
    · split
      · exact NumbersOn.refl _
      · next output _ =>
        have h := w.createParents_numbersOn output
        split <;> next hg => rw [hg] at h; exact h
  · split <;> exact NumbersOn.refl _
  · next b =>
    have h := w.tryLock_numbersOn b.output
    split <;> next hg => rw [hg] at h; exact h
  · next b lock =>
    have h := w.replaceFile_numbersOn b.output b.css.toUTF8
    split <;> next hg => rw [hg] at h; exact h
  · exact NumbersOn.refl _
  · next output r lock =>
    have h := p.store.put_numbersOn w r
    split <;> next hg => rw [hg] at h; exact h
  · exact NumbersOn.refl _
  · exact NumbersOn.refl _

namespace Advances

/-- The lock that a step takes is the id of a file, and other steps take none. -/
theorem numbered (h : p.Advances v stage w stage') (hfiles : v.files.NumbersOn w.files)
    (hout : ∀ b ∈ stage.build?, IsOutput b.output) (hv : v.Numbered) : w.Numbered := by
  have hsame : w.held = v.held → w.Numbered := fun hheld =>
    hv.of_sublist hfiles (hheld ▸ List.Sublist.refl _)
  cases h with
  | unnamed quiet | named quiet | unwritten quiet | unrecorded quiet => exact hsame quiet.held
  | unlocked tries hheld | busy tries hheld => exact hsame hheld
  | acquired tries hfree hheld hfile =>
      obtain ⟨x, hx, rfl⟩ := hfile
      exact hv.of_cons hfiles hheld hfree hx
  | @wrote _ b lock same => exact hsame (same (hout b rfl).isNamed).held
  | recorded hput => exact hsame (RecordStore.put_ok hput).2.2.1
  | released => exact hv.of_sublist hfiles List.erase_sublist
  | rejected | compiled | stamped | ended => exact hv

/-- A call that has failed ends with its error. -/
theorem isError (h : p.Advances v stage w stage') (herror : stage.isError = true) :
    stage'.isError = true := by
  cases h with
  | @released result =>
      cases result with
      | error e => rfl
      | ok outcome => cases herror
  | ended => exact herror
  | _ => cases herror

/-- A call that has taken the lock does not give up any more. -/
theorem isCommitted (h : p.Advances v stage w stage') (hok : stage'.isError = false)
    (hstage : stage.isCommitted = true) : stage'.isCommitted = true := by
  cases h with
  | wrote | stamped | recorded => rfl
  | @released result =>
      rcases result with e | _ | _
      · cases hok
      · rfl
      · cases hstage
  | ended => exact hstage
  | unwritten | unrecorded => cases hok
  | _ => cases hstage

/-- A call that has written a build says so in the end. -/
theorem wrote_mono (h : p.Advances v stage w stage') (hok : stage'.isError = false) {b : Build}
    (hb : stage.Wrote b) : stage'.Wrote b := by
  cases h with
  | stamped =>
      cases hb
      exact ⟨rfl, rfl⟩
  | recorded =>
      obtain ⟨rfl, hfingerprint⟩ := hb
      rw [PublishStage.Wrote, hfingerprint]
  | released | ended => exact hb
  | unrecorded => cases hok
  | _ => exact hb.elim

theorem wrote_of (h : p.Advances v stage w stage') {b : Build} (hb : stage'.Wrote b) :
    (∃ b', stage.Wrote b') ∨ ∃ lock, stage = .locked b lock := by
  cases h with
  | wrote =>
      cases hb
      exact Or.inr ⟨_, rfl⟩
  | stamped => exact Or.inl ⟨_, rfl⟩
  | recorded => exact Or.inl ⟨b, by simpa [PublishStage.Wrote] using hb⟩
  | released | ended => exact Or.inl ⟨b, hb⟩
  | _ => cases hb

/-- Only a call that has the lock changes an output. -/
theorem read (h : p.Advances v stage w stage') (hout : IsOutput output)
    (hstage : ∀ b lock, stage ≠ .locked b lock) {content : ByteArray}
    (hread : v.files.read output = .ok content) : w.files.read output = .ok content := by
  have htries : ∀ {locked : Path}, v.TriesLock locked w → w.files.read output = .ok content :=
    fun tries => tries.files.read hout.isNamed (fun hmem => hout.lock_ne_output _ hmem.symm) hread
  have hquiet : v.SameOutside ∅ w → w.files.read output = .ok content := fun quiet =>
    quiet.files.read hout.isNamed (Set.notMem_empty _) hread
  cases h with
  | unnamed quiet | named quiet | unwritten quiet | unrecorded quiet => exact hquiet quiet
  | unlocked tries | busy tries | acquired tries => exact htries tries
  | wrote => exact absurd rfl (hstage _ _)
  | recorded hput =>
      exact (RecordStore.put_ok hput).1.read hout.isNamed (output_notMem_places hout _) hread
  | _ => exact hread

end Advances

end Publisher

end StyleBuild
