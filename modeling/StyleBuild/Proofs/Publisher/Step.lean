import StyleBuild.Proofs.Publisher.Names
import StyleBuild.Publisher.Publish

/-!
# What a step of a publication does

`Advances` lists the outcomes of a step, stage by stage, each with what it
leaves alone: only trying the lock touches the lock file, only the stage
`locked` touches the output, and only the stage `stamped` touches the record.
Every step is one of these (`advances_step`).
-/

namespace StyleBuild

open Files

namespace World

/-- What an attempt at the lock of an output leaves alone: everything but the lock file, and the
lock file if there is one. -/
structure TriesLock (output : Path) (v w : World) : Prop where
  files : Files.SameOutside {(lockPath output).place v.files.home} v.files w.files
  lockFile : ∀ x, v.files.nodeAt? ((lockPath output).place v.files.home) = some (.file x) →
    w.files.nodeAt? ((lockPath output).place v.files.home) = some (.file x)
  now : w.now = v.now
  memory : w.memory = v.memory

theorem TriesLock.refl (output : Path) (w : World) : TriesLock output w w :=
  ⟨Files.SameOutside.refl _ _, fun _ h => h, rfl, rfl⟩

theorem triesLock_openForWriting {w : World} {output : Path} {g : Files} {l : Location}
    (held : List Nat) (h : w.files.openForWriting w.now (lockPath output) = .ok (g, l)) :
    TriesLock output w { w with files := g, held } ∧
      l = (lockPath output).place w.files.home := by
  obtain ⟨hl, hsame, hcase⟩ := openForWriting_ok (isNamed_lockPath output) h
  refine ⟨⟨hsame, fun x hx => ?_, rfl, rfl⟩, hl⟩
  rcases hcase with ⟨rfl, -⟩ | ⟨hnone, -⟩
  · exact hx
  · rw [← hl, hnone] at hx
    cases hx

/-- The lock file of an output is there and locked. -/
def IsLocked (w : World) (output : Path) : Prop :=
  ∃ x, w.files.nodeAt? ((lockPath output).place w.files.home) = some (.file x) ∧ x.id ∈ w.held

/-- A lock is taken when nobody has it, by putting the id of the lock file on the list. -/
theorem tryLock_acquired {w w' : World} {output : Path} {lock : Nat}
    (h : w.tryLock output = (w', .ok (.acquired lock))) :
    TriesLock output w w' ∧ lock ∉ w.held ∧ w'.held = lock :: w.held ∧
      ∃ x, w'.files.nodeAt? ((lockPath output).place w.files.home) = some (.file x) ∧
        x.id = lock := by
  unfold tryLock at h
  split at h
  · cases h
  · next g l hopen =>
    obtain ⟨htries, rfl⟩ := triesLock_openForWriting (w := w) w.held hopen
    simp only at h
    split at h
    · next x hx =>
      split at h
      · cases h
      · next hfree =>
        cases h
        refine ⟨⟨htries.files, htries.lockFile, rfl, rfl⟩, by simpa using hfree, rfl, x, hx, rfl⟩
    · cases h

/-- An attempt fails because of another holder when the lock file is locked, or when a lock file
that was made for it has an id that is on the list. -/
theorem tryLock_heldByOther {w w' : World} {output : Path}
    (h : w.tryLock output = (w', .ok .heldByOther)) :
    w.IsLocked output ∨ w.files.nextId ∈ w.held := by
  unfold tryLock at h
  split at h
  · cases h
  · next g l hopen =>
    obtain ⟨rfl, -, hcase⟩ := openForWriting_ok (isNamed_lockPath output) hopen
    simp only at h
    split at h
    · next x hx =>
      split at h
      · next hheld =>
        have hmem : x.id ∈ w.held := by simpa using hheld
        rcases hcase with ⟨rfl, -⟩ | ⟨-, hnew⟩
        · exact Or.inl ⟨x, hx, hmem⟩
        · rw [hnew] at hx
          cases hx
          exact Or.inr hmem
      · cases h
    · cases h

/-- An attempt that does not take the lock leaves the list of held locks alone. -/
theorem tryLock_not_acquired {w w' : World} {output : Path} {r : Except Error LockAttempt}
    (h : w.tryLock output = (w', r)) (hr : ∀ lock, r ≠ .ok (.acquired lock)) :
    TriesLock output w w' ∧ w'.held = w.held := by
  unfold tryLock at h
  split at h
  · cases h
    exact ⟨TriesLock.refl output w, rfl⟩
  · next g l hopen =>
    obtain ⟨htries, -⟩ := triesLock_openForWriting (w := w) w.held hopen
    simp only at h
    split at h
    · split at h
      · cases h
        exact ⟨htries, rfl⟩
      · cases h
        exact absurd rfl (hr _)
    · cases h
      exact ⟨htries, rfl⟩

end World

namespace Publisher

/-- The outcomes of a step. -/
inductive Advances (p : Publisher) : World → PublishStage → World → PublishStage → Prop
  | unnamed {w w' : World} {entry : String} {e : Error} (quiet : w.SameOutside ∅ w') :
      Advances p w (.started entry) w' (.finished (.error e))
  | named {w w' : World} {entry id : String} {output : Path} (quiet : w.SameOutside ∅ w')
      (hid : p.outputId entry = .ok id) (houtput : p.mounts.writable id = .ok output) :
      Advances p w (.started entry) w' (.located entry id output)
  | rejected {w : World} {entry id : String} {output : Path} {e : Error} :
      Advances p w (.located entry id output) w (.finished (.error e))
  | compiled {w : World} {entry id : String} {output : Path} {css : String} {sources : List Path}
      (hbuild : p.build w.files entry = .ok (css, sources)) :
      Advances p w (.located entry id output) w (.built ⟨id, output, css, sources⟩)
  | unlocked {w w' : World} {b : Build} {e : Error} (tries : w.TriesLock b.output w')
      (hheld : w'.held = w.held) : Advances p w (.built b) w' (.finished (.error e))
  | busy {w w' : World} {b : Build} (tries : w.TriesLock b.output w')
      (hheld : w'.held = w.held)
      (hbusy : w.IsLocked b.output ∨ w.files.nextId ∈ w.held) :
      Advances p w (.built b) w' (.finished (.ok (.lockHeld b.output)))
  | acquired {w w' : World} {b : Build} {lock : Nat} (tries : w.TriesLock b.output w')
      (hfree : lock ∉ w.held) (hheld : w'.held = lock :: w.held)
      (hfile : ∃ x, w'.files.nodeAt? ((lockPath b.output).place w.files.home) = some (.file x) ∧
        x.id = lock) :
      Advances p w (.built b) w' (.locked b lock)
  | unwritten {w w' : World} {b : Build} {lock : Nat} {e : Error} (quiet : w.SameOutside ∅ w') :
      Advances p w (.locked b lock) w' (.releasing (.error e) lock)
  | wrote {w w' : World} {b : Build} {lock : Nat}
      (same : b.output.IsNamed → w.SameOutside {b.output.place w.files.home} w')
      (hread : b.output.IsNamed → w'.files.read b.output = .ok b.css.toUTF8) :
      Advances p w (.locked b lock) w' (.written b lock)
  | stamped {w : World} {b : Build} {lock : Nat} :
      Advances p w (.written b lock) w (.stamped b.output (p.recordOf b w) lock)
  | unrecorded {w w' : World} {output : Path} {r : CompileRecord} {lock : Nat} {e : Error}
      (quiet : w.SameOutside ∅ w') :
      Advances p w (.stamped output r lock) w' (.releasing (.error e) lock)
  | recorded {w w' : World} {output : Path} {r : CompileRecord} {lock : Nat}
      (hput : p.store.put w r = (w', .ok ())) :
      Advances p w (.stamped output r lock) w'
        (.releasing (.ok (.written output r.fingerprint)) lock)
  | released {w : World} {result : Except Error PublishOutcome} {lock : Nat} :
      Advances p w (.releasing result lock) (w.unlock lock) (.finished result)
  | ended {w : World} {result : Except Error PublishOutcome} :
      Advances p w (.finished result) w (.finished result)

variable {p : Publisher}

theorem advances_locate (w : World) (entry : String) :
    p.Advances w (.started entry) (p.locate w entry).1 (p.locate w entry).2 := by
  unfold locate
  split
  · exact .unnamed (World.SameOutside.refl ∅ w)
  · next id hid =>
    split
    · exact .unnamed (World.SameOutside.refl ∅ w)
    · next output houtput =>
      have hquiet := w.createParents_sameOutside output
      split
      · next w' e hw' => rw [hw'] at hquiet; exact .unnamed hquiet
      · next w' hw' => rw [hw'] at hquiet; exact .named hquiet hid houtput

/-- Every step is one of the outcomes. -/
theorem advances_step (w : World) (stage : PublishStage) :
    p.Advances w stage (p.step w stage).1 (p.step w stage).2 := by
  unfold step
  split
  · next entry => exact advances_locate w entry
  · split
    · exact .rejected
    · next css sources hbuild => exact .compiled hbuild
  · split
    · next w' e hlock =>
      obtain ⟨htries, hheld⟩ := World.tryLock_not_acquired hlock (by simp)
      exact .unlocked htries hheld
    · next w' hlock =>
      obtain ⟨htries, hheld⟩ := World.tryLock_not_acquired hlock (by simp)
      exact .busy htries hheld (World.tryLock_heldByOther hlock)
    · next w' lock hlock =>
      obtain ⟨htries, hfree, hheld, hfile⟩ := World.tryLock_acquired hlock
      exact .acquired htries hfree hheld hfile
  · next b lock =>
    split
    · next w' e hwrite => exact .unwritten (World.replaceFile_error hwrite)
    · next w' hwrite =>
      exact .wrote (fun hnamed => (World.replaceFile_ok hnamed hwrite).1)
        fun hnamed => (World.replaceFile_ok hnamed hwrite).2
  · exact .stamped
  · split
    · next w' e hput => exact .unrecorded (RecordStore.put_error hput)
    · next w' hput => exact .recorded hput
  · exact .released
  · exact .ended

end Publisher

end StyleBuild
