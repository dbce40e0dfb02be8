import StyleBuild.Proofs.Publisher.Session
import StyleBuild.Proofs.Publisher.Whole
import StyleBuild.Proofs.Record.Disjoint

/-!
# The course of a publication

`Passes` lists the stages that a publication without interruption comes to, each
with its world. `Course` says what has changed by then: up to the stage `locked`
nothing but new directories and a new lock file (`Prepares`), and from `written`
on the output as well (`Writes`). Every step goes on with the course
(`Course.step`), so it holds at every stage (`Passes.course`).

The lock that is held at a stage is the one that the stage names
(`Passes.held`), and none is left at the end (`held_publish`).
-/

namespace StyleBuild

open Files

namespace Publisher

/-- The stages of a publication that starts in a world `w`, each with the world it has then. -/
inductive Passes (p : Publisher) (w : World) (entry : String) : World → PublishStage → Prop
  | start : Passes p w entry w (.started entry)
  | step {v : World} {stage : PublishStage} (h : Passes p w entry v stage) :
      Passes p w entry (p.step v stage).1 (p.step v stage).2

/-- The publication comes to the point where it puts its record. -/
def ComesToRecord (p : Publisher) (w : World) (entry : String) : Prop :=
  ∃ v output r lock, p.Passes w entry v (.stamped output r lock)

variable {p : Publisher} {entry : String} {u v w : World} {stage : PublishStage}

theorem Passes.finish_eq (h : p.Passes w entry v stage) :
    p.finish v stage = p.publish w entry := by
  induction h with
  | start => rfl
  | @step v stage h ih =>
      rw [← ih]
      cases hresult : stage.result? with
      | none => exact (finish_of_step hresult).symm
      | some result =>
          cases stage with
          | finished result' => rfl
          | _ => cases hresult

theorem Passes.finish (h : p.Passes w entry v stage) :
    p.Passes w entry (p.finish v stage).1 (.finished (p.finish v stage).2) := by
  induction hn : stage.stepsLeft using Nat.strong_induction_on generalizing v stage with
  | _ n ih =>
      cases hresult : stage.result? with
      | none =>
          rw [finish_of_step hresult]
          exact ih _ (hn ▸ stepsLeft_step p v stage hresult) h.step rfl
      | some result =>
          rw [finish_of_result? hresult]
          cases stage with
          | finished result' =>
              cases hresult
              exact h
          | _ => cases hresult

/-- A publication comes to its result. -/
theorem passes_publish (p : Publisher) (w : World) (entry : String) :
    p.Passes w entry (p.publish w entry).1 (.finished (p.publish w entry).2) :=
  Passes.start.finish

/-- The world and the stage after a number of steps. -/
def after (p : Publisher) (n : Nat) (w : World) (entry : String) : World × PublishStage :=
  (fun s => p.step s.1 s.2)^[n] (w, .started entry)

theorem after_succ (p : Publisher) (n : Nat) (w : World) (entry : String) :
    p.after (n + 1) w entry = p.step (p.after n w entry).1 (p.after n w entry).2 :=
  Function.iterate_succ_apply' _ n _

theorem passes_after (p : Publisher) (n : Nat) (w : World) (entry : String) :
    p.Passes w entry (p.after n w entry).1 (p.after n w entry).2 := by
  induction n with
  | zero => exact .start
  | succ n ih =>
      rw [after_succ]
      exact ih.step

theorem Passes.exists_after (h : p.Passes w entry v stage) :
    ∃ n, p.after n w entry = (v, stage) := by
  induction h with
  | start => exact ⟨0, rfl⟩
  | step h ih =>
      obtain ⟨n, hn⟩ := ih
      refine ⟨n + 1, ?_⟩
      rw [after_succ, hn]

/-- A publication that ends without a record did not come to it. -/
theorem not_comesToRecord {n : Nat} (hend : (p.after n w entry).2.result?.isSome = true)
    (h : ∀ k < n, (p.after k w entry).2.record?.isSome = false) : ¬ p.ComesToRecord w entry := by
  rintro ⟨v, output, r, lock, hpasses⟩
  obtain ⟨k, hk⟩ := hpasses.exists_after
  have hrest : ∀ m, (p.after (n + m) w entry).2.result?.isSome = true := by
    intro m
    induction m with
    | zero => exact hend
    | succ m ih =>
        rw [← Nat.add_assoc, after_succ]
        generalize p.after (n + m) w entry = s at ih ⊢
        obtain ⟨u, stage⟩ := s
        cases stage with
        | finished result => rfl
        | _ => cases ih
  rcases Nat.lt_or_ge k n with hlt | hge
  · have hnone := h k hlt
    rw [hk] at hnone
    cases hnone
  · have hsome := hrest (k - n)
    rw [Nat.add_sub_cancel' hge, hk] at hsome
    cases hsome

/-- The place of the lock file of an entry, if the entry has an output. -/
def lockPlaces (p : Publisher) (entry : String) (home : Location) : Set Location :=
  {l | ∃ id output, p.outputId entry = .ok id ∧ p.mounts.writable id = .ok output ∧
    l = (lockPath output).place home}

/-- The locations on the way to the output of an entry, if it has one. -/
def ancestors (p : Publisher) (entry : String) (home : Location) : Set Location :=
  {l | ∃ id output, p.outputId entry = .ok id ∧ p.mounts.writable id = .ok output ∧
    l ∈ output.ancestors home}

theorem lockPlaces_eq {id : String} {output : Path} (hid : p.outputId entry = .ok id)
    (houtput : p.mounts.writable id = .ok output) (home : Location) :
    p.lockPlaces entry home = {(lockPath output).place home} := by
  ext l
  constructor
  · rintro ⟨id', output', hid', houtput', rfl⟩
    obtain rfl := Except.ok.inj (hid.symm.trans hid')
    obtain rfl := Except.ok.inj (houtput.symm.trans houtput')
    rfl
  · rintro rfl
    exact ⟨id, output, hid, houtput, rfl⟩

theorem ancestors_eq {id : String} {output : Path} (hid : p.outputId entry = .ok id)
    (houtput : p.mounts.writable id = .ok output) (home : Location) :
    p.ancestors entry home = output.ancestors home := by
  ext l
  constructor
  · rintro ⟨id', output', hid', houtput', hl⟩
    obtain rfl := Except.ok.inj (hid.symm.trans hid')
    obtain rfl := Except.ok.inj (houtput.symm.trans houtput')
    exact hl
  · exact fun hl => ⟨id, output, hid, houtput, hl⟩

/-- Nothing has changed but that directories on the way to the output were made, and the lock file,
empty, if it was not there. -/
structure Prepares (p : Publisher) (entry : String) (v w : World) : Prop where
  files : SameOutside (p.lockPlaces entry v.files.home) v.files w.files
  kept : ∀ l x, v.files.nodeAt? l = some (.file x) → w.files.nodeAt? l = some (.file x)
  fresh : ∀ l x, w.files.nodeAt? l = some (.file x) →
    v.files.nodeAt? l = some (.file x) ∨ v.files.nodeAt? l = none ∧ x.content = ByteArray.empty
  directories : p.mounts.AreDown →
    NewDirectoriesIn (p.ancestors entry v.files.home) v.files w.files
  memory : w.memory = v.memory

namespace Prepares

theorem trans (huv : p.Prepares entry u v) (hvw : p.Prepares entry v w) :
    p.Prepares entry u w := by
  obtain ⟨hfiles, hkept, hfresh, hdirectories, hmemory⟩ := hvw
  rw [huv.files.home] at hfiles hdirectories
  refine ⟨huv.files.trans hfiles, fun l x hx => hkept l x (huv.kept l x hx), fun l x hx => ?_,
    fun hdown => (huv.directories hdown).trans (hdirectories hdown),
    hmemory.trans huv.memory⟩
  rcases hfresh l x hx with hx | ⟨hnone, hempty⟩
  · exact huv.fresh l x hx
  · -- what is not there before the second change was not there before the first one
    refine Or.inr ⟨?_, hempty⟩
    cases hnode : u.files.nodeAt? l with
    | none => rfl
    | some node =>
        cases node with
        | file y =>
            rw [huv.kept l y hnode] at hnone
            cases hnone
        | directory mode modified =>
            exact absurd (huv.files.directories l ⟨mode, modified, hnode⟩)
              (not_isDirectoryAt_of_none hnone)

theorem of_quiet (h : v.SameOutside ∅ w)
    (hnew : p.mounts.AreDown → NewDirectoriesIn (p.ancestors entry v.files.home) v.files w.files) :
    p.Prepares entry v w :=
  ⟨h.files.of_empty _, fun l x hx => (h.files.files l (Set.notMem_empty l) x).2 hx,
    fun l x hx => Or.inl ((h.files.files l (Set.notMem_empty l) x).1 hx), hnew, h.memory⟩

theorem refl (p : Publisher) (entry : String) (w : World) : p.Prepares entry w w :=
  of_quiet (World.SameOutside.refl ∅ w) fun _ => NewDirectoriesIn.refl _ _

/-- The locks that are held are no files. -/
theorem of_held (h : p.Prepares entry v w) (held : List Nat) :
    p.Prepares entry v { w with held } :=
  ⟨h.files, h.kept, h.fresh, h.directories, h.memory⟩

end Prepares

theorem prepares_locate (p : Publisher) (entry : String) (w : World) :
    p.Prepares entry w (p.locate w entry).1 := by
  have hquiet : w.SameOutside ∅ (p.locate w entry).1 := sameOutside_locate w entry
  refine Prepares.of_quiet hquiet fun hdown => ?_
  unfold locate
  split
  · exact NewDirectoriesIn.refl _ _
  · next id hid =>
    split
    · exact NewDirectoriesIn.refl _ _
    · next output houtput =>
      have hnew := w.createParents_newDirectoriesIn (isOutput hid houtput).isNamed
        (Mounts.isDown_of_writable hdown houtput)
      rw [ancestors_eq hid houtput]
      split
      · next w' e hw' => rw [hw'] at hnew; exact hnew
      · next w' hw' => rw [hw'] at hnew; exact hnew

/-- Trying the lock makes the lock file, if anything. -/
theorem prepares_tryLock {b : Build} (h : p.Placed entry b) (w : World) :
    p.Prepares entry w (w.tryLock b.output).1 := by
  have hopen : ∀ g l held, w.files.openForWriting w.now (lockPath b.output) = .ok (g, l) →
      p.Prepares entry w { w with files := g, held } := by
    intro g l held hopen
    obtain ⟨rfl, hsame, hcase⟩ := openForWriting_ok (isNamed_lockPath b.output) hopen
    refine ⟨?_, fun l x hx => ?_, fun l x hx => ?_, fun _ => ?_, rfl⟩
    · rw [lockPlaces_eq h.id h.output]
      exact hsame
    · by_cases hl : l = (lockPath b.output).place w.files.home
      · subst hl
        rcases hcase with ⟨rfl, -⟩ | ⟨hnone, -⟩
        · exact hx
        · rw [hnone] at hx
          cases hx
      · exact (hsame.files l hl x).2 hx
    · by_cases hl : l = (lockPath b.output).place w.files.home
      · subst hl
        rcases hcase with ⟨rfl, -⟩ | ⟨hnone, hnew⟩
        · exact Or.inl hx
        · rw [hnew] at hx
          cases hx
          exact Or.inr ⟨hnone, rfl⟩
      · exact Or.inl ((hsame.files l hl x).1 hx)
    · exact (newDirectoriesIn_openForWriting hopen).of_empty _
  unfold World.tryLock
  split
  · exact Prepares.refl p entry w
  · next g l hg =>
    simp only
    split
    · split
      · exact hopen g l w.held hg
      · exact hopen g l _ hg
    · exact hopen g l w.held hg

/-- The output of a build was written, after what comes before that. -/
structure Writes (p : Publisher) (entry : String) (b : Build) (v w : World) : Prop where
  files : SameOutside (p.lockPlaces entry v.files.home ∪ {b.output.place v.files.home}) v.files
    w.files
  read : w.files.read b.output = .ok b.css.toUTF8
  directories : p.mounts.AreDown →
    NewDirectoriesIn (p.ancestors entry v.files.home) v.files w.files
  memory : w.memory = v.memory

theorem Prepares.writes {b : Build} (h : p.Prepares entry u v)
    (hsame : v.SameOutside {b.output.place v.files.home} w)
    (hnew : NewDirectoriesIn ∅ v.files w.files)
    (hread : w.files.read b.output = .ok b.css.toUTF8) : p.Writes entry b u w := by
  have hfiles := hsame.files
  rw [h.files.home] at hfiles
  exact ⟨h.files.trans_union hfiles, hread, fun hdown => (h.directories hdown).trans
    (hnew.of_empty _), hsame.memory.trans h.memory⟩

/-- No file but the output and its lock file is another one. -/
theorem Writes.sameOutside {b : Build} (hplaced : p.Placed entry b) (h : p.Writes entry b v w) :
    SameOutside {b.output.place v.files.home, (lockPath b.output).place v.files.home} v.files
      w.files := by
  have hfiles := h.files
  rwa [lockPlaces_eq hplaced.id hplaced.output, Set.union_singleton] at hfiles

/-- The build of the entry, from the files that are there once the output's directory is made. -/
structure Makes (p : Publisher) (w : World) (entry : String) (b : Build) : Prop where
  placed : p.Placed entry b
  build : p.build (p.locate w entry).1.files entry = .ok (b.css, b.sources)

/-- What a publication that started in a world `w` has done at a stage. -/
def Course (p : Publisher) (w : World) (entry : String) (v : World) : PublishStage → Prop
  | .started e => e = entry ∧ v = w
  | .located e id output => e = entry ∧ p.outputId entry = .ok id ∧
      p.mounts.writable id = .ok output ∧ v = (p.locate w entry).1
  | .built b => p.Makes w entry b ∧ p.Prepares entry w v
  | .locked b _ => p.Makes w entry b ∧ p.Prepares entry w v
  | .written b _ => p.Makes w entry b ∧ p.Writes entry b w v
  | .stamped output r _ => ∃ b u, p.Makes w entry b ∧ output = b.output ∧ r = p.recordOf b u ∧
      p.Writes entry b w v
  | .releasing result _ => p.ComesToRecord w entry ∨
      p.Prepares entry w v ∧ ∀ path fingerprint, result ≠ .ok (.written path fingerprint)
  | .finished result => p.ComesToRecord w entry ∨
      p.Prepares entry w v ∧ ∀ path fingerprint, result ≠ .ok (.written path fingerprint)

theorem step_built_fst (p : Publisher) (v : World) (b : Build) :
    (p.step v (.built b)).1 = (v.tryLock b.output).1 := by
  unfold Publisher.step
  rcases hlock : v.tryLock b.output with ⟨v', e | attempt⟩
  · simp only [hlock]
  · cases attempt <;> simp only [hlock]

theorem step_locked_fst (p : Publisher) (v : World) (b : Build) (lock : Nat) :
    (p.step v (.locked b lock)).1 = (v.replaceFile b.output b.css.toUTF8).1 := by
  unfold Publisher.step
  rcases hreplace : v.replaceFile b.output b.css.toUTF8 with ⟨v', e | ok⟩ <;>
    simp only [hreplace]

/-- Every step goes on with the course. -/
theorem Course.step (hpasses : p.Passes w entry v stage) (h : p.Course w entry v stage) :
    p.Course w entry (p.step v stage).1 (p.step v stage).2 := by
  have hadvances := p.advances_step v stage
  generalize hv' : (p.step v stage).1 = v' at hadvances ⊢
  generalize (p.step v stage).2 = stage' at hadvances ⊢
  cases hadvances with
  | unnamed quiet =>
      obtain ⟨rfl, rfl⟩ := h
      exact Or.inr ⟨hv' ▸ p.prepares_locate _ v, fun _ _ h => by cases h⟩
  | named quiet hid houtput =>
      obtain ⟨rfl, rfl⟩ := h
      exact ⟨rfl, hid, houtput, hv'.symm⟩
  | rejected =>
      obtain ⟨-, -, -, rfl⟩ := h
      exact Or.inr ⟨p.prepares_locate entry w, fun _ _ h => by cases h⟩
  | compiled hbuild =>
      obtain ⟨rfl, hid, houtput, rfl⟩ := h
      exact ⟨⟨⟨hid, houtput⟩, hbuild⟩, p.prepares_locate _ w⟩
  | unlocked =>
      rw [step_built_fst] at hv'
      exact Or.inr ⟨hv' ▸ h.2.trans (prepares_tryLock h.1.placed v), fun _ _ h => by cases h⟩
  | busy =>
      rw [step_built_fst] at hv'
      exact Or.inr ⟨hv' ▸ h.2.trans (prepares_tryLock h.1.placed v), fun _ _ h => by cases h⟩
  | acquired =>
      rw [step_built_fst] at hv'
      exact ⟨h.1, hv' ▸ h.2.trans (prepares_tryLock h.1.placed v)⟩
  | @unwritten _ b lock e quiet =>
      have hnew := v.replaceFile_newDirectoriesIn b.output b.css.toUTF8
      rw [← p.step_locked_fst v b lock, hv'] at hnew
      exact Or.inr ⟨h.2.trans (Prepares.of_quiet quiet fun _ => hnew.of_empty _),
        fun _ _ h => by cases h⟩
  | @wrote _ b lock same hread =>
      have hnew := v.replaceFile_newDirectoriesIn b.output b.css.toUTF8
      rw [← p.step_locked_fst v b lock, hv'] at hnew
      have hnamed := h.1.placed.isOutput.isNamed
      exact ⟨h.1, h.2.writes (same hnamed) hnew (hread hnamed)⟩
  | stamped => exact ⟨_, v, h.1, rfl, rfl, h.2⟩
  | unrecorded => exact Or.inl ⟨v, _, _, _, hpasses⟩
  | recorded => exact Or.inl ⟨v, _, _, _, hpasses⟩
  | released => exact h.imp_right fun h => ⟨h.1.of_held _, h.2⟩
  | ended => exact h

theorem Passes.course (h : p.Passes w entry v stage) : p.Course w entry v stage := by
  induction h with
  | start => exact ⟨rfl, rfl⟩
  | step h ih => exact ih.step h

/-- The locks that are held at a stage are those from before and the one that the stage has. -/
theorem Passes.held (h : p.Passes w entry v stage) : v.held = stage.lock?.toList ++ w.held := by
  induction h with
  | start => rfl
  | @step v stage h ih =>
      have hcourse := h.course
      have hadvances := p.advances_step v stage
      generalize (p.step v stage).1 = v' at hadvances ⊢
      generalize (p.step v stage).2 = stage' at hadvances ⊢
      cases hadvances with
      | unnamed quiet => exact quiet.held.trans ih
      | named quiet => exact quiet.held.trans ih
      | rejected => exact ih
      | compiled => exact ih
      | unlocked tries hheld => exact hheld.trans ih
      | busy tries hheld => exact hheld.trans ih
      | acquired tries hfree hheld => rw [hheld, ih]; rfl
      | unwritten quiet => exact quiet.held.trans ih
      | wrote same => exact (same hcourse.1.placed.isOutput.isNamed).held.trans ih
      | stamped => exact ih
      | unrecorded quiet => exact quiet.held.trans ih
      | recorded hput => exact (RecordStore.put_ok hput).2.2.1.trans ih
      | released =>
          have hheld : v.held = _ :: w.held := ih
          rw [World.unlock, hheld, List.erase_cons_head]
          rfl
      | ended => exact ih

/-- At the end no lock is held that was not held before. -/
theorem held_publish (p : Publisher) (w : World) (entry : String) :
    (p.publish w entry).1.held = w.held := (p.passes_publish w entry).held

theorem finish_releasing (p : Publisher) (v : World) (result : Except Error PublishOutcome)
    (lock : Nat) : p.finish v (.releasing result lock) = (v.unlock lock, result) := by
  rw [finish_of_step rfl]
  exact finish_of_result? rfl

theorem step_stamped (p : Publisher) (v : World) (output : Path) (r : CompileRecord) (lock : Nat) :
    p.step v (.stamped output r lock) =
      match p.store.put v r with
      | (v, .error e) => (v, .releasing (.error e) lock)
      | (v, .ok ()) => (v, .releasing (.ok (.written output r.fingerprint)) lock) := rfl

/-- What becomes of a publication that comes to the point where it puts its record. -/
theorem Passes.publish_eq {output : Path} {r : CompileRecord} {lock : Nat}
    (h : p.Passes w entry v (.stamped output r lock)) : p.publish w entry =
      match p.store.put v r with
      | (v, .error e) => (v.unlock lock, .error e)
      | (v, .ok ()) => (v.unlock lock, .ok (.written output r.fingerprint)) := by
  rw [← h.finish_eq, finish_of_step rfl, step_stamped]
  rcases p.store.put v r with ⟨v', e | ok⟩
  · exact finish_releasing p v' (.error e) lock
  · exact finish_releasing p v' (.ok (.written output r.fingerprint)) lock

end Publisher

end StyleBuild
