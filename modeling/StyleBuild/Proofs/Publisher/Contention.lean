import StyleBuild.Proofs.Publisher.Commitment
import StyleBuild.Proofs.Publisher.SingleWriter
import StyleBuild.Proofs.Record.Apart

/-!
# Calls that meet at one output

The calls of a session put their outputs at one path; their ids, stores and
entries are their own. While they run, anything else may change, as long as
nobody else touches the output or its lock file, or takes the lock.

A call that finds the lock held gives up for good. But the lock can only be held
by a call of the session (`Guarded`), and a call that took it writes, unless it
fails (`Advances.isCommitted`). So not all of them give up, and the output is
the build of a call that wrote (`Contest.latest`).
-/

namespace StyleBuild

open Files

/-- The call publishes at this path. -/
def Call.Targets (c : Call) (output : Path) : Prop :=
  ∃ id, c.publisher.outputId c.entry = .ok id ∧ c.publisher.mounts.writable id = .ok output

theorem Call.Targets.isOutput {c : Call} {output : Path} (h : c.Targets output) :
    IsOutput output := by
  obtain ⟨id, hid, hwritable⟩ := h
  exact Publisher.isOutput hid hwritable

namespace Session

variable {ι : Type}

/-- A change that no call made: the output and its lock file are as they were, and nobody has taken
the lock. -/
structure Elsewhere (output : Path) (v w : World) : Prop where
  files : SameOutside {output.place v.files.home, (lockPath output).place v.files.home}ᶜ
    v.files w.files
  locked : w.IsLocked output → v.IsLocked output
  numbered : w.Numbered

/-- Nothing but the lock file has changed, so the output and every record are as they were. -/
structure Spares (output : Path) (v w : World) : Prop where
  same : v.SameOutside {(lockPath output).place v.files.home} w
  output : ∀ content, v.files.read output = .ok content → w.files.read output = .ok content
  record : ∀ (store : RecordStore) (id : String), store.Unmoved id v w

/-- A call has failed. -/
def Failing (s : Session ι) : Prop := ∃ i, (s.stages i).isError = true

theorem isError_eq_false {s : Session ι} (h : ¬ s.Failing) (i : ι) :
    (s.stages i).isError = false :=
  Bool.eq_false_iff.2 fun herror => h ⟨i, herror⟩

/-- The lock of the output is held by calls of the session only. -/
structure Guarded (output : Path) (s : Session ι) : Prop where
  lock : ∀ i lock, (s.stages i).lock? = some lock →
    ∃ x, s.world.files.nodeAt? ((lockPath output).place s.world.files.home) = some (.file x) ∧
      x.id = lock
  holder : s.world.IsLocked output → ∃ i, s.Holds i

variable [DecidableEq ι]

/-- The session after a step of a call. -/
def stepped (calls : ι → Call) (s : Session ι) (i : ι) : Session ι :=
  s.moved i ((calls i).publisher.step s.world (s.stages i)).1
    ((calls i).publisher.step s.world (s.stages i)).2

/-- What can happen next when only the calls touch the output and its lock. -/
inductive Contends (calls : ι → Call) (output : Path) : Session ι → Session ι → Prop
  | call (s : Session ι) (i : ι) : Contends calls output s (s.stepped calls i)
  | others (s : Session ι) (w : World) (elsewhere : Elsewhere output s.world w) :
      Contends calls output s { s with world := w }

/-- The call tried the lock, and found it held, in a session in which another call had it. -/
def Refused (calls : ι → Call) (output : Path) (w : World) (s : Session ι) (i : ι) : Prop :=
  ∃ t b j, Relation.ReflTransGen (Contends calls output) (start w calls) t ∧
    t.stages i = .built b ∧ j ≠ i ∧ t.Holds j ∧
    (t.stepped calls i).stages i = .finished (.ok (.lockHeld output)) ∧
    Relation.ReflTransGen (Contends calls output) (t.stepped calls i) s

/-- What is known of a call at a stage. -/
def Standing (calls : ι → Call) (output : Path) (w : World) (s : Session ι) (i : ι) :
    PublishStage → Prop
  | .started entry => entry = (calls i).entry
  | .located _ _ output' => output' = output
  | .built b => b.output = output ∧ Built calls s i b
  | .locked b _ => b.output = output ∧ Built calls s i b
  | .releasing (.ok (.lockHeld _)) _ => False
  | .finished (.ok (.lockHeld output')) => output' = output ∧ Refused calls output w s i
  | .releasing (.error _) _ => True
  | .finished (.error _) => True
  | stage => ∃ b, b.output = output ∧ Built calls s i b ∧ stage.Wrote b

/-- What holds of every session that can come about from a world while no call fails. -/
structure Contest (calls : ι → Call) (output : Path) (w : World) (s : Session ι) : Prop where
  reached : Relation.ReflTransGen (Contends calls output) (start w calls) s
  numbered : s.world.Numbered
  guarded : Guarded output s
  standing : ∀ i, Standing calls output w s i (s.stages i)
  spares : ∀ i, (s.stages i).isCommitted = false → ∀ e ∈ s.past, e.caller = i →
    Spares output e.world ((calls i).publisher.step e.world e.stage).1
  /-- When a call has written, the output is what some call wrote. -/
  latest : ∀ i b, (s.stages i).Wrote b → ∃ j b', b'.output = output ∧ Built calls s j b' ∧
    (s.stages j).Wrote b' ∧ s.world.files.read output = .ok b'.css.toUTF8

section Facts

variable {calls : ι → Call} {output : Path} {w₀ w w' : World} {s t : Session ι} {i j : ι}
variable {stage : PublishStage}

theorem Standing.mono (hpast : s.past ⊆ t.past)
    (hreach : Relation.ReflTransGen (Contends calls output) s t)
    (h : Standing calls output w₀ s i stage) : Standing calls output w₀ t i stage := by
  have hwrote : (∃ b, b.output = output ∧ Built calls s i b ∧ stage.Wrote b) →
      ∃ b, b.output = output ∧ Built calls t i b ∧ stage.Wrote b := by
    rintro ⟨b, houtput, hbuilt, hb⟩
    exact ⟨b, houtput, hbuilt.mono hpast, hb⟩
  cases stage with
  | started | located => exact h
  | built | locked => exact ⟨h.1, h.2.mono hpast⟩
  | written | stamped => exact hwrote h
  | releasing result lock =>
      rcases result with e | _ | _
      · trivial
      · exact hwrote h
      · exact h
  | finished result =>
      rcases result with e | _ | _
      · trivial
      · exact hwrote h
      · obtain ⟨houtput, u, b, j, hu, hb, hij, hj, hheld, hrest⟩ := h
        exact ⟨houtput, u, b, j, hu, hb, hij, hj, hheld, hrest.trans hreach⟩

/-- A call that has the lock goes on to write. -/
theorem Standing.isCommitted (h : Standing calls output w₀ s i stage)
    (hok : stage.isError = false) (hlock : stage.lock?.isSome = true) :
    stage.isCommitted = true := by
  cases stage with
  | locked | written | stamped => rfl
  | releasing result lock =>
      rcases result with e | _ | _
      · cases hok
      · rfl
      · exact h.elim
  | _ => cases hlock

/-- A call puts its build at the path of the session. -/
theorem Standing.isOutput (hout : IsOutput output) (h : Standing calls output w₀ s i stage) :
    ∀ b ∈ stage.build?, IsOutput b.output := by
  intro b hb
  cases stage with
  | built | locked =>
      cases hb
      rw [h.1]
      exact hout
  | _ => cases hb

theorem spares_of_sameOutside (hout : IsOutput output)
    (h : w.SameOutside {(lockPath output).place w.files.home} w') : Spares output w w' := by
  refine ⟨h, fun content hread => ?_, fun store id => ?_⟩
  · exact h.files.read hout.isNamed (fun hmem => hout.lock_ne_output _ hmem.symm) hread
  · refine RecordStore.unmoved_of_sameOutside h.files h.memory fun l hl hmem => ?_
    rw [Set.mem_singleton_iff.1 hmem] at hl
    exact lock_notMem_places _ hl

/-- A step by which a call does not commit itself touches the lock file at most. -/
theorem spares_of_advances {p : Publisher} {stage' : PublishStage} (hout : IsOutput output)
    (h : p.Advances w stage w' stage') (hstage : Standing calls output w₀ s i stage)
    (hok : stage'.isError = false) (hfree : stage'.isCommitted = false) :
    stage.isCommitted = false ∧ Spares output w w' := by
  have hquiet : w.SameOutside ∅ w' → Spares output w w' := fun quiet =>
    spares_of_sameOutside hout (quiet.of_empty _)
  cases h with
  | named quiet => exact ⟨rfl, hquiet quiet⟩
  | compiled => exact ⟨rfl, hquiet (World.SameOutside.refl ∅ w)⟩
  | busy tries hheld =>
      obtain ⟨rfl, -⟩ := hstage
      exact ⟨rfl, spares_of_sameOutside hout ⟨tries.files, tries.now, hheld, tries.memory⟩⟩
  | @released result =>
      rcases result with e | _ | _
      · cases hok
      · cases hfree
      · exact hstage.elim
  | ended => exact ⟨hfree, hquiet (World.SameOutside.refl ∅ w)⟩
  | unnamed | rejected | unlocked | unwritten | unrecorded => cases hok
  | _ => cases hfree

/-- The lock file is locked only if it was locked before. -/
theorem isLocked_of_sameOutside {p : Set Location} (hfiles : SameOutside p w.files w'.files)
    (hheld : w'.held = w.held) (hlock : (lockPath output).place w.files.home ∉ p)
    (h : w'.IsLocked output) : w.IsLocked output := by
  obtain ⟨x, hx, hmem⟩ := h
  rw [hfiles.home] at hx
  exact ⟨x, (hfiles.files _ hlock x).1 hx, hheld ▸ hmem⟩

theorem Guarded.of_same_lock (h : Guarded output s) (hlock : stage.lock? = (s.stages i).lock?)
    (hfile : ∀ x, s.world.files.nodeAt? ((lockPath output).place s.world.files.home) =
      some (.file x) → w.files.nodeAt? ((lockPath output).place w.files.home) = some (.file x))
    (hlocked : w.IsLocked output → s.world.IsLocked output) :
    Guarded output (s.moved i w stage) := by
  refine ⟨fun j lock hj => ?_, fun hthis => ?_⟩
  · rw [lock?_moved hlock] at hj
    obtain ⟨x, hx, hid⟩ := h.lock j lock hj
    exact ⟨x, hfile x hx, hid⟩
  · obtain ⟨j, hj⟩ := h.holder (hlocked hthis)
    refine ⟨j, ?_⟩
    rw [Holds, lock?_moved hlock]
    exact hj

/-- A step that leaves the lock file and the locks alone. -/
theorem Guarded.of_sameOutside {p : Set Location} (h : Guarded output s)
    (hlock : stage.lock? = (s.stages i).lock?) (hfiles : SameOutside p s.world.files w.files)
    (hheld : w.held = s.world.held) (hp : (lockPath output).place s.world.files.home ∉ p) :
    Guarded output (s.moved i w stage) := by
  refine h.of_same_lock hlock (fun x hx => ?_) (isLocked_of_sameOutside hfiles hheld hp)
  rw [hfiles.home]
  exact (hfiles.files _ hp x).2 hx

/-- The call that takes the lock is its holder then. -/
theorem Guarded.of_acquired (h : Guarded output s) {lock : Nat} (hstage : stage.lock? = some lock)
    (tries : s.world.TriesLock output w)
    (hfile : ∃ x, w.files.nodeAt? ((lockPath output).place s.world.files.home) = some (.file x) ∧
      x.id = lock) : Guarded output (s.moved i w stage) := by
  rw [← tries.files.home] at hfile
  refine ⟨fun j lock' hj => ?_, fun _ => ⟨i, ?_⟩⟩
  · by_cases hji : j = i
    · rw [hji, stages_moved_self, hstage] at hj
      cases hj
      exact hfile
    · rw [stages_moved_of_ne s w stage hji] at hj
      obtain ⟨x, hx, hid⟩ := h.lock j lock' hj
      refine ⟨x, ?_, hid⟩
      show w.files.nodeAt? ((lockPath output).place w.files.home) = some (.file x)
      rw [tries.files.home]
      exact tries.lockFile x hx
  · rw [Holds, stages_moved_self, hstage]
    rfl

/-- Nobody has the lock when it was given back. -/
theorem Guarded.of_released (h : Guarded output s) (hnodup : s.world.held.Nodup) {lock : Nat}
    (hi : (s.stages i).lock? = some lock) (hstage : stage.lock? = none) :
    Guarded output (s.moved i (s.world.unlock lock) stage) := by
  refine ⟨fun j lock' hj => ?_, fun hthis => ?_⟩
  · by_cases hji : j = i
    · rw [hji, stages_moved_self, hstage] at hj
      cases hj
    · rw [stages_moved_of_ne s _ stage hji] at hj
      exact h.lock j lock' hj
  · obtain ⟨x, hx, hmem⟩ := hthis
    obtain ⟨y, hy, hid⟩ := h.lock i lock hi
    obtain rfl : x = y := by
      have hsame := hx.symm.trans hy
      cases hsame
      rfl
    rw [hid] at hmem
    exact absurd hmem hnodup.not_mem_erase

/-- A step of a call leaves the lock to the calls of the session. -/
theorem Guarded.of_advances {p : Publisher} (hout : IsOutput output) (h : Guarded output s)
    (hnumbered : s.world.Numbered) (hadvances : p.Advances s.world (s.stages i) w stage)
    (hstage : Standing calls output w₀ s i (s.stages i)) (hok : stage.isError = false) :
    Guarded output (s.moved i w stage) := by
  have hquiet : s.world.SameOutside ∅ w → stage.lock? = (s.stages i).lock? →
      Guarded output (s.moved i w stage) := fun quiet hlock =>
    h.of_sameOutside hlock quiet.files quiet.held (Set.notMem_empty _)
  generalize hold : s.stages i = old at hadvances hstage hquiet
  cases hadvances with
  | named quiet => exact hquiet quiet rfl
  | compiled | stamped | ended => exact hquiet (World.SameOutside.refl ∅ _) rfl
  | busy tries hheld hbusy =>
      obtain ⟨rfl, -⟩ := hstage
      refine h.of_same_lock (by rw [hold]; rfl) (fun x hx => ?_) fun _ => ?_
      · rw [tries.files.home]
        exact tries.lockFile x hx
      · exact hnumbered.isLocked hbusy
  | acquired tries _ _ hfile =>
      obtain ⟨rfl, -⟩ := hstage
      exact h.of_acquired rfl tries hfile
  | wrote same =>
      obtain ⟨rfl, -⟩ := hstage
      have hsame := same hout.isNamed
      exact h.of_sameOutside (by rw [hold]; rfl) hsame.files hsame.held (hout.lock_ne_output _)
  | recorded hput =>
      obtain ⟨hsame, -, hheld, -⟩ := RecordStore.put_ok hput
      exact h.of_sameOutside (by rw [hold]; rfl) hsame hheld (lock_notMem_places _)
  | released => exact h.of_released hnumbered.nodup (by rw [hold]; rfl) rfl
  | _ => cases hok

/-- A call that fails to take the lock was refused. -/
theorem Contest.refused (h : Contest calls output w₀ s) {b : Build} (hb : s.stages i = .built b)
    (hend : (s.stepped calls i).stages i = .finished (.ok (.lockHeld output)))
    (hlocked : s.world.IsLocked output) : Refused calls output w₀ (s.stepped calls i) i := by
  obtain ⟨j, hj⟩ := h.guarded.holder hlocked
  refine ⟨s, b, j, h.reached, hb, ?_, hj, hend, Relation.ReflTransGen.refl⟩
  rintro rfl
  rw [Holds, hb] at hj
  cases hj

theorem advances_stepped (calls : ι → Call) (s : Session ι) (i : ι) :
    (calls i).publisher.Advances s.world (s.stages i) (s.stepped calls i).world
      ((s.stepped calls i).stages i) := by
  rw [stepped, stages_moved_self]
  exact Publisher.advances_step _ _

theorem stages_stepped_of_ne (calls : ι → Call) (s : Session ι) (h : j ≠ i) :
    (s.stepped calls i).stages j = s.stages j :=
  stages_moved_of_ne s _ _ h

/-- A step of a call adds to what is known of it. -/
theorem Contest.standing_stepped (htarget : (calls i).Targets output)
    (h : Contest calls output w₀ s) (hok : ((s.stepped calls i).stages i).isError = false) :
    Standing calls output w₀ (s.stepped calls i) i ((s.stepped calls i).stages i) := by
  have hadvances := advances_stepped calls s i
  have hstanding := h.standing i
  have hpast : s.past ⊆ (s.stepped calls i).past := past_subset_moved s i _ _
  have hevent : ⟨i, s.world, s.stages i⟩ ∈ (s.stepped calls i).past := List.mem_cons_self
  have hrefused := fun b => h.refused (i := i) (b := b)
  have hnumbered := h.numbered
  generalize (s.stepped calls i).world = w at hadvances
  generalize (s.stepped calls i).stages i = stage at hadvances hrefused hok ⊢
  generalize hold : s.stages i = old at hadvances hstanding hevent hrefused
  cases hadvances with
  | named quiet hid houtput =>
      obtain ⟨id, hid', houtput'⟩ := htarget
      rw [hstanding, hid'] at hid
      cases hid
      rw [houtput'] at houtput
      cases houtput
      rfl
  | compiled hbuild =>
      obtain rfl : _ = output := hstanding
      exact ⟨rfl, s.world, _, hevent, hbuild⟩
  | busy tries hheld hbusy =>
      obtain ⟨rfl, -⟩ := hstanding
      refine ⟨rfl, hrefused _ rfl rfl ?_⟩
      exact hnumbered.isLocked hbusy
  | acquired => exact ⟨hstanding.1, hstanding.2.mono hpast⟩
  | wrote => exact ⟨_, hstanding.1, hstanding.2.mono hpast, rfl⟩
  | stamped =>
      obtain ⟨b, houtput, hbuilt, rfl⟩ := hstanding
      exact ⟨_, houtput, hbuilt.mono hpast, rfl, rfl⟩
  | recorded =>
      obtain ⟨b, houtput, hbuilt, rfl, hfingerprint⟩ := hstanding
      exact ⟨b, houtput, hbuilt.mono hpast, by rw [PublishStage.Wrote, hfingerprint]⟩
  | @released result lock =>
      rcases result with e | _ | _
      · trivial
      · obtain ⟨b, houtput, hbuilt, hb⟩ := hstanding
        exact ⟨b, houtput, hbuilt.mono hpast, hb⟩
      · exact hstanding.elim
  | ended =>
      exact hstanding.mono hpast
        (Relation.ReflTransGen.single (Contends.call s i))
  | _ => cases hok

/-- What the calls have written stays in the output until the next one writes. -/
theorem Contest.latest_stepped (hout : IsOutput output) (h : Contest calls output w₀ s)
    (hok : ((s.stepped calls i).stages i).isError = false) {b : Build}
    (hb : ((s.stepped calls i).stages j).Wrote b) :
    ∃ k b', b'.output = output ∧ Built calls (s.stepped calls i) k b' ∧
      ((s.stepped calls i).stages k).Wrote b' ∧
      (s.stepped calls i).world.files.read output = .ok b'.css.toUTF8 := by
  have hadvances := advances_stepped calls s i
  have hpast : s.past ⊆ (s.stepped calls i).past := past_subset_moved s i _ _
  -- only a step from the stage `locked` writes; after any other one the build that was there stays
  by_cases hlocked : ∃ b' lock, s.stages i = .locked b' lock
  · obtain ⟨b', lock, hold⟩ := hlocked
    have hstanding := h.standing i
    rw [hold] at hadvances hstanding
    obtain ⟨houtput, hbuilt⟩ := hstanding
    refine ⟨i, b', houtput, hbuilt.mono hpast, ?_⟩
    generalize (s.stepped calls i).world = w at hadvances ⊢
    generalize (s.stepped calls i).stages i = stage at hadvances hok ⊢
    cases hadvances with
    | wrote same hread =>
        rw [houtput] at hread
        exact ⟨rfl, hread hout.isNamed⟩
    | unwritten => cases hok
  · obtain ⟨k, bk, hk⟩ : ∃ k b', (s.stages k).Wrote b' := by
      by_cases hji : j = i
      · rw [hji] at hb
        obtain ⟨b', hb'⟩ | ⟨lock, hold⟩ := hadvances.wrote_of hb
        · exact ⟨i, b', hb'⟩
        · exact absurd ⟨b, lock, hold⟩ hlocked
      · rw [stages_stepped_of_ne calls s hji] at hb
        exact ⟨j, b, hb⟩
    obtain ⟨k', b', houtput, hbuilt, hwrote, hread⟩ := h.latest k bk hk
    refine ⟨k', b', houtput, hbuilt.mono hpast, ?_, ?_⟩
    · by_cases hki : k' = i
      · rw [hki] at hwrote ⊢
        exact hadvances.wrote_mono hok hwrote
      · rw [stages_stepped_of_ne calls s hki]
        exact hwrote
    · exact hadvances.read hout (fun b'' lock hold => hlocked ⟨b'', lock, hold⟩) hread

/-- A call that has not taken the lock has changed nothing else than the lock file. -/
theorem Contest.spares_stepped (hout : IsOutput output) (h : Contest calls output w₀ s)
    (hok : ((s.stepped calls i).stages i).isError = false)
    (hj : ((s.stepped calls i).stages j).isCommitted = false) :
    ∀ e ∈ (s.stepped calls i).past, e.caller = j →
      Spares output e.world ((calls j).publisher.step e.world e.stage).1 := by
  have hstep := fun hi => spares_of_advances hout (advances_stepped calls s i) (h.standing i) hok hi
  intro e he hcaller
  rcases List.mem_cons.1 he with rfl | hold
  · obtain rfl : i = j := hcaller
    exact (hstep hj).2
  · refine h.spares j ?_ e hold hcaller
    by_cases hji : j = i
    · rw [hji] at hj ⊢
      exact (hstep hj).1
    · rw [stages_stepped_of_ne calls s hji] at hj
      exact hj

/-- A step of a call that does not fail. -/
theorem Contest.of_call (htarget : (calls i).Targets output) (h : Contest calls output w₀ s)
    (hok : ¬ (s.stepped calls i).Failing) : Contest calls output w₀ (s.stepped calls i) := by
  have hout := htarget.isOutput
  have hadvances := advances_stepped calls s i
  have hstanding := h.standing i
  have hi := isError_eq_false hok i
  have hmove : Contends calls output s (s.stepped calls i) := .call s i
  refine ⟨h.reached.tail hmove, ?_, ?_, fun j => ?_, fun j hj => h.spares_stepped hout hi hj,
    fun j b hb => h.latest_stepped hout hi hb⟩
  · exact hadvances.numbered ((calls i).publisher.step_numbersOn _ _) (hstanding.isOutput hout)
      h.numbered
  · rw [stepped, stages_moved_self] at hadvances hi
    exact h.guarded.of_advances hout h.numbered hadvances hstanding hi
  · by_cases hji : j = i
    · rw [hji]
      exact h.standing_stepped htarget hi
    · rw [stages_stepped_of_ne calls s hji]
      exact (h.standing j).mono (past_subset_moved s i _ _) (Relation.ReflTransGen.single hmove)

/-- A change that no call made. -/
theorem Contest.of_elsewhere (hout : IsOutput output) (h : Contest calls output w₀ s)
    (helse : Elsewhere output s.world w) : Contest calls output w₀ { s with world := w } := by
  have hmove : Contends calls output s { s with world := w } := .others s w helse
  refine ⟨h.reached.tail hmove, helse.numbered, ⟨fun j lock hj => ?_, fun hlocked => ?_⟩,
    fun j => ?_, h.spares, fun j b hb => ?_⟩
  · obtain ⟨x, hx, hid⟩ := h.guarded.lock j lock hj
    refine ⟨x, ?_, hid⟩
    rw [helse.files.home]
    exact (helse.files.files _ (fun hmem => hmem (Or.inr rfl)) x).2 hx
  · exact h.guarded.holder (helse.locked hlocked)
  · exact Standing.mono (s := s) (fun _ he => he) (.single hmove) (h.standing j)
  · obtain ⟨k, b', houtput, hbuilt, hwrote, hread⟩ := h.latest j b hb
    exact ⟨k, b', houtput, hbuilt, hwrote,
      helse.files.read hout.isNamed (fun hmem => hmem (Or.inl rfl)) hread⟩

theorem contest_start (hnumbered : w.Numbered) (hfree : ¬ w.IsLocked output) :
    Contest calls output w (start w calls) := by
  refine ⟨Relation.ReflTransGen.refl, hnumbered, ⟨fun i lock hi => ?_, fun h => absurd h hfree⟩,
    fun i => rfl, fun i _ e he => ?_, fun i b hb => hb.elim⟩
  · cases hi
  · cases he

/-- A call that has failed stays so. -/
theorem Failing.of_contends (hmove : Contends calls output s t) (h : s.Failing) : t.Failing := by
  obtain ⟨i, hi⟩ := h
  refine ⟨i, ?_⟩
  cases hmove with
  | call j =>
      by_cases hij : i = j
      · rw [← hij]
        exact (advances_stepped calls s i).isError hi
      · rw [stages_stepped_of_ne calls s hij]
        exact hi
  | others w => exact hi

theorem Failing.of_reached (hrun : Relation.ReflTransGen (Contends calls output) s t)
    (h : s.Failing) : t.Failing := by
  induction hrun with
  | refl => exact h
  | tail _ hmove ih => exact ih.of_contends hmove

/-- Whatever the order of the steps, the facts hold as long as no call fails. -/
theorem contest_of_reached (htargets : ∀ i, (calls i).Targets output) (hout : IsOutput output)
    (hnumbered : w.Numbered) (hfree : ¬ w.IsLocked output)
    (hrun : Relation.ReflTransGen (Contends calls output) (start w calls) s) (hok : ¬ s.Failing) :
    Contest calls output w s := by
  induction hrun with
  | refl => exact contest_start hnumbered hfree
  | tail _ hmove ih =>
      have hcontest := ih fun h => hok (h.of_contends hmove)
      cases hmove with
      | call i => exact hcontest.of_call (htargets i) hok
      | others w helse => exact hcontest.of_elsewhere hout helse

/-- A call that has taken the lock does not give up any more. -/
theorem isCommitted_of_reached (hrun : Relation.ReflTransGen (Contends calls output) s t)
    (hok : ¬ t.Failing) (h : (s.stages i).isCommitted = true) :
    (t.stages i).isCommitted = true := by
  induction hrun with
  | refl => exact h
  | @tail u v _ hmove ih =>
      have hu := ih fun hfailing => hok (hfailing.of_contends hmove)
      cases hmove with
      | call j =>
          by_cases hij : i = j
          · rw [← hij] at hok ⊢
            exact (advances_stepped calls u i).isCommitted (isError_eq_false hok i) hu
          · rw [stages_stepped_of_ne calls u hij]
            exact hu
      | others w => exact hu

/-- The call that had the lock when another one was refused goes on to write. -/
theorem Refused.exists_written (htargets : ∀ i, (calls i).Targets output) (hout : IsOutput output)
    (hnumbered : w.Numbered) (hfree : ¬ w.IsLocked output) (hok : ¬ s.Failing)
    (h : Refused calls output w s i) : ∃ j, (s.stages j).isCommitted = true := by
  obtain ⟨t, b, j, ht, -, -, hj, -, hrest⟩ := h
  have hrun : Relation.ReflTransGen (Contends calls output) t s :=
    Relation.ReflTransGen.head (.call t i) hrest
  have htok : ¬ t.Failing := fun hfailing => hok (hfailing.of_reached hrun)
  have hcontest := contest_of_reached htargets hout hnumbered hfree ht htok
  exact ⟨j, isCommitted_of_reached hrun hok
    ((hcontest.standing j).isCommitted (isError_eq_false htok j) hj)⟩

end Facts

/-- Calls that meet at one output, with nobody else at it: when all of them have ended and none has
failed, the output is the build of a call that has written it, and a call that gave up found the
lock held while another call had it, and has left the output and every record alone. -/
theorem no_publication_lost [Nonempty ι] {calls : ι → Call} {output : Path} {w : World}
    {s : Session ι} (htargets : ∀ i, (calls i).Targets output) (hnumbered : w.Numbered)
    (hfree : ¬ w.IsLocked output)
    (hrun : Relation.ReflTransGen (Contends calls output) (start w calls) s)
    (hend : ∀ i, ∃ outcome, s.stages i = .finished (.ok outcome)) :
    (∃ i b, s.stages i = .finished (.ok (.written output b.fingerprint)) ∧ Built calls s i b ∧
        s.world.files.read output = .ok b.css.toUTF8) ∧
      ∀ i path, s.stages i = .finished (.ok (.lockHeld path)) →
        path = output ∧ Refused calls output w s i ∧
          ∀ e ∈ s.past, e.caller = i →
            Spares output e.world ((calls i).publisher.step e.world e.stage).1 := by
  obtain ⟨k⟩ := ‹Nonempty ι›
  have hout := (htargets k).isOutput
  have hok : ¬ s.Failing := by
    rintro ⟨i, hi⟩
    obtain ⟨outcome, houtcome⟩ := hend i
    rw [houtcome] at hi
    cases hi
  have hcontest := contest_of_reached htargets hout hnumbered hfree hrun hok
  have hlost : ∀ i path, s.stages i = .finished (.ok (.lockHeld path)) →
      path = output ∧ Refused calls output w s i := by
    intro i path hi
    have hstanding := hcontest.standing i
    rw [hi] at hstanding
    exact hstanding
  refine ⟨?_, fun i path hi => ?_⟩
  · -- if the first call we look at gave up, the one that it met has written
    obtain ⟨j, hj⟩ : ∃ j, (s.stages j).isCommitted = true := by
      obtain ⟨_ | path, hk⟩ := hend k
      · exact ⟨k, by rw [hk]; rfl⟩
      · exact (hlost k path hk).2.exists_written htargets hout hnumbered hfree hok
    obtain ⟨_ | _, houtcome⟩ := hend j
    · have hstanding := hcontest.standing j
      rw [houtcome] at hstanding
      obtain ⟨b, -, -, hb⟩ := hstanding
      obtain ⟨i, b', rfl, hbuilt, hwrote, hread⟩ := hcontest.latest j b (by rw [houtcome]; exact hb)
      obtain ⟨outcome', houtcome'⟩ := hend i
      rw [houtcome', PublishStage.Wrote] at hwrote
      exact ⟨i, b', by rw [houtcome', hwrote], hbuilt, hread⟩
    · rw [houtcome] at hj
      cases hj
  · obtain ⟨hpath, hrefused⟩ := hlost i path hi
    exact ⟨hpath, hrefused, hcontest.spares i (by rw [hi]; rfl)⟩

/-- The second of the three calls comes while the first one has the lock. -/
theorem no_publication_lost_threeCalls :
    (∃ i b, threeCallsRun.stages i =
        .finished (.ok (.written ⟨"out/css-compiled/main.css"⟩ b.fingerprint)) ∧
      Built threeCalls threeCallsRun i b ∧
      threeCallsRun.world.files.read ⟨"out/css-compiled/main.css"⟩ = .ok b.css.toUTF8) ∧
    threeCallsRun.stages 1 = .finished (.ok (.lockHeld ⟨"out/css-compiled/main.css"⟩)) ∧
    Refused threeCalls ⟨"out/css-compiled/main.css"⟩ threeCallsWorld threeCallsRun 1 := by
  have htargets : ∀ i, (threeCalls i).Targets ⟨"out/css-compiled/main.css"⟩ := fun i =>
    ⟨_, (shares_threeCalls i).outputId, (shares_threeCalls i).writable⟩
  have hnumbered : threeCallsWorld.Numbered := by
    refine ⟨?_, nofun, List.nodup_nil⟩
    have hadd := numbersOn_addFile (atHome [] 0) 0 [] "main.scss".toList ByteArray.empty newFileMode
    exact (hadd.trans (numbersOn_addEntry_directory _ 0 [] _ _ _)).numbered (numbered_atHome [] 0)
  have hfree : ¬ threeCallsWorld.IsLocked ⟨"out/css-compiled/main.css"⟩ := by
    rintro ⟨x, -, hheld⟩
    cases hheld
  have hrun : Relation.ReflTransGen (Contends threeCalls ⟨"out/css-compiled/main.css"⟩)
      (start threeCallsWorld threeCalls) threeCallsRun :=
    reflTransGen_run Contends.call _ threeCallsOrder
  obtain ⟨hended, hgaveUp⟩ : (∀ i, (threeCallsRun.stages i).result?.isSome = true ∧
      (threeCallsRun.stages i).isError = false) ∧
      (threeCallsRun.stages 1).isCommitted = false := by
    decide +kernel
  have hend := fun i => PublishStage.exists_outcome (hended i).1 (hended i).2
  obtain ⟨hwritten, hlost⟩ := no_publication_lost htargets hnumbered hfree hrun hend
  obtain ⟨_ | path, h⟩ := hend 1
  · rw [h] at hgaveUp
    cases hgaveUp
  · obtain ⟨rfl, hrefused, -⟩ := hlost 1 path h
    exact ⟨hwritten, h, hrefused⟩

end Session

end StyleBuild
