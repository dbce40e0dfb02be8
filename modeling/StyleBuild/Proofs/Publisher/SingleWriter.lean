import StyleBuild.Proofs.Publisher.Session

/-!
# One writer at a time, and a record that fits the output

Every move of a session keeps `Sound` (`Sound.moves`), so every session that
can come about is sound. From this: no two calls have the lock at once, and
whenever nobody has it, output and record are those of the call that gave it
back last.
-/

namespace StyleBuild

open Files

namespace Session

variable {ι : Type} {calls : ι → Call} {id : String} {output : Path} {store : RecordStore}
variable {s t : Session ι} {i j : ι} {w : World} {stage : PublishStage}

theorem Agrees.mono (hpast : s.past ⊆ t.past) (hkeeps : Keeps id output store s.world t.world)
    (h : Agrees calls id output store s i) : Agrees calls id output store t i := by
  obtain ⟨b, r, hbuilt, hstamped, hread, hget⟩ := h
  exact ⟨b, r, hbuilt.mono hpast, hstamped.mono hpast, hkeeps.output _ hread,
    hkeeps.record r hget⟩

/-- What is known of a call without the lock does not depend on output and record. -/
theorem Progress.mono_of_lock?_eq_none (hpast : s.past ⊆ t.past)
    (hlast : s.lastReleased?.isSome = true → t.lastReleased?.isSome = true)
    (hstage : stage.lock? = none) (h : Progress calls id output store s i stage) :
    Progress calls id output store t i stage := by
  cases stage with
  | started entry => exact h
  | located entry id' output' => exact h
  | built b => exact ⟨h.1, h.2.1, h.2.2.mono hpast⟩
  | locked b lock => cases hstage
  | written b lock => cases hstage
  | stamped o r lock => cases hstage
  | releasing result lock => cases hstage
  | finished result =>
      rcases result with e | outcome
      · trivial
      · cases outcome with
        | written path fingerprint => exact hlast h
        | lockHeld path => trivial

theorem Progress.mono (hpast : s.past ⊆ t.past) (hkeeps : Keeps id output store s.world t.world)
    (hlast : s.lastReleased?.isSome = true → t.lastReleased?.isSome = true)
    (h : Progress calls id output store s i stage) :
    Progress calls id output store t i stage := by
  cases stage with
  | locked b lock => exact ⟨h.1, h.2.1, h.2.2.mono hpast⟩
  | written b lock =>
      obtain ⟨hid, houtput, hbuilt, hread⟩ := h
      exact ⟨hid, houtput, hbuilt.mono hpast, hkeeps.output _ hread⟩
  | stamped o r lock =>
      obtain ⟨b, hid, hbuilt, hstamped, hread⟩ := h
      exact ⟨b, hid, hbuilt.mono hpast, hstamped.mono hpast, hkeeps.output _ hread⟩
  | releasing result lock =>
      rcases result with e | outcome
      · exact Failed.mono hpast h
      · exact Agrees.mono hpast hkeeps h
  | started entry => exact h.mono_of_lock?_eq_none hpast hlast rfl
  | located entry id' output' => exact h.mono_of_lock?_eq_none hpast hlast rfl
  | built b => exact h.mono_of_lock?_eq_none hpast hlast rfl
  | finished result => exact h.mono_of_lock?_eq_none hpast hlast rfl

theorem Sound.lock?_eq_none (h : Sound calls id output store s) (hi : s.Holds i) (hij : j ≠ i) :
    (s.stages j).lock? = none := by
  cases hj : (s.stages j).lock? with
  | none => rfl
  | some lock =>
      refine absurd (h.exclusive j i ?_ hi) hij
      rw [Holds, hj]
      rfl

/-- A change that no call made. -/
theorem Sound.of_world (h : Sound calls id output store s)
    (hguards : Guards output store s.world w) (hkeeps : Keeps id output store s.world w) :
    Sound calls id output store { s with world := w } := by
  refine ⟨h.exclusive, fun i lock hi => ?_, hguards.store h.exists_store, fun i => ?_,
    fun hfailed hnobody i hi => ?_⟩
  · obtain ⟨hheld, x, hx, hid⟩ := h.lock i lock hi
    exact ⟨hguards.held hheld, x, hguards.lockFile x hx, hid⟩
  · exact Progress.mono (s := s) (fun _ he => he) hkeeps (fun hlast => hlast) (h.progress i)
  · exact Agrees.mono (s := s) (fun _ he => he) hkeeps (h.settled hfailed hnobody i hi)

theorem sound_start (hstore : store.Exists w) :
    Sound calls id output store (start w calls) := by
  refine ⟨fun i j hi _ => ?_, fun i lock hi => ?_, hstore, fun i => rfl, fun _ _ i hi => ?_⟩
  · cases hi
  · cases hi
  · cases hi

variable [DecidableEq ι]

theorem past_subset_moved (s : Session ι) (i : ι) (w : World) (stage : PublishStage) :
    s.past ⊆ (s.moved i w stage).past := fun _ he => List.mem_cons_of_mem _ he

theorem stages_moved_self (s : Session ι) (i : ι) (w : World) (stage : PublishStage) :
    (s.moved i w stage).stages i = stage := by
  simp [moved]

theorem stages_moved_of_ne (s : Session ι) (w : World) (stage : PublishStage) (h : j ≠ i) :
    (s.moved i w stage).stages j = s.stages j := by
  simp [moved, h]

theorem lastReleased?_moved (s : Session ι) (i : ι) (w : World) (stage : PublishStage) :
    (s.moved i w stage).lastReleased? =
      if (s.stages i).isReleasing then some i else s.lastReleased? := by
  unfold lastReleased? moved
  rw [List.find?_cons]
  cases (s.stages i).isReleasing <;> rfl

theorem lastReleased?_isSome_moved (h : s.lastReleased?.isSome = true) :
    (s.moved i w stage).lastReleased?.isSome = true := by
  rw [lastReleased?_moved]
  split
  · rfl
  · exact h

theorem lock?_moved (hlock : stage.lock? = (s.stages i).lock?) (j : ι) :
    ((s.moved i w stage).stages j).lock? = (s.stages j).lock? := by
  by_cases hj : j = i
  · rw [hj, stages_moved_self, hlock]
  · rw [stages_moved_of_ne s w stage hj]

/-- A step that neither takes nor gives back the lock; output and record may change only when the
call has the lock. -/
theorem Sound.of_same_lock (h : Sound calls id output store s)
    (hlock : stage.lock? = (s.stages i).lock?) (hguards : Guards output store s.world w)
    (hkeeps : (s.stages i).lock? = none → Keeps id output store s.world w)
    (hi : Progress calls id output store (s.moved i w stage) i stage) :
    Sound calls id output store (s.moved i w stage) := by
  have hholds : ∀ j, (s.moved i w stage).Holds j ↔ s.Holds j := by
    intro j
    rw [Holds, Holds, lock?_moved hlock]
  refine ⟨fun j k hj hk => ?_, fun j lock hj => ?_, hguards.store h.exists_store, fun j => ?_,
    fun hfailed hnobody j hj => ?_⟩
  · exact h.exclusive j k ((hholds j).1 hj) ((hholds k).1 hk)
  · rw [lock?_moved hlock] at hj
    obtain ⟨hheld, x, hx, hid⟩ := h.lock j lock hj
    exact ⟨hguards.held hheld, x, hguards.lockFile x hx, hid⟩
  · by_cases hj : j = i
    · rw [hj, stages_moved_self]
      exact hi
    · rw [stages_moved_of_ne s w stage hj]
      cases hold : (s.stages i).lock? with
      | none =>
          exact (h.progress j).mono (past_subset_moved s i w stage) (hkeeps hold)
            lastReleased?_isSome_moved
      | some lock =>
          have hthis : s.Holds i := by
            rw [Holds, hold]
            rfl
          exact (h.progress j).mono_of_lock?_eq_none (past_subset_moved s i w stage)
            lastReleased?_isSome_moved (h.lock?_eq_none hthis hj)
  · have hold : (s.stages i).lock? = none := by
      have hthis := hnobody i
      rw [hholds, Holds, Option.not_isSome_iff_eq_none] at hthis
      exact hthis
    rw [lastReleased?_moved, PublishStage.isReleasing_of_lock?_eq_none hold] at hj
    refine Agrees.mono (past_subset_moved s i w stage) (hkeeps hold)
      (h.settled (fun hf => ?_) (fun k hk => ?_) j hj)
    · exact hfailed (hf.mono (past_subset_moved s i w stage))
    · exact hnobody k ((hholds k).2 hk)

/-- Taking the lock: nobody had it, since it is not on the list of held locks. -/
theorem Sound.of_acquired (h : Sound calls id output store s) {lock : Nat}
    (hlock : stage.lock? = some lock) (hguards : Guards output store s.world w)
    (hkeeps : Keeps id output store s.world w) (hfree : lock ∉ s.world.held)
    (hheld : lock ∈ w.held)
    (hfile : ∃ x, w.files.nodeAt? ((lockPath output).place w.files.home) = some (.file x) ∧
      x.id = lock)
    (hi : Progress calls id output store (s.moved i w stage) i stage) :
    Sound calls id output store (s.moved i w stage) := by
  obtain ⟨x, hx, hid⟩ := hfile
  have hnobody : ∀ j, ¬ s.Holds j := by
    intro j hj
    obtain ⟨lock', hlock'⟩ := Option.isSome_iff_exists.1 hj
    obtain ⟨hheld', y, hy, hid'⟩ := h.lock j lock' hlock'
    have hsame := hguards.lockFile y hy
    rw [hx] at hsame
    cases hsame
    exact hfree (hid ▸ hid'.symm ▸ hheld')
  have honly : ∀ j, (s.moved i w stage).Holds j → j = i := by
    intro j hj
    by_contra hne
    rw [Holds, stages_moved_of_ne s w stage hne] at hj
    exact hnobody j hj
  refine ⟨fun j k hj hk => (honly j hj).trans (honly k hk).symm, fun j lock' hj => ?_,
    hguards.store h.exists_store, fun j => ?_, fun _ hthis => ?_⟩
  · have hji := honly j (by rw [Holds, hj]; rfl)
    rw [hji, stages_moved_self, hlock] at hj
    cases hj
    exact ⟨hheld, x, hx, hid⟩
  · by_cases hj : j = i
    · rw [hj, stages_moved_self]
      exact hi
    · rw [stages_moved_of_ne s w stage hj]
      exact (h.progress j).mono (past_subset_moved s i w stage) hkeeps lastReleased?_isSome_moved
  · refine absurd ?_ (hthis i)
    rw [Holds, stages_moved_self, hlock]
    rfl

/-- Giving the lock back: nobody has it then, and the call was the last one to have it. -/
theorem Sound.of_released (h : Sound calls id output store s) {lock : Nat}
    {result : Except Error PublishOutcome} (hstage : s.stages i = .releasing result lock)
    (hkeeps : Keeps id output store s.world w) (hstore : store.Exists s.world → store.Exists w) :
    Sound calls id output store (s.moved i w (.finished result)) := by
  have hi : s.Holds i := by
    rw [Holds, hstage]
    rfl
  have hlast : (s.moved i w (.finished result)).lastReleased? = some i := by
    rw [lastReleased?_moved, hstage]
    rfl
  have hnobody : ∀ j, ((s.moved i w (.finished result)).stages j).lock? = none := by
    intro j
    by_cases hj : j = i
    · rw [hj, stages_moved_self]
      rfl
    · rw [stages_moved_of_ne s w _ hj]
      exact h.lock?_eq_none hi hj
  refine ⟨fun j k hj _ => ?_, fun j lock' hj => ?_, hstore h.exists_store, fun j => ?_,
    fun hfailed _ j hj => ?_⟩
  · rw [Holds, hnobody] at hj
    cases hj
  · rw [hnobody] at hj
    cases hj
  · by_cases hj : j = i
    · rw [hj, stages_moved_self]
      rcases result with e | outcome
      · trivial
      · cases outcome with
        | written path fingerprint =>
            rw [Progress, hlast]
            rfl
        | lockHeld path => trivial
    · rw [stages_moved_of_ne s w _ hj]
      exact (h.progress j).mono_of_lock?_eq_none (past_subset_moved s i w _)
        lastReleased?_isSome_moved (h.lock?_eq_none hi hj)
  · rw [hlast] at hj
    cases hj
    have hprogress := h.progress i
    rw [hstage] at hprogress
    rcases result with e | outcome
    · exact absurd (Failed.mono (past_subset_moved s i w _) hprogress) hfailed
    · exact Agrees.mono (past_subset_moved s i w _) hkeeps hprogress

section Outcomes

variable {v w' : World}

theorem guards_of_quiet (h : v.SameOutside ∅ w') : Guards output store v w' :=
  guards_of_sameOutside h.files h.held (congrArg List.length h.memory) fun hmem => hmem

theorem guards_of_triesLock (h : v.TriesLock output w') (hheld : v.held ⊆ w'.held) :
    Guards output store v w' := by
  refine ⟨fun x hx => ?_, hheld, exists_of_length_eq (congrArg List.length h.memory)⟩
  rw [h.files.home]
  exact h.lockFile x hx

end Outcomes

/-- A step of a call keeps a session sound. -/
theorem Sound.of_call (hshare : (calls i).Shares id output store)
    (h : Sound calls id output store s) :
    Sound calls id output store (s.moved i
      ((calls i).publisher.step s.world (s.stages i)).1
      ((calls i).publisher.step s.world (s.stages i)).2) := by
  have hout : IsOutput output := Publisher.isOutput hshare.outputId hshare.writable
  have hadvances := Publisher.advances_step (p := (calls i).publisher) s.world (s.stages i)
  have hprogress := h.progress i
  generalize hw : ((calls i).publisher.step s.world (s.stages i)).1 = w at hadvances ⊢
  generalize hresult : ((calls i).publisher.step s.world (s.stages i)).2 = result
    at hadvances ⊢
  generalize hstage : s.stages i = stage at hadvances hprogress
  -- the event of this step, from which the builds and records of the call are read off
  have hpast := past_subset_moved s i w result
  have hevent : ⟨i, s.world, stage⟩ ∈ (s.moved i w result).past := by
    rw [← hstage]
    exact List.mem_cons_self
  cases hadvances with
  | unnamed quiet =>
      exact h.of_same_lock (by rw [hstage]; rfl) (guards_of_quiet quiet)
        (fun _ => keeps_of_quiet hout quiet) trivial
  | named quiet hid houtput =>
      refine h.of_same_lock (by rw [hstage]; rfl) (guards_of_quiet quiet)
        (fun _ => keeps_of_quiet hout quiet) ?_
      rw [hprogress, hshare.outputId] at hid
      cases hid
      rw [hshare.writable] at houtput
      cases houtput
      exact ⟨rfl, rfl⟩
  | rejected =>
      exact h.of_same_lock (by rw [hstage]; rfl) (guards_of_quiet (World.SameOutside.refl ∅ _))
        (fun _ => keeps_of_quiet hout (World.SameOutside.refl ∅ _)) trivial
  | compiled hbuild =>
      obtain ⟨rfl, rfl⟩ := hprogress
      refine h.of_same_lock (by rw [hstage]; rfl) (guards_of_quiet (World.SameOutside.refl ∅ _))
        (fun _ => keeps_of_quiet hout (World.SameOutside.refl ∅ _)) ⟨rfl, rfl, ?_⟩
      exact ⟨s.world, _, hevent, hbuild⟩
  | unlocked tries hheld =>
      obtain ⟨-, rfl, -⟩ := hprogress
      exact h.of_same_lock (by rw [hstage]; rfl)
        (guards_of_triesLock tries (by rw [hheld]; exact fun _ hl => hl))
        (fun _ => keeps_of_triesLock hout tries) trivial
  | busy tries hheld =>
      obtain ⟨-, rfl, -⟩ := hprogress
      exact h.of_same_lock (by rw [hstage]; rfl)
        (guards_of_triesLock tries (by rw [hheld]; exact fun _ hl => hl))
        (fun _ => keeps_of_triesLock hout tries) trivial
  | acquired tries hfree hheld hfile =>
      obtain ⟨hid, rfl, hbuilt⟩ := hprogress
      rw [← tries.files.home] at hfile
      exact h.of_acquired rfl
        (guards_of_triesLock tries (by rw [hheld]; exact fun _ hl => List.mem_cons_of_mem _ hl))
        (keeps_of_triesLock hout tries) hfree (by rw [hheld]; exact List.mem_cons_self) hfile
        ⟨hid, rfl, hbuilt.mono hpast⟩
  | unwritten quiet =>
      refine h.of_same_lock (by rw [hstage]; rfl) (guards_of_quiet quiet)
        (fun _ => keeps_of_quiet hout quiet) ?_
      exact ⟨_, List.mem_cons_self, by rw [hresult]; rfl⟩
  | wrote same hread =>
      obtain ⟨hid, rfl, hbuilt⟩ := hprogress
      have hsame := same hout.isNamed
      refine h.of_same_lock (by rw [hstage]; rfl)
        (guards_of_sameOutside hsame.files hsame.held (congrArg List.length hsame.memory)
          (hout.lock_ne_output _))
        (fun hold => by rw [hstage] at hold; cases hold) ?_
      exact ⟨hid, rfl, hbuilt.mono hpast, hread hout.isNamed⟩
  | stamped =>
      obtain ⟨hid, rfl, hbuilt, hread⟩ := hprogress
      refine h.of_same_lock (by rw [hstage]; rfl) (guards_of_quiet (World.SameOutside.refl ∅ _))
        (fun _ => keeps_of_quiet hout (World.SameOutside.refl ∅ _)) ?_
      exact ⟨_, hid, hbuilt.mono hpast, ⟨s.world, _, hevent, rfl⟩, hread⟩
  | unrecorded quiet =>
      refine h.of_same_lock (by rw [hstage]; rfl) (guards_of_quiet quiet)
        (fun _ => keeps_of_quiet hout quiet) ?_
      exact ⟨_, List.mem_cons_self, by rw [hresult]; rfl⟩
  | @recorded _ _ r _ hput =>
      obtain ⟨b, rfl, hbuilt, hstamped, hread⟩ := hprogress
      obtain ⟨hfile, hversion, -⟩ := hstamped.of_build
      rw [hshare.store] at hput
      obtain ⟨hsame, -, hheld, hmemory⟩ := RecordStore.put_ok hput
      have hget := RecordStore.get_put h.exists_store
        (by rw [hversion]; exact UInt32.le_refl _) hput
      rw [hfile] at hsame hget
      refine h.of_same_lock (by rw [hstage]; rfl)
        (guards_of_sameOutside hsame hheld hmemory (lock_notMem_places _))
        (fun hold => by rw [hstage] at hold; cases hold) ?_
      exact ⟨b, _, hbuilt.mono hpast, hstamped.mono hpast,
        hsame.read hout.isNamed (output_notMem_places hout _) hread, hget⟩
  | released =>
      exact h.of_released hstage (keeps_of_eq rfl rfl)
        (exists_of_length_eq rfl)
  | ended =>
      refine h.of_same_lock (by rw [hstage]) (guards_of_quiet (World.SameOutside.refl ∅ _))
        (fun _ => keeps_of_quiet hout (World.SameOutside.refl ∅ _)) ?_
      exact hprogress.mono_of_lock?_eq_none hpast lastReleased?_isSome_moved rfl

/-- Every move keeps a session sound. -/
theorem Sound.of_moves (hout : IsOutput output) (hshare : ∀ i, (calls i).Shares id output store)
    (h : Sound calls id output store s) (hmoves : Moves calls id output store s t) :
    Sound calls id output store t := by
  cases hmoves with
  | call i => exact h.of_call (hshare i)
  | clock nanoseconds =>
      have hrefl := SameOutside.refl ∅ s.world.files
      exact h.of_world (guards_of_sameOutside hrefl rfl rfl fun hmem => hmem)
        (keeps_of_eq rfl rfl)
  | others files same =>
      refine h.of_world (guards_of_sameOutside same rfl rfl fun hmem => hmem ?_)
        (keeps_of_sameOutside hout same rfl (fun hmem => hmem ?_)
          fun l hl hmem => hmem ?_)
      · exact Or.inl (Or.inr rfl)
      · exact Or.inl (Or.inl rfl)
      · exact Or.inr hl

/-- Calls that share an output, an id and a store, in any order of their steps: at most one of
them has the lock, and whenever nobody has it after an output was written, and no write has
failed, output and record are those of the call that gave the lock back last. -/
theorem single_writer_and_agreement (hshare : ∀ i, (calls i).Shares id output store)
    (hstore : store.Exists w)
    (hrun : Relation.ReflTransGen (Moves calls id output store) (start w calls) s) :
    (∀ i j, s.Holds i → s.Holds j → i = j) ∧
      (¬ Failed calls s → (∀ i, ¬ s.Holds i) →
        (∃ i path fingerprint, s.stages i = .finished (.ok (.written path fingerprint))) →
        ∃ i b r, s.lastReleased? = some i ∧ Built calls s i b ∧ Stamped calls s i b r ∧
          s.world.files.read output = .ok b.css.toUTF8 ∧ store.get s.world id = .ok (some r) ∧
          r.fingerprint = Fingerprint.of b.css.toUTF8) := by
  rcases isEmpty_or_nonempty ι with hempty | ⟨⟨k⟩⟩
  · exact ⟨fun i => isEmptyElim i, fun _ _ ⟨i, _⟩ => isEmptyElim i⟩
  have hout : IsOutput output := Publisher.isOutput (hshare k).outputId (hshare k).writable
  have hsound : Sound calls id output store s := by
    induction hrun with
    | refl => exact sound_start hstore
    | tail _ hmoves ih => exact ih.of_moves hout hshare hmoves
  refine ⟨hsound.exclusive, fun hfailed hnobody hwritten => ?_⟩
  obtain ⟨i, path, fingerprint, hi⟩ := hwritten
  have hlast := hsound.progress i
  rw [hi] at hlast
  obtain ⟨j, hj⟩ := Option.isSome_iff_exists.1 hlast
  obtain ⟨b, r, hbuilt, hstamped, hread, hget⟩ := hsound.settled hfailed hnobody j hj
  exact ⟨j, b, r, hj, hbuilt, hstamped, hread, hget, hstamped.of_build.2.2⟩

/-- Three calls in two modes, each with an engine that gives its number. -/
def threeCalls (i : Fin 3) : Call :=
  ⟨.new (.ofList [("", [⟨"out"⟩])]) [""] (.memory 0)
    (.new ⟨"numbered", fun _ => .ok ⟨toString i, []⟩⟩ (i = 0)), "main"⟩

/-- The file of the entry, a directory for output, and an empty store. -/
def threeCallsWorld : World :=
  { files := ((Files.atHome [] 0).addFile 0 [] "main.scss".toList ByteArray.empty
      newFileMode).addEntry 0 [] "out".toList (.directory newDirectoryMode 0)
    now := 7000000, held := [], memory := [.empty] }

/-- All three compile; the first one takes the lock, so the second one gives up; the third one
writes after the first one is done. -/
def threeCallsOrder : List (Fin 3) := [0, 0, 1, 1, 2, 2, 0, 1, 0, 0, 0, 0, 2, 2, 2, 2, 2]

def threeCallsRun : Session (Fin 3) :=
  run threeCalls (start threeCallsWorld threeCalls) threeCallsOrder

theorem shares_threeCalls (i : Fin 3) : (threeCalls i).Shares "css-compiled/main.css"
    ⟨"out/css-compiled/main.css"⟩ (.memory 0) := by
  refine ⟨?_, ?_, rfl⟩
  · revert i
    decide +kernel
  · revert i
    decide +kernel

theorem single_writer_and_agreement_threeCalls :
    ¬ Failed threeCalls threeCallsRun ∧ (∀ i, ¬ threeCallsRun.Holds i) ∧
      ∃ i b r, threeCallsRun.lastReleased? = some i ∧ i = 2 ∧
        Built threeCalls threeCallsRun i b ∧ Stamped threeCalls threeCallsRun i b r ∧
        threeCallsRun.world.files.read ⟨"out/css-compiled/main.css"⟩ = .ok b.css.toUTF8 ∧
        (RecordStore.memory 0).get threeCallsRun.world "css-compiled/main.css" = .ok (some r) ∧
        r.fingerprint = Fingerprint.of b.css.toUTF8 := by
  have hstore : (RecordStore.memory 0).Exists threeCallsWorld := Nat.zero_lt_one
  obtain ⟨hfailed, hnobody, hlast⟩ : ¬ Failed threeCalls threeCallsRun ∧
      (∀ i, ¬ threeCallsRun.Holds i) ∧ threeCallsRun.lastReleased? = some 2 := by
    unfold Failed Holds
    decide +kernel
  have hrun := moves_run threeCalls "css-compiled/main.css" ⟨"out/css-compiled/main.css"⟩
    (.memory 0) (start threeCallsWorld threeCalls) threeCallsOrder
  obtain ⟨-, hagree⟩ := single_writer_and_agreement shares_threeCalls hstore hrun
  obtain ⟨i, b, r, hi, hrest⟩ := hagree hfailed hnobody ⟨2, _, _, rfl⟩
  exact ⟨hfailed, hnobody, i, b, r, hi, Option.some.inj (hi.symm.trans hlast), hrest⟩

end Session

end StyleBuild
