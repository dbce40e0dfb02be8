import Mathlib.Logic.Function.Basic
import Mathlib.Logic.Relation
import StyleBuild.Proofs.Publisher.Kept

/-!
# Calls that publish one output at the same time

A session is a family of calls whose steps are interleaved in any order. The
calls have publishers of their own, but put their output at one path, under one
id, and keep its record in one store. Between two steps the clock may go on and
any other file may change.

The call that took the lock is the only one that writes until it gives the lock
back (`Sound.exclusive`). What it did so far can be read off its stage
(`Progress`), so when it gives the lock back, output and record are both its
own, and they stay until another call takes the lock.
-/

namespace StyleBuild

open Files

namespace PublishStage

/-- The lock that a call has, from taking it to giving it back. -/
def lock? : PublishStage → Option Nat
  | locked _ lock => some lock
  | written _ lock => some lock
  | stamped _ _ lock => some lock
  | releasing _ lock => some lock
  | _ => none

def isReleasing : PublishStage → Bool
  | releasing .. => true
  | _ => false

/-- A write has failed, and the lock is still to be given back. -/
def hasFailed : PublishStage → Bool
  | releasing (.error _) _ => true
  | _ => false

theorem isReleasing_of_lock?_eq_none {stage : PublishStage} (h : stage.lock? = none) :
    stage.isReleasing = false := by
  cases stage <;> first | rfl | cases h

end PublishStage

structure Call where
  publisher : Publisher
  entry : String

/-- The call publishes under this id and at this path, and keeps its record in this store. -/
structure Call.Shares (c : Call) (id : String) (output : Path) (store : RecordStore) : Prop where
  outputId : c.publisher.outputId c.entry = .ok id
  writable : c.publisher.mounts.writable id = .ok output
  store : c.publisher.store = store

/-- A step that was made: by which call, and from which world and stage. -/
structure Event (ι : Type) where
  caller : ι
  world : World
  stage : PublishStage

structure Session (ι : Type) where
  world : World
  stages : ι → PublishStage
  /-- The steps that were made, the latest one first. -/
  past : List (Event ι)

namespace Session

variable {ι : Type}

def start (w : World) (calls : ι → Call) : Session ι :=
  ⟨w, fun i => .started (calls i).entry, []⟩

/-- The locations that only the calls write to. -/
def places (id : String) (output : Path) (store : RecordStore) (home : Location) : Set Location :=
  {output.place home, (lockPath output).place home} ∪ store.places home id

/-- The call is between taking the lock and giving it back. -/
def Holds (s : Session ι) (i : ι) : Prop := (s.stages i).lock?.isSome = true

/-- The call that gave the lock back last. -/
def lastReleased? (s : Session ι) : Option ι :=
  (s.past.find? fun e => e.stage.isReleasing).map (·.caller)

/-- A write of the output or of the record has failed. -/
def Failed (calls : ι → Call) (s : Session ι) : Prop :=
  ∃ e ∈ s.past, ((calls e.caller).publisher.step e.world e.stage).2.hasFailed = true

/-- The call compiled its entry to this build. -/
def Built (calls : ι → Call) (s : Session ι) (i : ι) (b : Build) : Prop :=
  ∃ w entry, ⟨i, w, .located entry b.id b.output⟩ ∈ s.past ∧
    (calls i).publisher.build w.files entry = .ok (b.css, b.sources)

/-- The call made this record of its build. -/
def Stamped (calls : ι → Call) (s : Session ι) (i : ι) (b : Build) (r : CompileRecord) : Prop :=
  ∃ w lock, ⟨i, w, .written b lock⟩ ∈ s.past ∧ r = (calls i).publisher.recordOf b w

/-- Output and record are those of the call. -/
def Agrees (calls : ι → Call) (id : String) (output : Path) (store : RecordStore) (s : Session ι)
    (i : ι) : Prop :=
  ∃ b r, Built calls s i b ∧ Stamped calls s i b r ∧
    s.world.files.read output = .ok b.css.toUTF8 ∧ store.get s.world id = .ok (some r)

/-- What is known of a call at a stage. -/
def Progress (calls : ι → Call) (id : String) (output : Path) (store : RecordStore)
    (s : Session ι) (i : ι) : PublishStage → Prop
  | .started entry => entry = (calls i).entry
  | .located _ id' output' => id' = id ∧ output' = output
  | .built b => b.id = id ∧ b.output = output ∧ Built calls s i b
  | .locked b _ => b.id = id ∧ b.output = output ∧ Built calls s i b
  | .written b _ => b.id = id ∧ b.output = output ∧ Built calls s i b ∧
      s.world.files.read output = .ok b.css.toUTF8
  | .stamped _ r _ => ∃ b, b.id = id ∧ Built calls s i b ∧ Stamped calls s i b r ∧
      s.world.files.read output = .ok b.css.toUTF8
  | .releasing (.ok _) _ => Agrees calls id output store s i
  | .releasing (.error _) _ => Failed calls s
  | .finished (.ok (.written ..)) => s.lastReleased?.isSome = true
  | .finished _ => True

/-- What holds of every session that can come about. -/
structure Sound (calls : ι → Call) (id : String) (output : Path) (store : RecordStore)
    (s : Session ι) : Prop where
  exclusive : ∀ i j, s.Holds i → s.Holds j → i = j
  /-- A lock that a call has is on the lock file that is there now. -/
  lock : ∀ i lock, (s.stages i).lock? = some lock → lock ∈ s.world.held ∧
    ∃ x, s.world.files.nodeAt? ((lockPath output).place s.world.files.home) = some (.file x) ∧
      x.id = lock
  exists_store : store.Exists s.world
  progress : ∀ i, Progress calls id output store s i (s.stages i)
  settled : ¬ Failed calls s → (∀ i, ¬ s.Holds i) → ∀ i, s.lastReleased? = some i →
    Agrees calls id output store s i

section Past

variable {calls : ι → Call} {id : String} {output : Path} {store : RecordStore}
variable {s t : Session ι} {i : ι}

theorem Failed.mono (hpast : s.past ⊆ t.past) (h : Failed calls s) : Failed calls t := by
  obtain ⟨e, he, hfailed⟩ := h
  exact ⟨e, hpast he, hfailed⟩

theorem Built.mono (hpast : s.past ⊆ t.past) {b : Build} (h : Built calls s i b) :
    Built calls t i b := by
  obtain ⟨w, entry, he, hbuild⟩ := h
  exact ⟨w, entry, hpast he, hbuild⟩

theorem Stamped.mono (hpast : s.past ⊆ t.past) {b : Build} {r : CompileRecord}
    (h : Stamped calls s i b r) : Stamped calls t i b r := by
  obtain ⟨w, lock, he, hr⟩ := h
  exact ⟨w, lock, hpast he, hr⟩

/-- What a record says of its build. -/
theorem Stamped.of_build {b : Build} {r : CompileRecord} (h : Stamped calls s i b r) :
    r.file = b.id ∧ r.version = currentRecordVersion ∧
      r.fingerprint = Fingerprint.of b.css.toUTF8 := by
  obtain ⟨w, lock, -, rfl⟩ := h
  exact ⟨rfl, rfl, rfl⟩

end Past

/-- The lock file is still there, and every lock is still held. -/
structure Guards (output : Path) (store : RecordStore) (v w : World) : Prop where
  lockFile : ∀ x,
    v.files.nodeAt? ((lockPath output).place v.files.home) = some (.file x) →
      w.files.nodeAt? ((lockPath output).place w.files.home) = some (.file x)
  held : v.held ⊆ w.held
  store : store.Exists v → store.Exists w

section Frames

variable {id : String} {output : Path} {store : RecordStore} {p : Set Location} {v w : World}

theorem guards_of_sameOutside (hfiles : SameOutside p v.files w.files) (hheld : w.held = v.held)
    (hmemory : w.memory.length = v.memory.length)
    (hlock : (lockPath output).place v.files.home ∉ p) :
    Guards output store v w := by
  refine ⟨fun x hx => ?_, by rw [hheld]; exact fun _ h => h, exists_of_length_eq hmemory⟩
  rw [hfiles.home]
  exact (hfiles.files _ hlock x).2 hx

end Frames

variable [DecidableEq ι]

/-- The session after a step of a call that led to this world and stage. -/
def moved (s : Session ι) (i : ι) (w : World) (stage : PublishStage) : Session ι :=
  ⟨w, Function.update s.stages i stage, ⟨i, s.world, s.stages i⟩ :: s.past⟩

/-- What can happen next. -/
inductive Moves (calls : ι → Call) (id : String) (output : Path) (store : RecordStore) :
    Session ι → Session ι → Prop
  | call (s : Session ι) (i : ι) :
      Moves calls id output store s (s.moved i
        ((calls i).publisher.step s.world (s.stages i)).1
        ((calls i).publisher.step s.world (s.stages i)).2)
  | clock (s : Session ι) (nanoseconds : Nat) :
      Moves calls id output store s { s with world := s.world.advance nanoseconds }
  | others (s : Session ι) (files : Files)
      (same : SameOutside (places id output store s.world.files.home)ᶜ s.world.files files) :
      Moves calls id output store s { s with world := { s.world with files } }

/-- The session after steps of the calls in this order. -/
def run (calls : ι → Call) (s : Session ι) : List ι → Session ι
  | [] => s
  | i :: order =>
      run calls (s.moved i
        ((calls i).publisher.step s.world (s.stages i)).1
        ((calls i).publisher.step s.world (s.stages i)).2) order

theorem reflTransGen_run {r : Session ι → Session ι → Prop} {calls : ι → Call}
    (h : ∀ s i, r s (s.moved i ((calls i).publisher.step s.world (s.stages i)).1
      ((calls i).publisher.step s.world (s.stages i)).2)) (s : Session ι) (order : List ι) :
    Relation.ReflTransGen r s (run calls s order) := by
  induction order generalizing s with
  | nil => exact Relation.ReflTransGen.refl
  | cons i order ih => exact Relation.ReflTransGen.head (h s i) (ih _)

theorem moves_run (calls : ι → Call) (id : String) (output : Path) (store : RecordStore)
    (s : Session ι) (order : List ι) :
    Relation.ReflTransGen (Moves calls id output store) s (run calls s order) :=
  reflTransGen_run Moves.call s order

end Session

end StyleBuild
