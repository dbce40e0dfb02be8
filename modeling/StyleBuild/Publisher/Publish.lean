import StyleBuild.OutputLock
import StyleBuild.Publisher.Basic

/-!
# Publishing an entry

A publication goes through stages, one step at a time, so that several of them
can be interleaved:

    started    name the output and make its directory
    located    compile the entry
    built      try the lock of the output
    locked     replace the output
    written    take the time
    stamped    store the record
    releasing  give the lock back

A lock that another writer holds ends the publication without an error and
without writing. An error while the lock is held gives the lock back first.
-/

namespace StyleBuild

inductive PublishOutcome where
  | written (output : Path) (fingerprint : Fingerprint)
  | lockHeld (output : Path)
  deriving DecidableEq, Repr

/-- What is to be published: the output, its text, and the files it was made from. -/
structure Build where
  id : String
  output : Path
  css : String
  sources : List Path
  deriving DecidableEq, Repr

def Build.fingerprint (b : Build) : Fingerprint := Fingerprint.of b.css.toUTF8

inductive PublishStage where
  | started (entry : String)
  | located (entry id : String) (output : Path)
  | built (build : Build)
  | locked (build : Build) (lock : Nat)
  | written (build : Build) (lock : Nat)
  | stamped (output : Path) (record : CompileRecord) (lock : Nat)
  | releasing (result : Except Error PublishOutcome) (lock : Nat)
  | finished (result : Except Error PublishOutcome)

/-- How many steps are left at most. -/
def PublishStage.stepsLeft : PublishStage → Nat
  | started _ => 7
  | located .. => 6
  | built _ => 5
  | locked .. => 4
  | written .. => 3
  | stamped .. => 2
  | releasing .. => 1
  | finished _ => 0

/-- The result of a publication that is finished. -/
def PublishStage.result? : PublishStage → Option (Except Error PublishOutcome)
  | finished result => some result
  | _ => none

namespace Publisher

/-- The record of a build, at the time of the world. -/
def recordOf (p : Publisher) (b : Build) (w : World) : CompileRecord :=
  { version := currentRecordVersion
    file := b.id
    fingerprint := b.fingerprint
    compiledAt := w.milliseconds.toUInt64
    production := p.production
    bindings := p.compiler.bindings
    imports := b.sources }

/-- Names the output of an entry and makes its directory. -/
def locate (p : Publisher) (w : World) (entry : String) : World × PublishStage :=
  match p.outputId entry with
  | .error e => (w, .finished (.error e))
  | .ok id =>
    match p.mounts.writable id with
    | .error e => (w, .finished (.error e))
    | .ok output =>
      match w.createParents output with
      | (w, .error e) => (w, .finished (.error e))
      | (w, .ok ()) => (w, .located entry id output)

/-- One step of a publication. -/
def step (p : Publisher) (w : World) : PublishStage → World × PublishStage
  | .started entry => p.locate w entry
  | .located entry id output =>
    match p.build w.files entry with
    | .error e => (w, .finished (.error e))
    | .ok (css, sources) => (w, .built ⟨id, output, css, sources⟩)
  | .built b =>
    match w.tryLock b.output with
    | (w, .error e) => (w, .finished (.error e))
    | (w, .ok .heldByOther) => (w, .finished (.ok (.lockHeld b.output)))
    | (w, .ok (.acquired lock)) => (w, .locked b lock)
  | .locked b lock =>
    match w.replaceFile b.output b.css.toUTF8 with
    | (w, .error e) => (w, .releasing (.error e) lock)
    | (w, .ok ()) => (w, .written b lock)
  | .written b lock => (w, .stamped b.output (p.recordOf b w) lock)
  | .stamped output record lock =>
    match p.store.put w record with
    | (w, .error e) => (w, .releasing (.error e) lock)
    | (w, .ok ()) => (w, .releasing (.ok (.written output record.fingerprint)) lock)
  | .releasing result lock => (w.unlock lock, .finished result)
  | .finished result => (w, .finished result)

theorem stepsLeft_step (p : Publisher) (w : World) (stage : PublishStage)
    (h : stage.result? = none) : (p.step w stage).2.stepsLeft < stage.stepsLeft := by
  unfold step
  split
  · unfold locate
    repeat' split
    all_goals simp [PublishStage.stepsLeft]
  · split <;> simp [PublishStage.stepsLeft]
  · split <;> simp [PublishStage.stepsLeft]
  · split <;> simp [PublishStage.stepsLeft]
  · simp [PublishStage.stepsLeft]
  · split <;> simp [PublishStage.stepsLeft]
  · simp [PublishStage.stepsLeft]
  · simp [PublishStage.result?] at h

/-- Runs a publication to its end without interruption. -/
def finish (p : Publisher) (w : World) (stage : PublishStage) :
    World × Except Error PublishOutcome :=
  match _h : stage.result? with
  | some result => (w, result)
  | none => finish p (p.step w stage).1 (p.step w stage).2
termination_by stage.stepsLeft
decreasing_by exact stepsLeft_step p w stage _h

/-- Publishes an entry without interruption. -/
def publish (p : Publisher) (w : World) (entry : String) :
    World × Except Error PublishOutcome :=
  p.finish w (.started entry)

/-- Publishes entries in order, up to the first error. -/
def publishEach (p : Publisher) : World → List String →
    World × Except Error (List (String × PublishOutcome))
  | w, [] => (w, .ok [])
  | w, entry :: rest =>
    match p.publish w entry with
    | (w, .error e) => (w, .error e)
    | (w, .ok outcome) =>
      match p.publishEach w rest with
      | (w, .error e) => (w, .error e)
      | (w, .ok outcomes) => (w, .ok ((entry, outcome) :: outcomes))

/-- Publishes every entry of the publisher. -/
def compileAll (p : Publisher) (w : World) :
    World × Except Error (List (String × PublishOutcome)) :=
  p.publishEach w p.entries

end Publisher

end StyleBuild
