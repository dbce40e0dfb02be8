import Mathlib.Logic.Relation
import StyleBuild.Proofs.Files.Components
import StyleBuild.Proofs.Publisher.Build
import StyleBuild.Proofs.Publisher.Stage

/-!
# A publication among edits of its sources

A publication that is watched stops at every question of its build, so that its
sources can be edited between two of its reads, and at every stage after that.
Each move finds the clock later than the one before, and an edit gives the
source the time at which it was made.

    asking     answer one question of the build
    staged     take one step of the publication

Without edits the questions come to what the stage `located` comes to
(`exists_iterate_located`).
-/

namespace StyleBuild

open Files

/-- A file that was read: what it held, and when. -/
structure SourceReading where
  path : Path
  content : ByteArray
  time : Nat

inductive Phase where
  | asking (id : String) (output : Path) (questions : Inquiry (Except Error (String × List Path)))
  | staged (stage : PublishStage)

/-- What a build leads to. -/
def Phase.ofBuild (id : String) (output : Path) : Except Error (String × List Path) → Phase
  | .error e => .staged (.finished (.error e))
  | .ok (css, sources) => .staged (.built ⟨id, output, css, sources⟩)

structure Publication where
  world : World
  phase : Phase
  /-- The files that were read, in order. -/
  readings : List SourceReading
  /-- When the record was made. -/
  stampedAt : Option Nat

namespace Publication

def start (w : World) (entry : String) : Publication := ⟨w, .staged (.started entry), [], none⟩

def advance (x : Publication) (nanoseconds : Nat) : Publication :=
  { x with world := x.world.advance nanoseconds }

/-- What is noted of an answer: the content, if there is one. -/
def noted (path : Path) (now : Nat) : Except Fault ByteArray → List SourceReading
  | .error _ => []
  | .ok content => [⟨path, content, now⟩]

/-- One question of the build, or one step of the publication. -/
def step (p : Publisher) (ask : Asking) (x : Publication) : Publication :=
  match x.phase with
  | .asking id output (.done result) => { x with phase := .ofBuild id output result }
  | .asking id output (.resolve token next) =>
      { x with phase := .asking id output (next ((p.importer x.world.files).resolve token)) }
  | .asking id output (.read path next) =>
      { x with
        phase := .asking id output (next (x.world.files.read path))
        readings := x.readings ++ noted path x.world.now (x.world.files.read path) }
  | .staged (.located entry id output) =>
      { x with phase := .asking id output (p.inquiry ask entry) }
  | .staged stage =>
      { x with
        world := (p.step x.world stage).1
        phase := .staged (p.step x.world stage).2
        stampedAt := stage.stampAfter x.world.now x.stampedAt }

/-- What can happen next, each time at a later clock. -/
inductive Moves (p : Publisher) (ask : Asking) : Publication → Publication → Prop
  | step (x : Publication) (nanoseconds : Nat) :
      Moves p ask x ((x.advance (nanoseconds + 1)).step p ask)
  | edit (x : Publication) (nanoseconds : Nat) {path : Path} {content : ByteArray} {files : Files}
      (source : IsSource path)
      (writes : x.world.files.Writes path content (x.world.now + (nanoseconds + 1) : Nat) files) :
      Moves p ask x { x with world := { x.world.advance (nanoseconds + 1) with files } }

variable {p : Publisher} {ask : Asking}

/-- Without edits every question gets its answer from the same files. -/
theorem exists_iterate_asking (p : Publisher) (ask : Asking) (id : String) (output : Path)
    (q : Inquiry (Except Error (String × List Path))) (x : Publication)
    (hx : x.phase = .asking id output q) :
    ∃ n, (((step p ask)^[n] x).world = x.world) ∧
      ((step p ask)^[n] x).phase = .ofBuild id output (q.run (p.importer x.world.files)) := by
  induction q generalizing x with
  | done result => exact ⟨1, by simp [step, hx, Inquiry.run]⟩
  | resolve token next ih =>
      have hstep : step p ask x =
          { x with
            phase := .asking id output (next ((p.importer x.world.files).resolve token)) } := by
        simp only [step, hx]
      obtain ⟨n, hworld, hphase⟩ := ih _ (step p ask x) (by rw [hstep])
      refine ⟨n + 1, ?_, ?_⟩
      · rw [Function.iterate_succ_apply, hworld, hstep]
      · rw [Function.iterate_succ_apply, hphase, hstep, Inquiry.run]
  | read path next ih =>
      have hstep : step p ask x =
          { x with
            phase := .asking id output (next (x.world.files.read path))
            readings := x.readings ++ noted path x.world.now (x.world.files.read path) } := by
        simp only [step, hx]
      obtain ⟨n, hworld, hphase⟩ := ih _ (step p ask x) (by rw [hstep])
      refine ⟨n + 1, ?_, ?_⟩
      · rw [Function.iterate_succ_apply, hworld, hstep]
      · rw [Function.iterate_succ_apply, hphase, hstep, Inquiry.run]
        rfl

/-- Without edits the questions lead to the outcome of the stage. -/
theorem exists_iterate_located (h : p.compiler.engine.Inquires ask) (x : Publication)
    {entry id : String} {output : Path} (hx : x.phase = .staged (.located entry id output)) :
    ∃ n, ((step p ask)^[n] x).world = (p.step x.world (.located entry id output)).1 ∧
      ((step p ask)^[n] x).phase = .staged (p.step x.world (.located entry id output)).2 := by
  have hstep : step p ask x = { x with phase := .asking id output (p.inquiry ask entry) } := by
    simp only [step, hx]
  obtain ⟨n, hworld, hphase⟩ := exists_iterate_asking p ask id output (p.inquiry ask entry)
    (step p ask x) (by rw [hstep])
  rw [hstep, ← Publisher.build_eq_run h] at hphase
  rw [hstep] at hworld
  refine ⟨n + 1, ?_, ?_⟩
  · rw [Function.iterate_succ_apply, hstep, hworld]
    unfold Publisher.step
    simp only
    split <;> rfl
  · rw [Function.iterate_succ_apply, hstep, hphase]
    unfold Publisher.step Phase.ofBuild
    simp only
    split <;> simp_all

end Publication

end StyleBuild
