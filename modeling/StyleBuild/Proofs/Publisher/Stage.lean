import StyleBuild.Proofs.Publisher.Kept
import StyleBuild.Proofs.Publisher.Stale

/-!
# What a publication has done at a stage

`Carries` says what is known of a publication at each stage while nobody else
writes its output or its record: from the stage `written` on the output holds
the build, and at the end the record of the build is found. Each step carries
this on (`Carries.step`), and so does every change to other files
(`Carries.mono`).
-/

namespace StyleBuild

open Files

/-- When the record was made, after a step from this stage. -/
def PublishStage.stampAfter (now : Nat) (stamp : Option Nat) : PublishStage → Option Nat
  | written .. => some now
  | _ => stamp

namespace Publisher

/-- The build has the id and the output of the entry. -/
structure Placed (p : Publisher) (entry : String) (b : Build) : Prop where
  id : p.outputId entry = .ok b.id
  output : p.mounts.writable b.id = .ok b.output

/-- A build that is `good` is in the output, and its record in the store. -/
def IsPublished (p : Publisher) (entry : String) (good : Build → Prop) (stamp : Option Nat)
    (w : World) : Prop :=
  ∃ b v, p.Placed entry b ∧ good b ∧ w.files.read b.output = .ok b.css.toUTF8 ∧
    stamp = some v.now ∧ p.store.get w b.id = .ok (some (p.recordOf b v))

/-- What is known at a stage; `good` is what is known of the build. -/
def Carries (p : Publisher) (entry : String) (good : Build → Prop) (stamp : Option Nat)
    (w : World) : PublishStage → Prop
  | .started e => e = entry
  | .located e id output =>
      e = entry ∧ p.outputId entry = .ok id ∧ p.mounts.writable id = .ok output
  | .built b => p.Placed entry b ∧ good b
  | .locked b _ => p.Placed entry b ∧ good b
  | .written b _ => p.Placed entry b ∧ good b ∧ w.files.read b.output = .ok b.css.toUTF8
  | .stamped _ r _ => ∃ b v, p.Placed entry b ∧ good b ∧
      w.files.read b.output = .ok b.css.toUTF8 ∧ stamp = some v.now ∧ r = p.recordOf b v
  | .releasing (.ok (.written ..)) _ => p.IsPublished entry good stamp w
  | .finished (.ok (.written ..)) => p.IsPublished entry good stamp w
  | _ => True

variable {p : Publisher} {entry : String} {good : Build → Prop} {stamp : Option Nat}
variable {v w : World} {stage stage' : PublishStage}

theorem Placed.isOutput {b : Build} (h : p.Placed entry b) : IsOutput b.output :=
  Publisher.isOutput h.id h.output

theorem IsPublished.mono
    (hkeeps : ∀ b, p.Placed entry b → Keeps b.id b.output p.store v w)
    (h : p.IsPublished entry good stamp v) : p.IsPublished entry good stamp w := by
  obtain ⟨b, u, hplaced, hgood, hread, hstamp, hget⟩ := h
  exact ⟨b, u, hplaced, hgood, (hkeeps b hplaced).output _ hread, hstamp,
    (hkeeps b hplaced).record _ hget⟩

/-- A record that was published decides by its sources alone whether the output is current. -/
theorem IsPublished.needsCompile_eq (h : p.IsPublished entry good stamp w) :
    ∃ id r t, p.outputId entry = .ok id ∧ p.store.get w id = .ok (some r) ∧ stamp = some t ∧
      r.compiledAt = millisecond t ∧ p.needsCompile w entry =
        .ok (!r.imports.all (isCurrentSource w.files r.compiledAt)) := by
  obtain ⟨b, u, hplaced, -, hread, hstamp, hget⟩ := h
  have hfind := Mounts.find?_of_writable hplaced.output (isFile_of_read hread)
  refine ⟨b.id, p.recordOf b u, u.now, hplaced.id, hget, hstamp, rfl, ?_⟩
  rw [needsCompile_of_get hplaced.id hget hfind hread]
  simp [recordOf, Build.fingerprint]

theorem Carries.mono (hkeeps : ∀ b, p.Placed entry b → Keeps b.id b.output p.store v w)
    (h : p.Carries entry good stamp v stage) : p.Carries entry good stamp w stage := by
  cases stage with
  | written b lock =>
      obtain ⟨hplaced, hgood, hread⟩ := h
      exact ⟨hplaced, hgood, (hkeeps b hplaced).output _ hread⟩
  | stamped o r lock =>
      obtain ⟨b, u, hplaced, hgood, hread, hrest⟩ := h
      exact ⟨b, u, hplaced, hgood, (hkeeps b hplaced).output _ hread, hrest⟩
  | releasing result lock =>
      rcases result with e | outcome
      · trivial
      · cases outcome with
        | written path fingerprint => exact IsPublished.mono hkeeps h
        | lockHeld path => trivial
  | finished result =>
      rcases result with e | outcome
      · trivial
      · cases outcome with
        | written path fingerprint => exact IsPublished.mono hkeeps h
        | lockHeld path => trivial
  | started e => exact h
  | located e id output => exact h
  | built b => exact h
  | locked b lock => exact h

theorem Carries.isOutput (h : p.Carries entry good stamp w stage) :
    ∀ b ∈ stage.build?, IsOutput b.output := by
  intro b hb
  cases stage with
  | built b' =>
      cases hb
      exact h.1.isOutput
  | locked b' lock =>
      cases hb
      exact h.1.isOutput
  | _ => cases hb

/-- A step carries on what is known. What is known of a new build is up to the build. -/
theorem Carries.step (hadvances : p.Advances v stage w stage') (hstore : p.store.Exists v)
    (hgood : ∀ e id output css sources, stage = .located e id output →
      p.build v.files e = .ok (css, sources) → good ⟨id, output, css, sources⟩)
    (h : p.Carries entry good stamp v stage) :
    p.Carries entry good (stage.stampAfter v.now stamp) w stage' := by
  cases hadvances with
  | unnamed quiet => trivial
  | named quiet hid houtput =>
      subst h
      exact ⟨rfl, hid, houtput⟩
  | rejected => trivial
  | compiled hbuild =>
      obtain ⟨rfl, hid, houtput⟩ := h
      exact ⟨⟨hid, houtput⟩, hgood _ _ _ _ _ rfl hbuild⟩
  | unlocked tries => trivial
  | busy tries => trivial
  | acquired tries => exact h
  | unwritten quiet => trivial
  | wrote same hread => exact ⟨h.1, h.2, hread h.1.isOutput.isNamed⟩
  | stamped =>
      obtain ⟨hplaced, hb, hread⟩ := h
      exact ⟨_, v, hplaced, hb, hread, rfl, rfl⟩
  | unrecorded quiet => trivial
  | recorded hput =>
      obtain ⟨b, u, hplaced, hb, hread, hstamp, rfl⟩ := h
      obtain ⟨hsame, -⟩ := RecordStore.put_ok hput
      have hkept := hsame.read hplaced.isOutput.isNamed
        (output_notMem_places hplaced.isOutput _) hread
      exact ⟨b, u, hplaced, hb, hkept, hstamp,
        RecordStore.get_put hstore (UInt32.le_refl _) hput⟩
  | @released result lock =>
      rcases result with e | outcome
      · trivial
      · cases outcome with
        | written path fingerprint =>
            exact IsPublished.mono (fun b hplaced => keeps_of_eq rfl rfl) h
        | lockHeld path => trivial
  | ended => exact h

end Publisher

end StyleBuild
