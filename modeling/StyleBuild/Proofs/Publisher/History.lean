import Mathlib.Logic.Function.Basic
import Mathlib.Logic.Relation
import StyleBuild.Proofs.Publisher.Build
import StyleBuild.Proofs.Publisher.Whole

/-!
# Histories of a publisher

In a history a publisher publishes entries, one after the other, and between
two publications its variables may change, the clock may be set, and sources may
be made, edited and removed. What is written bears the time of a later
millisecond than every record (`Later`).

For every entry a history keeps the files from which its recorded build was
made. The record of an entry attests that build, and every source that is not
what it was then bears a later time than the record (`Attests`). Every move
keeps this up (`Sound.of_moves`).
-/

namespace StyleBuild

open Files

/-- The publisher with other variables. -/
def Publisher.withBindings (p : Publisher) (bindings : Dictionary String) : Publisher :=
  { p with compiler := { p.compiler with bindings } }

structure History where
  bindings : Dictionary String
  world : World
  /-- The files from which the recorded build of an entry was made. -/
  builtFrom : String → Option Files

namespace History

def start (p : Publisher) (w : World) : History := ⟨p.compiler.bindings, w, fun _ => none⟩

/-- The publisher as it is now. -/
def publisher (p : Publisher) (s : History) : Publisher := p.withBindings s.bindings

def publish (p : Publisher) (s : History) (entry : String) : History :=
  { s with
    world := ((s.publisher p).publish s.world entry).1
    builtFrom :=
      if (PublishStage.finished ((s.publisher p).publish s.world entry).2).hasWritten then
        Function.update s.builtFrom entry (some ((s.publisher p).locate s.world entry).1.files)
      else s.builtFrom }

/-- The time is in a later millisecond than every record. -/
def Later (p : Publisher) (s : History) (time : Int) : Prop :=
  ∀ entry id r, p.outputId entry = .ok id → p.store.get s.world id = .ok (some r) →
    r.compiledAt < millisecond time

/-- What can happen next. -/
inductive Moves (p : Publisher) : History → History → Prop
  | publish (s : History) (entry : String) : Moves p s (s.publish p entry)
  | setVariables (s : History) {bindings : Dictionary String} {compiler : Compiler}
      (set : (s.publisher p).compiler.setVariables bindings = .ok compiler) :
      Moves p s { s with bindings := compiler.bindings }
  | write (s : History) {path : Path} {content : ByteArray} {time : Int} {files : Files}
      (source : IsSource path) (writes : s.world.files.Writes path content time files)
      (later : Later p s time) : Moves p s { s with world := { s.world with files } }
  | remove (s : History) {path : Path} {files : Files} (source : IsSource path)
      (removes : s.world.files.Removes path files) :
      Moves p s { s with world := { s.world with files } }
  | clock (s : History) (now : Nat) : Moves p s { s with world := { s.world with now } }

/-- The record is of a build from these files, and what is another source now is later than the
record. -/
structure Attests (p : Publisher) (entry : String) (files : Files) (r : CompileRecord)
    (w : World) : Prop where
  home : w.files.home = files.home
  build : ∃ css, (p.withBindings r.bindings).build files entry = .ok (css, r.imports) ∧
    r.fingerprint = Fingerprint.of css.toUTF8
  fresh : ∀ path, IsSource path → ∀ x, files.nodeAt? (path.place files.home) = some (.file x) →
    ∀ y, w.files.nodeAt? (path.place files.home) = some (.file y) →
      y.content = x.content ∨ r.compiledAt < millisecond y.modified

/-- Every record attests the build that is kept for its entry. -/
structure Sound (p : Publisher) (s : History) : Prop where
  store : p.store.Exists s.world
  records : ∀ entry id, p.outputId entry = .ok id →
    (s.builtFrom entry = none ∧ p.store.Vacant s.world id) ∨
      ∃ files r, s.builtFrom entry = some files ∧ p.store.get s.world id = .ok (some r) ∧
        Attests p entry files r s.world

variable {p : Publisher} {s t : History} {w : World}

theorem sound_start (hstore : p.store.Exists w)
    (hvacant : ∀ entry id, p.outputId entry = .ok id → p.store.Vacant w id) :
    Sound p (start p w) :=
  ⟨hstore, fun entry id hid => Or.inl ⟨rfl, hvacant entry id hid⟩⟩

/-- A source is as it was, or later than every record. -/
def KeepsSources (p : Publisher) (s : History) (w : World) : Prop :=
  ∀ path, IsSource path → ∀ y, w.files.nodeAt? (path.place s.world.files.home) = some (.file y) →
    s.world.files.nodeAt? (path.place s.world.files.home) = some (.file y) ∨ Later p s y.modified

theorem Attests.mono {entry id : String} {files : Files} {r : CompileRecord}
    (hhome : w.files.home = s.world.files.home) (hkeeps : KeepsSources p s w)
    (hid : p.outputId entry = .ok id) (hget : p.store.get s.world id = .ok (some r))
    (h : Attests p entry files r s.world) : Attests p entry files r w := by
  refine ⟨hhome.trans h.home, h.build, fun path hpath x hx y hy => ?_⟩
  rw [← h.home] at hy
  rcases hkeeps path hpath y hy with hy | hlater
  · rw [h.home] at hy
    exact h.fresh path hpath x hx y hy
  · exact Or.inr (hlater entry id r hid hget)

/-- A change of the world that leaves the record of an entry alone. -/
theorem Sound.record_of_unmoved {entry id : String} (h : Sound p s)
    (hhome : w.files.home = s.world.files.home) (hkeeps : KeepsSources p s w)
    (hid : p.outputId entry = .ok id) (hunmoved : p.store.Unmoved id s.world w) :
    (s.builtFrom entry = none ∧ p.store.Vacant w id) ∨
      ∃ files r, s.builtFrom entry = some files ∧ p.store.get w id = .ok (some r) ∧
        Attests p entry files r w := by
  rcases h.records entry id hid with ⟨hnone, hvacant⟩ | ⟨files, r, hfiles, hget, hattests⟩
  · exact Or.inl ⟨hnone, hunmoved.vacant hvacant⟩
  · exact Or.inr ⟨files, r, hfiles, hunmoved.get r hget, hattests.mono hhome hkeeps hid hget⟩

/-- A change of a source. -/
theorem Sound.of_source {path : Path} {files : Files} (h : Sound p s) (hpath : IsSource path)
    (hsame : SameOutside {path.place s.world.files.home} s.world.files files)
    (hlater : ∀ y, files.nodeAt? (path.place s.world.files.home) = some (.file y) →
      Later p s y.modified) : Sound p { s with world := { s.world with files } } := by
  refine ⟨exists_of_length_eq rfl h.store, fun entry id hid => ?_⟩
  refine h.record_of_unmoved hsame.home (fun path' _ y hy => ?_) hid ?_
  · by_cases hplace : path'.place s.world.files.home = path.place s.world.files.home
    · rw [hplace] at hy
      exact Or.inr (hlater y hy)
    · exact Or.inl ((hsame.files _ hplace y).1 hy)
  · refine RecordStore.unmoved_of_sameOutside hsame rfl fun l hl hmem => ?_
    rw [Set.mem_singleton_iff.1 hmem] at hl
    exact source_notMem_places hpath _ hl

/-- The record of a publication attests its build. -/
theorem attests_publish {entry : String} (hstore : p.store.Exists s.world)
    (hwritten :
      (PublishStage.finished ((s.publisher p).publish s.world entry).2).hasWritten = true) :
    ∃ id r, p.outputId entry = .ok id ∧
      p.store.get (s.publish p entry).world id = .ok (some r) ∧
      Attests p entry ((s.publisher p).locate s.world entry).1.files r
        (s.publish p entry).world := by
  obtain ⟨hsources, -, -, hpublished⟩ :=
    (s.publisher p).publish_spec hstore entry
  obtain ⟨stamp, b, v, hplaced, hbuild, -, -, hget⟩ := hpublished hwritten
  have hlocate := (Publisher.sameOutside_locate (p := s.publisher p) s.world entry).files
  refine ⟨b.id, _, hplaced.id, hget, hsources.home.trans hlocate.home.symm,
    ⟨b.css, hbuild, rfl⟩, fun path hpath x hx y hy => Or.inl ?_⟩
  rw [hlocate.home] at hx hy
  have hx' := (hlocate.files _ (fun hmem => hmem) x).1 hx
  have hy' := (hsources.files _ (fun hmem => hmem path hpath rfl) y).1 hy
  rw [hx'] at hy'
  cases hy'
  rfl

theorem Sound.publish (h : Sound p s) (entry : String) : Sound p (s.publish p entry) := by
  obtain ⟨hsources, hmemory, hunmoved, -⟩ :=
    Publisher.publish_spec (p := s.publisher p) h.store entry
  have hkeeps : KeepsSources p s (s.publish p entry).world := fun path hpath y hy =>
    Or.inl ((hsources.files _ (fun hmem => hmem path hpath rfl) y).1 hy)
  refine ⟨exists_of_length_eq hmemory h.store, fun entry' id hid => ?_⟩
  by_cases hwritten :
      (PublishStage.finished ((s.publisher p).publish s.world entry).2).hasWritten = true
  · by_cases hentry : entry' = entry
    · subst hentry
      obtain ⟨id', r, hid', hget, hattests⟩ := attests_publish h.store hwritten
      obtain rfl := Except.ok.inj (hid'.symm.trans hid)
      refine Or.inr ⟨_, r, ?_, hget, hattests⟩
      simp only [History.publish, if_pos hwritten, Function.update_self]
    · have hother := h.record_of_unmoved hsources.home hkeeps hid (hunmoved id fun _ own hown =>
        Publisher.apart_of_ne hown hid (Ne.symm hentry) _)
      have hsame : (s.publish p entry).builtFrom entry' = s.builtFrom entry' := by
        simp only [History.publish, if_pos hwritten, Function.update_of_ne hentry]
      rw [hsame]
      exact hother
  · have hother := h.record_of_unmoved hsources.home hkeeps hid
      (hunmoved id fun hwritten' => absurd hwritten' hwritten)
    have hsame : (s.publish p entry).builtFrom entry' = s.builtFrom entry' := by
      simp only [History.publish, if_neg hwritten]
    rw [hsame]
    exact hother

theorem Sound.of_moves (h : Sound p s) (hmoves : Moves p s t) : Sound p t := by
  cases hmoves with
  | publish entry => exact h.publish entry
  | setVariables hset => exact ⟨h.store, h.records⟩
  | write hpath hwrites hlater =>
      apply h.of_source hpath hwrites.same
      intro y hy
      obtain ⟨x, hx, -, htime⟩ := hwrites.file
      rw [hx] at hy
      cases hy
      rw [htime]
      exact hlater
  | remove hpath hremoves =>
      exact h.of_source hpath hremoves.same fun y hy => absurd hy (hremoves.gone y)
  | clock now =>
      refine ⟨exists_of_length_eq rfl h.store, fun entry id hid => ?_⟩
      exact h.record_of_unmoved rfl (fun _ _ y hy => Or.inl hy) hid
        (RecordStore.unmoved_of_eq rfl rfl)

/-- What holds along every history that starts without records. -/
theorem sound_of_run (hstore : p.store.Exists w)
    (hvacant : ∀ entry id, p.outputId entry = .ok id → p.store.Vacant w id)
    (hrun : Relation.ReflTransGen (Moves p) (start p w) s) : Sound p s := by
  induction hrun with
  | refl => exact sound_start hstore hvacant
  | tail _ hmoves ih => exact ih.of_moves hmoves

end History

end StyleBuild
