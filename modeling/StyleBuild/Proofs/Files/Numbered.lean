import StyleBuild.OutputLock
import StyleBuild.Proofs.Files.Replacement

/-!
# Ids of files are used once

`f.NumbersOn g` says that every file of `g` has the id of a file of `f` or a new
one, and that new ones were counted. Every change of files numbers on, so the
ids that are in use stay below the counter (`NumbersOn.numbered`). With the ids
of the locks that are held it is the same (`World.Numbered`): nobody can hold
the lock of a file that is still to be made.
-/

namespace StyleBuild

namespace Files

open StyleBuild.Path

variable {f g h : Files} {now : Int} {l : Location} {p : Path}

/-- Every id in use is below the counter. -/
def Numbered (f : Files) : Prop := ∀ l x, f.nodeAt? l = some (.file x) → x.id < f.nextId

theorem numbered_atHome (home : Location) (now : Int) : (atHome home now).Numbered :=
  fun l x hx => absurd hx (nodeAt?_atHome_ne_file home l now x)

/-- The files of `g` are files of `f`, perhaps changed or moved, and new ones. -/
structure NumbersOn (f g : Files) : Prop where
  le : f.nextId ≤ g.nextId
  ids : ∀ l x, g.nodeAt? l = some (.file x) →
    (∃ l' y, f.nodeAt? l' = some (.file y) ∧ y.id = x.id) ∨ f.nextId ≤ x.id ∧ x.id < g.nextId

namespace NumbersOn

theorem numbered (hfg : f.NumbersOn g) (hf : f.Numbered) : g.Numbered := by
  intro l x hx
  rcases hfg.ids l x hx with ⟨l', y, hy, hid⟩ | ⟨-, hlt⟩
  · have hle := hfg.le
    have hlt := hf l' y hy
    omega
  · exact hlt

@[refl] theorem refl (f : Files) : f.NumbersOn f := ⟨le_rfl, fun l x hx => Or.inl ⟨l, x, hx, rfl⟩⟩

theorem trans (hfg : f.NumbersOn g) (hgh : g.NumbersOn h) : f.NumbersOn h := by
  have hle := hfg.le
  have hle' := hgh.le
  refine ⟨hle.trans hle', fun l x hx => ?_⟩
  rcases hgh.ids l x hx with ⟨l', y, hy, hid⟩ | ⟨hge, hlt⟩
  · rcases hfg.ids l' y hy with ⟨l'', z, hz, hid'⟩ | ⟨hge, hlt⟩
    · exact Or.inl ⟨l'', z, hz, hid'.trans hid⟩
    · right
      omega
  · right
    omega

end NumbersOn

theorem numbersOn_put_directory (f : Files) (l : Location) (mode : Nat) (modified : Int) :
    f.NumbersOn (f.put l (.directory mode modified)) := by
  refine ⟨le_rfl, fun l' x hx => ?_⟩
  rw [nodeAt?_put] at hx
  split at hx
  · cases hx
  · exact Or.inl ⟨l', x, hx, rfl⟩

theorem numbersOn_touchDirectory (f : Files) (now : Int) (l : Location) :
    f.NumbersOn (f.touchDirectory now l) := by
  unfold touchDirectory
  split
  · exact numbersOn_put_directory f l _ now
  · exact NumbersOn.refl f

theorem numbersOn_addEntry_directory (f : Files) (now : Int) (directory : Location)
    (name : List Char) (mode : Nat) (modified : Int) :
    f.NumbersOn (f.addEntry now directory name (.directory mode modified)) :=
  (numbersOn_put_directory f _ mode modified).trans (numbersOn_touchDirectory _ now directory)

theorem numbersOn_drop (f : Files) (l : Location) : f.NumbersOn (f.drop l) := by
  refine ⟨le_rfl, fun l' x hx => ?_⟩
  rw [nodeAt?_drop] at hx
  split at hx
  · cases hx
  · exact Or.inl ⟨l', x, hx, rfl⟩

theorem numbersOn_withdraw (f : Files) (now : Int) (directory : Location) (name : List Char) :
    f.NumbersOn (f.withdraw now directory name) :=
  (numbersOn_drop f _).trans (numbersOn_touchDirectory _ now directory)

theorem nextId_addEntry (f : Files) (now : Int) (directory : Location) (name : List Char)
    (node : Node) : (f.addEntry now directory name node).nextId = f.nextId := by
  unfold addEntry touchDirectory
  split <;> rfl

/-- The files after one was put into a directory. -/
theorem eq_or_of_addEntry {directory : Location} {name : List Char} {x y : StoredFile}
    (h : (f.addEntry now directory name (.file x)).nodeAt? l = some (.file y)) :
    y = x ∨ f.nodeAt? l = some (.file y) := by
  have hput := ((sameOutside_touchDirectory _ now directory).files l (Set.notMem_empty l) y).1 h
  rw [nodeAt?_put] at hput
  split at hput
  · cases hput
    exact Or.inl rfl
  · exact Or.inr hput

/-- A new file has the id that the counter gives. -/
theorem numbersOn_addFile (f : Files) (now : Int) (directory : Location) (name : List Char)
    (content : ByteArray) (mode : Nat) :
    f.NumbersOn (f.addFile now directory name content mode) := by
  refine ⟨Nat.le_succ _, fun l x hx => ?_⟩
  have hentry : (f.addEntry now directory name
      (.file ⟨f.nextId, content, mode, now⟩)).nodeAt? l = some (.file x) := hx
  rcases eq_or_of_addEntry hentry with rfl | hold
  · exact Or.inr ⟨le_rfl, Nat.lt_succ_self _⟩
  · exact Or.inl ⟨l, x, hold, rfl⟩

theorem numbersOn_makeDirectory (h : f.makeDirectory now p = .ok g) : f.NumbersOn g := by
  unfold makeDirectory at h
  split at h
  · cases h
  · cases h
  · split at h
    · cases h
    · cases h
      exact numbersOn_addEntry_directory f _ _ _ _ _

theorem numbersOn_createDirectoriesUpTo (f : Files) (now : Int) (fuel : Nat) (p : Path) :
    f.NumbersOn (f.createDirectoriesUpTo now fuel p).1 := by
  induction fuel generalizing f p with
  | zero => exact NumbersOn.refl f
  | succ fuel ih =>
      rw [createDirectoriesUpTo]
      split
      · exact NumbersOn.refl f
      · split
        · next g hg => exact numbersOn_makeDirectory hg
        · split
          · exact NumbersOn.refl f
          · next parent _ =>
            have hup := ih f parent
            split
            · next g e hg => rw [hg] at hup; exact hup
            · next g hg =>
              rw [hg] at hup
              split
              · next g' hg' => exact hup.trans (numbersOn_makeDirectory hg')
              · exact hup
        · exact NumbersOn.refl f

/-- A file that is moved keeps its id. -/
theorem numbersOn_moveOver {directory : Location} {name : List Char}
    (h : f.moveOver now directory name p = .ok g) : f.NumbersOn g := by
  unfold moveOver at h
  split at h
  · next x hx =>
    split at h
    · cases h
    · cases h
    · split at h
      · cases h
      · split at h
        · cases h
        · cases h
          have hwithdraw := numbersOn_withdraw f now directory name
          constructor
          · rw [nextId_addEntry]
            exact hwithdraw.le
          · intro l y hy
            rw [nextId_addEntry]
            rcases eq_or_of_addEntry hy with rfl | hold
            · exact Or.inl ⟨_, y, hx, rfl⟩
            · exact hwithdraw.ids l y hold
  · cases h

theorem numbersOn_replace (f : Files) (now : Int) (p : Path) (content : ByteArray) :
    f.NumbersOn (f.replace now p content).1 := by
  rw [replace_eq]
  split
  · exact NumbersOn.refl f
  · next directory _ =>
    have hadd := numbersOn_addFile f now directory f.freshName content (f.modeFor p)
    split
    · next g hmove => exact hadd.trans (numbersOn_moveOver hmove)
    · exact hadd.trans (numbersOn_withdraw _ now directory f.freshName)

theorem numbersOn_openForWriting (h : f.openForWriting now p = .ok (g, l)) : f.NumbersOn g := by
  unfold openForWriting at h
  split at h
  · cases h
  · cases h
  · next e he =>
    split at h
    · cases h
    · simp only at h
      split at h
      · cases h
      · cases h
        exact NumbersOn.refl f
      · cases h
        exact numbersOn_addFile f now e.directory e.name _ _

end Files

namespace World

open Files

variable {w : World}

/-- The ids that are in use, by files or as locks, are below the counter, and no lock is held
twice. -/
structure Numbered (w : World) : Prop where
  files : w.files.Numbered
  held : ∀ lock ∈ w.held, lock < w.files.nextId
  nodup : w.held.Nodup

/-- A change of files by which no lock is taken. -/
theorem Numbered.of_sublist {v : World} (h : v.Numbered) (hfiles : v.files.NumbersOn w.files)
    (hheld : w.held.Sublist v.held) : w.Numbered :=
  ⟨hfiles.numbered h.files,
    fun lock hlock => (h.held lock (hheld.subset hlock)).trans_le hfiles.le, h.nodup.sublist hheld⟩

/-- A change of files by which the lock of a file is taken. -/
theorem Numbered.of_cons {v : World} {l : Location} {x : StoredFile} (h : v.Numbered)
    (hfiles : v.files.NumbersOn w.files) (hheld : w.held = x.id :: v.held) (hfree : x.id ∉ v.held)
    (hx : w.files.nodeAt? l = some (.file x)) : w.Numbered := by
  have hnumbered := hfiles.numbered h.files
  refine ⟨hnumbered, fun lock hlock => ?_, ?_⟩
  · rw [hheld, List.mem_cons] at hlock
    rcases hlock with rfl | hlock
    · exact hnumbered l x hx
    · exact (h.held lock hlock).trans_le hfiles.le
  · rw [hheld]
    exact List.nodup_cons.2 ⟨hfree, h.nodup⟩

theorem createParents_numbersOn (w : World) (p : Path) :
    w.files.NumbersOn (w.createParents p).1.files := by
  unfold createParents
  split
  · exact NumbersOn.refl _
  · next parent _ =>
    have h := numbersOn_createDirectoriesUpTo w.files w.now (parent.components.length + 1) parent
    split
    · next g hg => rw [createDirectories] at hg; rw [hg] at h; exact h
    · next g e hg => rw [createDirectories] at hg; rw [hg] at h; exact h

theorem replaceFile_numbersOn (w : World) (p : Path) (content : ByteArray) :
    w.files.NumbersOn (w.replaceFile p content).1.files := by
  have h := numbersOn_replace w.files w.now p content
  unfold replaceFile
  split
  · next g hg => rw [hg] at h; exact h
  · next g e hg => rw [hg] at h; exact h

theorem tryLock_numbersOn (w : World) (output : Path) :
    w.files.NumbersOn (w.tryLock output).1.files := by
  unfold tryLock
  split
  · exact NumbersOn.refl _
  · next g l hg =>
    have h := numbersOn_openForWriting hg
    simp only
    split
    · split
      · exact h
      · exact h
    · exact h

end World

end StyleBuild
