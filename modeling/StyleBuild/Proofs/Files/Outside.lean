import Mathlib.Data.Set.Insert
import StyleBuild.Files.Replace
import StyleBuild.Proofs.Files.Reach

/-!
# What a change of files leaves alone

`SameOutside s f g` says that `g` has the files of `f` at every location outside
`s`, each with its content, mode and time, and still has all its directories.
Making directories changes no file at all; opening and replacing a file change
the file at the place of the path and no other. A replacement that fails changes
no file.
-/

namespace StyleBuild.Files

open StyleBuild.Path

/-- The same files outside `s`, and every directory that was there. -/
structure SameOutside (s : Set Location) (f g : Files) : Prop where
  home : g.home = f.home
  files : ∀ l, l ∉ s → ∀ x, g.nodeAt? l = some (.file x) ↔ f.nodeAt? l = some (.file x)
  directories : ∀ l, f.IsDirectoryAt l → g.IsDirectoryAt l

namespace SameOutside

variable {s t : Set Location} {f g h : Files}

@[refl] theorem refl (s : Set Location) (f : Files) : SameOutside s f f :=
  ⟨rfl, fun _ _ _ => Iff.rfl, fun _ h => h⟩

theorem mono (hst : s ⊆ t) (hfg : SameOutside s f g) : SameOutside t f g :=
  ⟨hfg.home, fun l hl => hfg.files l fun hs => hl (hst hs), hfg.directories⟩

theorem of_empty (hfg : SameOutside ∅ f g) (s : Set Location) : SameOutside s f g :=
  hfg.mono (Set.empty_subset s)

theorem trans (hfg : SameOutside s f g) (hgh : SameOutside s g h) : SameOutside s f h := by
  refine ⟨hgh.home.trans hfg.home, fun l hl x => ?_, fun l hl => ?_⟩
  · exact (hgh.files l hl x).trans (hfg.files l hl x)
  · exact hgh.directories l (hfg.directories l hl)

/-- A change inside `s`, then a change inside `t`. -/
theorem trans_union (hfg : SameOutside s f g) (hgh : SameOutside t g h) :
    SameOutside (s ∪ t) f h :=
  (hfg.mono Set.subset_union_left).trans (hgh.mono Set.subset_union_right)

/-- A location that can be reached can still be reached. -/
theorem walk (hfg : SameOutside s f g) {here l : Location} {segs : List (List Char)}
    (hw : f.walk here segs = .ok l) : g.walk here segs = .ok l := by
  induction segs generalizing here with
  | nil => exact hw
  | cons a rest ih =>
      have hd := isDirectoryAt_of_walk_cons hw
      rw [walk_cons_of_isDirectoryAt hd] at hw
      rw [walk_cons_of_isDirectoryAt (hfg.directories here hd)]
      split at hw
      · next ha => rw [if_pos ha]; exact ih hw
      · next ha =>
        rw [if_neg ha]
        split at hw
        · next hp => rw [if_pos hp]; exact ih hw
        · next hp => rw [if_neg hp]; exact ih hw

theorem reaches (hfg : SameOutside s f g) {p : Path} (hp : f.Reaches p) : g.Reaches p := by
  unfold Reaches at hp ⊢
  rw [hfg.home]
  exact ⟨hfg.walk hp.1, hfg.directories _ hp.2⟩

/-- A file outside `s` is found as before. -/
theorem find_file (hfg : SameOutside s f g) {p : Path} (hp : p.IsNamed) (hs : p.place f.home ∉ s)
    {l : Location} {x : StoredFile} (hf : f.find p = .ok (l, .file x)) :
    g.find p = .ok (l, .file x) := by
  obtain ⟨hreach, hl, hnode⟩ := (find_eq_ok_iff hp _ _).1 hf
  refine (find_eq_ok_iff hp _ _).2 ⟨hfg.reaches hreach, ?_, ?_⟩
  · rw [hfg.home]
    exact hl
  · rw [hfg.home]
    exact (hfg.files _ hs x).2 hnode

end SameOutside

/-- There is no directory at a location with a file, and none at one without a node. -/
theorem not_isDirectoryAt_of_file {f : Files} {l : Location} {x : StoredFile}
    (h : f.nodeAt? l = some (.file x)) : ¬ f.IsDirectoryAt l := by
  rintro ⟨mode, modified, hd⟩
  rw [h] at hd
  cases hd

theorem not_isDirectoryAt_of_none {f : Files} {l : Location} (h : f.nodeAt? l = none) :
    ¬ f.IsDirectoryAt l := by
  rintro ⟨mode, modified, hd⟩
  rw [h] at hd
  cases hd

theorem sameOutside_put {f : Files} {l : Location} (node : Node) (h : ¬ f.IsDirectoryAt l) :
    SameOutside {l} f (f.put l node) := by
  refine ⟨rfl, fun l' hl' x => ?_, fun l' hd => ?_⟩
  · rw [nodeAt?_put, if_neg (Set.notMem_singleton_iff.1 hl')]
  · have hne : l' ≠ l := fun e => h (e ▸ hd)
    obtain ⟨mode, modified, hd⟩ := hd
    exact ⟨mode, modified, by rw [nodeAt?_put, if_neg hne, hd]⟩

theorem sameOutside_drop {f : Files} {l : Location} (h : ¬ f.IsDirectoryAt l) :
    SameOutside {l} f (f.drop l) := by
  refine ⟨rfl, fun l' hl' x => ?_, fun l' hd => ?_⟩
  · rw [nodeAt?_drop, if_neg (Set.notMem_singleton_iff.1 hl')]
  · have hne : l' ≠ l := fun e => h (e ▸ hd)
    obtain ⟨mode, modified, hd⟩ := hd
    exact ⟨mode, modified, by rw [nodeAt?_drop, if_neg hne, hd]⟩

theorem sameOutside_touchDirectory (f : Files) (now : Int) (l : Location) :
    SameOutside ∅ f (f.touchDirectory now l) := by
  unfold touchDirectory
  split
  · next mode modified hd =>
    refine ⟨rfl, fun l' _ x => ?_, fun l' hl' => ?_⟩
    · rw [nodeAt?_put]
      split
      · next e =>
        subst e
        simp [hd]
      · rfl
    · rw [IsDirectoryAt, nodeAt?_put]
      split
      · exact ⟨mode, now, rfl⟩
      · exact hl'
  · exact SameOutside.refl ∅ f

/-- A new directory is no file, and takes the place of none. -/
theorem sameOutside_put_directory {f : Files} {l : Location} (mode : Nat) (modified : Int)
    (h : f.nodeAt? l = none) : SameOutside ∅ f (f.put l (.directory mode modified)) := by
  refine ⟨rfl, fun l' _ x => ?_, fun l' hd => ?_⟩
  · rw [nodeAt?_put]
    split
    · next e =>
      subst e
      simp [h]
    · rfl
  · rw [IsDirectoryAt, nodeAt?_put]
    split
    · exact ⟨mode, modified, rfl⟩
    · exact hd

theorem sameOutside_addEntry {f : Files} (now : Int) {directory : Location} {name : List Char}
    (node : Node) (h : ¬ f.IsDirectoryAt (directory ++ [name])) :
    SameOutside {directory ++ [name]} f (f.addEntry now directory name node) :=
  (sameOutside_put node h).trans
    ((sameOutside_touchDirectory _ now directory).of_empty _)

theorem nodeAt?_addEntry_file (f : Files) (now : Int) (directory : Location) (name : List Char)
    (x : StoredFile) :
    (f.addEntry now directory name (.file x)).nodeAt? (directory ++ [name]) =
      some (.file x) := by
  have h : (f.put (directory ++ [name]) (.file x)).nodeAt? (directory ++ [name]) =
      some (.file x) := by
    rw [nodeAt?_put, if_pos rfl]
  exact ((sameOutside_touchDirectory _ now directory).files _ (by simp) x).2 h

/-- Adding a file moves no file; the counter of ids is no part of what is found. -/
theorem sameOutside_addFile {f : Files} (now : Int) {directory : Location} {name : List Char}
    (content : ByteArray) (mode : Nat) (h : ¬ f.IsDirectoryAt (directory ++ [name])) :
    SameOutside {directory ++ [name]} f (f.addFile now directory name content mode) := by
  obtain ⟨hhome, hfiles, hdirs⟩ := sameOutside_addEntry now
    (.file ⟨f.nextId, content, mode, now⟩) h
  exact ⟨hhome, hfiles, hdirs⟩

theorem nodeAt?_addFile (f : Files) (now : Int) (directory : Location) (name : List Char)
    (content : ByteArray) (mode : Nat) :
    (f.addFile now directory name content mode).nodeAt? (directory ++ [name]) =
      some (.file ⟨f.nextId, content, mode, now⟩) :=
  nodeAt?_addEntry_file f now directory name _

theorem sameOutside_makeDirectory {f g : Files} {now : Int} {p : Path}
    (h : f.makeDirectory now p = .ok g) : SameOutside ∅ f g := by
  unfold makeDirectory at h
  split at h
  · cases h
  · cases h
  · next e he =>
    split at h
    · cases h
    · next hnone =>
      cases h
      exact (sameOutside_put_directory _ _ hnone).trans (sameOutside_touchDirectory _ _ _)

theorem sameOutside_createDirectoriesUpTo (f : Files) (now : Int) (fuel : Nat) (p : Path) :
    SameOutside ∅ f (f.createDirectoriesUpTo now fuel p).1 := by
  induction fuel generalizing f p with
  | zero => exact SameOutside.refl ∅ f
  | succ fuel ih =>
      rw [createDirectoriesUpTo]
      split
      · exact SameOutside.refl ∅ f
      · split
        · next g hg => exact sameOutside_makeDirectory hg
        · split
          · exact SameOutside.refl ∅ f
          · next parent hparent =>
            have hup := ih f parent
            split
            · next g e hg => rw [hg] at hup; exact hup
            · next g hg =>
              rw [hg] at hup
              split
              · next g' hg' => exact hup.trans (sameOutside_makeDirectory hg')
              · exact hup
        · exact SameOutside.refl ∅ f

/-- Making directories changes no file, whether it succeeds or not. -/
theorem sameOutside_createDirectories (f : Files) (now : Int) (p : Path) :
    SameOutside ∅ f (f.createDirectories now p).1 :=
  sameOutside_createDirectoriesUpTo f now _ p

/-- `g` is `f` after a file was written at a path, with this content and at this time. -/
structure Writes (path : Path) (content : ByteArray) (time : Int) (f g : Files) : Prop where
  same : SameOutside {path.place f.home} f g
  file : ∃ x, g.nodeAt? (path.place f.home) = some (.file x) ∧ x.content = content ∧
    x.modified = time

/-- `g` is `f` after the file at a path was removed. -/
structure Removes (path : Path) (f g : Files) : Prop where
  same : SameOutside {path.place f.home} f g
  gone : ∀ x, g.nodeAt? (path.place f.home) ≠ some (.file x)

theorem writes_put {f : Files} {path : Path} (x : StoredFile)
    (h : ¬ f.IsDirectoryAt (path.place f.home)) :
    f.Writes path x.content x.modified (f.put (path.place f.home) (.file x)) := by
  refine ⟨sameOutside_put _ h, x, ?_, rfl, rfl⟩
  rw [nodeAt?_put, if_pos rfl]

end StyleBuild.Files
