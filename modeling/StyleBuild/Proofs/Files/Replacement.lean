import StyleBuild.Proofs.Files.Outside

/-!
# Opening and replacing files

The new content of a file is prepared under a name that is longer than every
name in use, so it takes the place of nothing (`nodeAt?_freshName`). After a
replacement the path holds exactly the content and every other file is as
before; after one that failed, all files are (`replace_ok` and
`replace_error`). Opening a file for writing makes an empty one where there was
none and otherwise changes nothing (`openForWriting_ok`).
-/

namespace StyleBuild.Files

open StyleBuild.Path

theorem le_foldl_max {α : Type} (g : α → Nat) (l : List α) (n : Nat) :
    n ≤ l.foldl (fun n e => max n (g e)) n ∧
      ∀ e ∈ l, g e ≤ l.foldl (fun n e => max n (g e)) n := by
  induction l generalizing n with
  | nil => simp
  | cons a l ih =>
      obtain ⟨hn, hl⟩ := ih (max n (g a))
      rw [List.foldl_cons]
      refine ⟨le_trans (le_max_left _ _) hn, fun e he => ?_⟩
      rcases List.mem_cons.1 he with rfl | he
      · exact le_trans (le_max_right _ _) hn
      · exact hl e he

theorem length_lt_freshName {f : Files} {l : Location} {node : Node} {s : List Char}
    (h : (l, node) ∈ f.nodes) (hs : s ∈ l) : s.length < f.freshName.length := by
  have hin : s.length ≤ l.foldl (fun n s => max n s.length) 0 := (le_foldl_max _ l 0).2 s hs
  have hout := (le_foldl_max (fun e : Location × Node => e.1.foldl (fun n s => max n s.length) 0)
    f.nodes 0).2 (l, node) h
  have hfresh : f.freshName.length = 4 + f.nodes.foldl
      (fun n e => max n (e.1.foldl (fun n s => max n s.length) 0)) 0 := by
    simp only [freshName, List.length_append, List.length_replicate]
    rfl
  simp only at hout
  omega

/-- Nothing has the name of a file that is prepared. -/
theorem nodeAt?_freshName (f : Files) (directory : Location) :
    f.nodeAt? (directory ++ [f.freshName]) = none := by
  cases hnode : f.nodeAt? (directory ++ [f.freshName]) with
  | none => rfl
  | some node =>
      obtain ⟨before, after, hl, -⟩ := List.lookup_eq_some_iff.1 hnode
      have hmem : (directory ++ [f.freshName], node) ∈ f.nodes := by simp [hl]
      have hlt := length_lt_freshName hmem (List.mem_append_right _ (List.mem_singleton_self _))
      exact absurd hlt (Nat.lt_irrefl _)

theorem isDirectoryAt_touchDirectory_iff (f : Files) (now : Int) (l l' : Location) :
    (f.touchDirectory now l).IsDirectoryAt l' ↔ f.IsDirectoryAt l' := by
  refine ⟨fun h => ?_, (sameOutside_touchDirectory f now l).directories l'⟩
  unfold touchDirectory at h
  split at h
  · next mode modified hd =>
    rw [IsDirectoryAt, nodeAt?_put] at h
    split at h
    · next e =>
      subst e
      exact ⟨mode, modified, hd⟩
    · exact h
  · exact h

theorem isDirectoryAt_of_drop {f : Files} {l l' : Location} (h : (f.drop l).IsDirectoryAt l') :
    f.IsDirectoryAt l' := by
  obtain ⟨mode, modified, hd⟩ := h
  rw [nodeAt?_drop] at hd
  split at hd
  · cases hd
  · exact ⟨mode, modified, hd⟩

/-- A location without a file on either side is no exception. -/
theorem SameOutside.of_no_file {f g : Files} {l : Location} (h : SameOutside {l} f g)
    (hf : ∀ x, f.nodeAt? l ≠ some (.file x)) (hg : ∀ x, g.nodeAt? l ≠ some (.file x)) :
    SameOutside ∅ f g := by
  refine ⟨h.home, fun l' _ x => ?_, h.directories⟩
  by_cases hl : l' = l
  · subst hl
    exact ⟨fun hx => absurd hx (hg x), fun hx => absurd hx (hf x)⟩
  · exact h.files l' (by simpa using hl) x

/-- The files without the one that was prepared. -/
def withdraw (f : Files) (now : Int) (directory : Location) (name : List Char) : Files :=
  (f.drop (directory ++ [name])).touchDirectory now directory

/-- Preparing a file and taking it away again changes no file. -/
theorem sameOutside_withdraw (f : Files) (now : Int) (directory : Location) (content : ByteArray)
    (mode : Nat) :
    SameOutside ∅ f
      ((f.addFile now directory f.freshName content mode).withdraw now directory f.freshName) := by
  have hnone := nodeAt?_freshName f directory
  have hadd := sameOutside_addFile now content mode (not_isDirectoryAt_of_none hnone)
  have hfile := nodeAt?_addFile f now directory f.freshName content mode
  have hdrop := sameOutside_drop (not_isDirectoryAt_of_file hfile)
  have htouch := sameOutside_touchDirectory
    ((f.addFile now directory f.freshName content mode).drop (directory ++ [f.freshName]))
    now directory
  refine SameOutside.of_no_file (l := directory ++ [f.freshName])
    ((hadd.trans hdrop).trans (htouch.of_empty _)) (fun x => by rw [hnone]; simp) fun x hx => ?_
  have hdropped := (htouch.files _ (by simp) x).1 hx
  rw [nodeAt?_drop, if_pos rfl] at hdropped
  cases hdropped

/-- What a move makes of a prepared file. -/
theorem moveOver_ok {f g : Files} {now : Int} {directory : Location} {name : List Char} {p : Path}
    {x : StoredFile} (hp : p.IsNamed) (hx : f.nodeAt? (directory ++ [name]) = some (.file x))
    (h : f.moveOver now directory name p = .ok g) :
    f.Reaches p ∧
      g = (f.withdraw now directory name).addEntry now (p.directoryPlace f.home) p.lastSegment
        (.file x) ∧
      ¬ (f.withdraw now directory name).IsDirectoryAt (p.place f.home) := by
  unfold moveOver at h
  rw [hx] at h
  simp only at h
  cases ht : f.target p with
  | error e => simp [ht] at h
  | ok t =>
      obtain ⟨hreach, rfl⟩ := (target_eq_ok_iff hp t).1 ht
      simp only [ht, Bool.false_eq_true, if_false] at h
      rw [← place_eq_of_isNamed f.home hp] at h
      split at h
      · cases h
      · next hnot =>
        cases h
        refine ⟨hreach, rfl, fun hd => ?_⟩
        obtain ⟨mode, modified, hd⟩ :=
          isDirectoryAt_of_drop ((isDirectoryAt_touchDirectory_iff _ _ _ _).1 hd)
        exact hnot mode modified hd

/-- The mode that a replaced file passes on. -/
def modeFor (f : Files) (p : Path) : Nat :=
  match f.mode p with
  | .ok mode => mode
  | .error _ => newFileMode

theorem replace_eq (f : Files) (now : Int) (p : Path) (content : ByteArray) :
    f.replace now p content =
      match f.openDirectory (directoryOf p) with
      | .error e => (f, .error e)
      | .ok directory =>
          match (f.addFile now directory f.freshName content (f.modeFor p)).moveOver now directory
            f.freshName p with
          | .ok g => (g, .ok ())
          | .error e =>
              ((f.addFile now directory f.freshName content (f.modeFor p)).withdraw now directory
                f.freshName, .error e) := by
  rfl

/-- A replacement puts the content at the path and leaves every other file alone. -/
theorem replace_ok {f g : Files} {now : Int} {p : Path} {content : ByteArray} (hp : p.IsNamed)
    (h : f.replace now p content = (g, .ok ())) :
    SameOutside {p.place f.home} f g ∧ g.Reaches p ∧
      g.nodeAt? (p.place f.home) = some (.file ⟨f.nextId, content, f.modeFor p, now⟩) := by
  rw [replace_eq] at h
  cases hdir : f.openDirectory (directoryOf p) with
  | error e => simp [hdir] at h
  | ok directory =>
      simp only [hdir] at h
      have hfile := nodeAt?_addFile f now directory f.freshName content (f.modeFor p)
      have hadd := sameOutside_addFile now content (f.modeFor p)
        (not_isDirectoryAt_of_none (nodeAt?_freshName f directory))
      have hquiet := sameOutside_withdraw f now directory content (f.modeFor p)
      split at h
      · next g' hmove =>
        cases h
        obtain ⟨hreach, hg, hnot⟩ := moveOver_ok hp hfile hmove
        rw [hadd.home, place_eq_of_isNamed f.home hp] at hnot
        rw [hadd.home] at hg
        have hentry := sameOutside_addEntry now
          (.file ⟨f.nextId, content, f.modeFor p, now⟩) hnot
        rw [← hg, ← place_eq_of_isNamed f.home hp] at hentry
        have hall := (hquiet.of_empty _).trans hentry
        refine ⟨hall, ?_, ?_⟩
        · have hdrop := sameOutside_drop (not_isDirectoryAt_of_file hfile)
          have hback := hdrop.trans ((sameOutside_touchDirectory _ now directory).of_empty _)
          exact hentry.reaches (hback.reaches hreach)
        · rw [hg, place_eq_of_isNamed f.home hp]
          exact nodeAt?_addEntry_file _ _ _ _ _
      · cases h

/-- A replacement that fails changes no file. -/
theorem replace_error {f g : Files} {now : Int} {p : Path} {content : ByteArray} {e : Fault}
    (h : f.replace now p content = (g, .error e)) : SameOutside ∅ f g := by
  rw [replace_eq] at h
  split at h
  · cases h
    exact SameOutside.refl ∅ f
  · next directory hdir =>
    split at h
    · cases h
    · cases h
      exact sameOutside_withdraw f now directory content _

/-- Opening a file for writing finds it, or makes an empty one. -/
theorem openForWriting_ok {f g : Files} {now : Int} {p : Path} {l : Location} (hp : p.IsNamed)
    (h : f.openForWriting now p = .ok (g, l)) :
    l = p.place f.home ∧ SameOutside {p.place f.home} f g ∧
      ((g = f ∧ ∃ x, f.nodeAt? l = some (.file x)) ∨
        (f.nodeAt? l = none ∧
          g.nodeAt? l = some (.file ⟨f.nextId, ByteArray.empty, newFileMode, now⟩))) := by
  unfold openForWriting at h
  split at h
  · cases h
  · cases h
  · next e he =>
    obtain ⟨hreach, hentry⟩ := (target_eq_ok_iff hp _).1 he
    cases hentry
    simp only [Bool.false_eq_true, if_false] at h
    rw [← place_eq_of_isNamed f.home hp] at h
    split at h
    · cases h
    · next x hx =>
      cases h
      exact ⟨rfl, SameOutside.refl _ f, Or.inl ⟨rfl, x, hx⟩⟩
    · next hnone =>
      cases h
      rw [place_eq_of_isNamed f.home hp] at hnone ⊢
      refine ⟨rfl, ?_, Or.inr ⟨hnone, nodeAt?_addFile _ _ _ _ _ _⟩⟩
      exact sameOutside_addFile now _ _ (not_isDirectoryAt_of_none hnone)

end StyleBuild.Files
