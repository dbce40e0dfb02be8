import StyleBuild.Proofs.Files.Components
import StyleBuild.Proofs.Files.Outside

/-!
# Files that form a tree

In a tree every node lies in a directory. What a path stands for is then the
node at its place, without a word on the way there (`IsTree.find_eq_ok_iff`), as
long as the path is named and leads down. So a change that leaves the node at
the place alone leaves alone what the path stands for (`SameOutside.isFile_eq`
and `SameOutside.has_eq`).
-/

namespace StyleBuild

open Text

namespace Path

/-- The steps before the last segment. -/
def stepsAbove (p : Path) : List (List Char) := p.above.filter fun s => !isSilent s

theorem steps_eq_of_isNamed {p : Path} (hp : p.IsNamed) :
    p.steps = p.stepsAbove ++ [p.lastSegment] := by
  rw [steps, ← above_append_lastSegment, List.filter_append, stepsAbove,
    List.filter_cons_of_pos (by rw [not_isSilent_lastSegment hp]; rfl), List.filter_nil]

theorem IsDown.notMem_above {p : Path} (h : p.IsDown) : ['.', '.'] ∉ p.above :=
  fun hmem => h (List.dropLast_subset _ hmem)

theorem IsDown.directoryPlace_eq {p : Path} (h : p.IsDown) (home : Location) :
    p.directoryPlace home = p.origin home ++ p.stepsAbove := by
  rw [directoryPlace, ← lead_filter, lead_names]
  · rfl
  · intro s hs
    obtain ⟨hmem, hloud⟩ := List.mem_filter.1 hs
    exact ⟨by simpa using hloud, fun hup => h.notMem_above (hup ▸ hmem)⟩

end Path

namespace Files

open StyleBuild.Path

/-- Every node but the top lies in a directory. -/
def IsTree (f : Files) : Prop :=
  ∀ l node, f.nodeAt? l = some node → l ≠ [] → f.IsDirectoryAt l.dropLast

instance (f : Files) (l : Location) : Decidable (f.IsDirectoryAt l) :=
  decidable_of_iff
    ((match f.nodeAt? l with
      | some (.directory ..) => true
      | _ => false) = true)
    (by unfold IsDirectoryAt; split <;> simp_all)

/-- It is enough to look at the nodes that are there. -/
theorem isTree_of_forall_mem {f : Files}
    (h : ∀ e ∈ f.nodes, e.1 ≠ [] → f.IsDirectoryAt e.1.dropLast) : f.IsTree := by
  intro l node hnode hl
  obtain ⟨before, after, hnodes, -⟩ := List.lookup_eq_some_iff.1 hnode
  exact h (l, node) (by rw [hnodes]; simp) hl

variable {f g : Files} {p : Path} {s d : Set Location}

namespace IsTree

/-- Whatever lies above a node is a directory. -/
theorem isDirectoryAt (h : f.IsTree) {a b : Location} {node : Node}
    (hnode : f.nodeAt? (a ++ b) = some node) (hb : b ≠ []) : f.IsDirectoryAt a := by
  induction b using List.reverseRecOn generalizing node with
  | nil => exact absurd rfl hb
  | append_singleton b c ih =>
      have habove := h _ _ hnode (by simp)
      rw [← List.append_assoc, List.dropLast_concat] at habove
      rcases eq_or_ne b [] with rfl | hb'
      · rwa [List.append_nil] at habove
      · obtain ⟨mode, modified, hd⟩ := habove
        exact ih hd hb'

end IsTree

/-- A walk down through directories goes on. -/
theorem walk_of_isDirectoryAt {here : Location} {segs : List (List Char)}
    (hdown : ['.', '.'] ∉ segs)
    (h : ∀ a, a <+: (segs.filter fun s => !isSilent s) → f.IsDirectoryAt (here ++ a)) :
    f.walk here segs = .ok (here ++ segs.filter fun s => !isSilent s) := by
  induction segs generalizing here with
  | nil => rw [walk, List.filter_nil, List.append_nil]
  | cons s segs ih =>
      have hhere := h [] List.nil_prefix
      rw [List.append_nil] at hhere
      rw [walk_cons_of_isDirectoryAt hhere]
      have hrest : ['.', '.'] ∉ segs := fun hmem => hdown (List.mem_cons_of_mem _ hmem)
      cases hs : isSilent s with
      | true =>
          rw [if_pos rfl]
          rw [List.filter_cons_of_neg (by simp [hs])] at h ⊢
          exact ih hrest h
      | false =>
          have hup : s ≠ ['.', '.'] := fun hs => hdown (hs ▸ List.mem_cons_self)
          rw [if_neg (by simp), if_neg hup]
          rw [List.filter_cons_of_pos (by simp [hs])] at h ⊢
          rw [ih hrest, List.append_assoc, List.singleton_append]
          intro a ha
          rw [List.append_assoc, List.singleton_append]
          exact h (s :: a) ((List.prefix_cons_inj s).2 ha)

namespace IsTree

/-- What is there can be reached. -/
theorem reaches (h : f.IsTree) (hp : p.IsNamed) (hdown : p.IsDown) {node : Node}
    (hnode : f.nodeAt? (p.place f.home) = some node) : f.Reaches p := by
  have hdirectories : ∀ a, a <+: p.stepsAbove → f.IsDirectoryAt (p.origin f.home ++ a) := by
    rintro a ⟨b, hb⟩
    rw [hdown.place_eq, steps_eq_of_isNamed hp, ← hb, List.append_assoc, ← List.append_assoc]
      at hnode
    exact h.isDirectoryAt hnode (by simp)
  have hwalk := walk_of_isDirectoryAt hdown.notMem_above hdirectories
  exact reaches_of_walk hwalk (hdirectories _ (List.prefix_refl _))

theorem find_eq_ok_iff (h : f.IsTree) (hp : p.IsNamed) (hdown : p.IsDown) (l : Location)
    (node : Node) : f.find p = .ok (l, node) ↔
      l = p.place f.home ∧ f.nodeAt? (p.place f.home) = some node := by
  rw [Files.find_eq_ok_iff hp]
  exact ⟨fun hfind => hfind.2, fun ⟨hl, hnode⟩ => ⟨h.reaches hp hdown hnode, hl, hnode⟩⟩

end IsTree

theorem isFile_eq_true_iff (f : Files) (p : Path) :
    f.isFile p = true ↔ ∃ l x, f.find p = .ok (l, .file x) := by
  refine ⟨find_of_isFile, ?_⟩
  rintro ⟨l, x, hx⟩
  rw [isFile, hx]

theorem has_eq_true_iff (f : Files) (p : Path) :
    f.has p = true ↔ ∃ l node, f.find p = .ok (l, node) := by
  unfold has
  split
  · next e he => exact ⟨fun _ => ⟨e.1, e.2, he⟩, fun _ => rfl⟩
  · next e he =>
    refine ⟨fun h => absurd h Bool.false_ne_true, ?_⟩
    rintro ⟨l, node, h⟩
    rw [he] at h
    cases h

namespace SameOutside

/-- Outside `s` the same files are found. -/
theorem find_file_iff (hfg : SameOutside s f g) (hf : f.IsTree) (hp : p.IsNamed) (hdown : p.IsDown)
    (hs : p.place f.home ∉ s) (l : Location) (x : StoredFile) :
    g.find p = .ok (l, .file x) ↔ f.find p = .ok (l, .file x) := by
  refine ⟨fun hx => ?_, hfg.find_file hp hs⟩
  obtain ⟨hl, hnode⟩ := find_place hx
  rw [hfg.home] at hl hnode
  exact (hf.find_eq_ok_iff hp hdown _ _).2 ⟨hl, (hfg.files _ hs x).1 hnode⟩

/-- A path outside `s` is a file exactly when it was one. -/
theorem isFile_eq (hfg : SameOutside s f g) (hf : f.IsTree) (hp : p.IsNamed) (hdown : p.IsDown)
    (hs : p.place f.home ∉ s) : g.isFile p = f.isFile p := by
  rw [Bool.eq_iff_iff, isFile_eq_true_iff, isFile_eq_true_iff]
  simp only [hfg.find_file_iff hf hp hdown hs]

/-- A directory is still found. -/
theorem find_directory (hfg : SameOutside s f g) (hp : p.IsNamed) {l : Location} {mode : Nat}
    {modified : Int} (hf : f.find p = .ok (l, .directory mode modified)) :
    ∃ mode modified, g.find p = .ok (l, .directory mode modified) := by
  obtain ⟨hreach, hl, hnode⟩ := (Files.find_eq_ok_iff hp _ _).1 hf
  obtain ⟨mode', modified', hd⟩ := hfg.directories _ ⟨mode, modified, hnode⟩
  refine ⟨mode', modified', (Files.find_eq_ok_iff hp _ _).2 ⟨hfg.reaches hreach, ?_, ?_⟩⟩
  · rw [hfg.home]
    exact hl
  · rw [hfg.home]
    exact hd

end SameOutside

end Files

end StyleBuild
