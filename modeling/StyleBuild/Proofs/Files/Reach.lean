import StyleBuild.Proofs.Files.Place

/-!
# Reaching the entry of a path

A walk that succeeds ends at the place of the path (`walk_eq_lead`). For a named
path, opening it for writing and looking it up speak about the same entry: both
succeed only when its directory is reached, and then `target` answers the entry
(`target_eq_ok_iff`) and `find` the node that is there (`find_eq_ok_iff`).
-/

namespace StyleBuild

namespace Files

open Text StyleBuild.Path

/-- There is a directory at a location. -/
def IsDirectoryAt (f : Files) (l : Location) : Prop :=
  ∃ mode modified, f.nodeAt? l = some (.directory mode modified)

/-- The directory of the entry that a path names can be reached. -/
def Reaches (f : Files) (p : Path) : Prop :=
  f.walk (p.origin f.home) p.above = .ok (p.directoryPlace f.home) ∧
    f.IsDirectoryAt (p.directoryPlace f.home)

/-- Where there is only `home`, there is no file. -/
theorem nodeAt?_atHome_ne_file (home l : Location) (now : Int) (x : StoredFile) :
    (atHome home now).nodeAt? l ≠ some (.file x) := by
  intro h
  obtain ⟨before, after, hnodes, -⟩ := List.lookup_eq_some_iff.1 h
  have hmem : (l, Node.file x) ∈ (atHome home now).nodes := by rw [hnodes]; simp
  simp [atHome] at hmem

theorem walk_cons_of_isDirectoryAt {f : Files} {here : Location} (h : f.IsDirectoryAt here)
    (s : List Char) (rest : List (List Char)) :
    f.walk here (s :: rest) =
      if isSilent s then f.walk here rest
      else if s = ['.', '.'] then f.walk here.dropLast rest
      else f.walk (here ++ [s]) rest := by
  obtain ⟨mode, modified, h⟩ := h
  rw [walk, h]

theorem isDirectoryAt_of_walk_cons {f : Files} {here l : Location} {s : List Char}
    {rest : List (List Char)} (h : f.walk here (s :: rest) = .ok l) : f.IsDirectoryAt here := by
  rw [walk] at h
  split at h
  · cases h
  · cases h
  · next mode modified hnode => exact ⟨mode, modified, hnode⟩

/-- A walk that succeeds ends where the segments lead. -/
theorem walk_eq_lead {f : Files} {here l : Location} {segs : List (List Char)}
    (h : f.walk here segs = .ok l) : l = lead here segs := by
  induction segs generalizing here with
  | nil =>
      cases h
      rfl
  | cons s rest ih =>
      rw [walk_cons_of_isDirectoryAt (isDirectoryAt_of_walk_cons h)] at h
      rw [lead]
      split at h
      · next hs => rw [if_pos hs]; exact ih h
      · next hs =>
        rw [if_neg hs]
        split at h
        · next hp => rw [if_pos hp]; exact ih h
        · next hp => rw [if_neg hp]; exact ih h

theorem walk_append (f : Files) (here : Location) (a b : List (List Char)) :
    f.walk here (a ++ b) =
      match f.walk here a with
      | .error e => .error e
      | .ok l => f.walk l b := by
  induction a generalizing here with
  | nil => rfl
  | cons s a ih =>
      rw [List.cons_append]
      cases hnode : f.nodeAt? here with
      | none => simp [walk, hnode]
      | some node =>
          cases node with
          | file x => simp [walk, hnode]
          | directory mode modified =>
              have hd : f.IsDirectoryAt here := ⟨mode, modified, hnode⟩
              rw [walk_cons_of_isDirectoryAt hd, walk_cons_of_isDirectoryAt hd]
              split
              · exact ih here
              · split
                · exact ih here.dropLast
                · exact ih (here ++ [s])

theorem reaches_of_walk {f : Files} {p : Path} {l : Location}
    (h : f.walk (p.origin f.home) p.above = .ok l) (hl : f.IsDirectoryAt l) : f.Reaches p := by
  have hlead : l = p.directoryPlace f.home := walk_eq_lead h
  subst hlead
  exact ⟨h, hl⟩

theorem isEmpty_eq_false_of_isNamed {p : Path} (hp : p.IsNamed) : p.isEmpty = false := by
  cases hc : p.chars with
  | nil =>
      refine absurd ?_ hp.1
      simp [lastSegment, hc, segments]
  | cons c s => simp [Path.isEmpty, hc]

/-- The target of a named path is the entry of its last segment. -/
theorem target_of_isNamed {f : Files} {p : Path} (hp : p.IsNamed) :
    f.target p =
      match f.walk (p.origin f.home) p.above with
      | .error e => .error e
      | .ok directory =>
          match f.nodeAt? directory with
          | none => .error .notFound
          | some (.file _) => .error .notADirectory
          | some (.directory ..) => .ok (.entry ⟨directory, p.lastSegment, false⟩) := by
  have hsegs := above_append_lastSegment p
  have hbare : ((segments '/' p.chars).reverse.dropWhile List.isEmpty).reverse =
      segments '/' p.chars := by
    rw [← hsegs]
    simp [hp.1]
  have hlast : (segments '/' p.chars).getLast? = some p.lastSegment := by
    rw [← hsegs, List.getLast?_concat]
  have habove : (segments '/' p.chars).dropLast = p.above := rfl
  simp only [target, isEmpty_eq_false_of_isNamed hp, Bool.false_eq_true, if_false, hbare, hlast,
    habove, hp.2.1, hp.2.2, or_self, lt_irrefl, decide_false]
  rfl

/-- What `target` answers for a named path. -/
theorem target_eq_ok_iff {f : Files} {p : Path} (hp : p.IsNamed) (t : Target) :
    f.target p = .ok t ↔
      f.Reaches p ∧ t = .entry ⟨p.directoryPlace f.home, p.lastSegment, false⟩ := by
  rw [target_of_isNamed hp]
  constructor
  · intro h
    split at h
    · cases h
    · next d hd =>
      split at h
      · cases h
      · cases h
      · next mode modified hnode =>
        have hreach := reaches_of_walk hd ⟨mode, modified, hnode⟩
        have hplace : d = p.directoryPlace f.home := walk_eq_lead hd
        subst hplace
        cases h
        exact ⟨hreach, rfl⟩
  · rintro ⟨⟨hwalk, mode, modified, hnode⟩, rfl⟩
    simp only [hwalk, hnode]

theorem reaches_of_walk_place {f : Files} {p : Path} {l : Location} (hp : p.IsNamed)
    (h : f.walk (p.origin f.home) (segments '/' p.chars) = .ok l) :
    f.Reaches p ∧ l = p.place f.home := by
  rw [← above_append_lastSegment, walk_append] at h
  split at h
  · cases h
  · next d hd =>
    have hdir := isDirectoryAt_of_walk_cons h
    rw [walk_cons_of_isDirectoryAt hdir, not_isSilent_lastSegment hp, if_neg (by simp),
      if_neg hp.2.2] at h
    have hplace : d = p.directoryPlace f.home := walk_eq_lead hd
    subst hplace
    cases h
    exact ⟨⟨hd, hdir⟩, (place_eq_of_isNamed f.home hp).symm⟩

theorem walk_place_of_reaches {f : Files} {p : Path} (hp : p.IsNamed) (h : f.Reaches p) :
    f.walk (p.origin f.home) (segments '/' p.chars) = .ok (p.place f.home) := by
  rw [← above_append_lastSegment, walk_append, h.1]
  simp only
  rw [walk_cons_of_isDirectoryAt h.2, not_isSilent_lastSegment hp, if_neg (by simp),
    if_neg hp.2.2, walk, place_eq_of_isNamed f.home hp]

/-- What `find` answers for a named path. -/
theorem find_eq_ok_iff {f : Files} {p : Path} (hp : p.IsNamed) (l : Location) (node : Node) :
    f.find p = .ok (l, node) ↔
      f.Reaches p ∧ l = p.place f.home ∧ f.nodeAt? (p.place f.home) = some node := by
  have horigin : f.origin p = p.origin f.home := rfl
  simp only [find, isEmpty_eq_false_of_isNamed hp, Bool.false_eq_true, if_false, horigin]
  constructor
  · intro h
    split at h
    · cases h
    · next l' hl' =>
      obtain ⟨hreach, rfl⟩ := reaches_of_walk_place hp hl'
      split at h
      · cases h
      · next node' hnode =>
        cases h
        exact ⟨hreach, rfl, hnode⟩
  · rintro ⟨hreach, rfl, hnode⟩
    rw [walk_place_of_reaches hp hreach]
    simp only [hnode]

end Files

end StyleBuild
