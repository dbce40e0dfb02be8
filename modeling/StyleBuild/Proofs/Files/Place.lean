import Mathlib.Data.List.Infix
import StyleBuild.Files.Change

/-!
# The place of a path

A path that can be followed leads to a location which depends on its text
alone: `Path.place home p` reads the segments one by one and never looks at the
files.

A path is named when its last segment is a name. Two named paths whose texts end
differently have different places (`place_ne_of_suffix`), which is what keeps
outputs, lock files, records and sources apart.
-/

namespace StyleBuild

namespace Text

theorem segments_of_notMem {sep : Char} {s : List Char} (hs : sep ∉ s) : segments sep s = [s] := by
  induction s with
  | nil => rfl
  | cons c s ih =>
      have hc : ¬ c = sep := fun h => hs (by simp [h])
      rw [segments, if_neg hc, ih fun h => hs (List.mem_cons_of_mem c h)]

/-- The last segment of a text and the first one of the text after it become one. -/
theorem segments_append {sep : Char} {s t l h : List Char} {init rest : List (List Char)}
    (hs : segments sep s = init ++ [l]) (ht : segments sep t = h :: rest) :
    segments sep (s ++ t) = init ++ (l ++ h) :: rest := by
  induction s generalizing init l with
  | nil =>
      rw [segments, List.singleton_eq_append_iff] at hs
      rcases hs with ⟨rfl, hl⟩ | ⟨-, hl⟩
      · rw [List.singleton_inj] at hl
        subst hl
        exact ht
      · simp at hl
  | cons c s ih =>
      rw [segments] at hs
      rw [List.cons_append, segments]
      by_cases hc : c = sep
      · rw [if_pos hc] at hs ⊢
        cases init with
        | nil => exact absurd (List.cons.inj hs).2 (segments_ne_nil sep s)
        | cons m init =>
            obtain ⟨hm, htail⟩ := List.cons.inj hs
            rw [ih htail, ← hm]
            rfl
      · rw [if_neg hc] at hs ⊢
        cases hseg : segments sep s with
        | nil => exact absurd hseg (segments_ne_nil sep s)
        | cons m ms =>
            rw [hseg] at hs
            cases init with
            | nil =>
                obtain ⟨rfl, rfl⟩ := List.cons.inj hs
                rw [ih (show segments sep s = [] ++ [m] from hseg)]
                rfl
            | cons m' init =>
                obtain ⟨rfl, rfl⟩ := List.cons.inj hs
                rw [ih (show segments sep s = (m :: init) ++ [l] from hseg)]
                rfl

/-- A text without separators goes to the end of the last segment. -/
theorem segments_append_of_notMem {sep : Char} {s t l : List Char} {init : List (List Char)}
    (hs : segments sep s = init ++ [l]) (ht : sep ∉ t) :
    segments sep (s ++ t) = init ++ [l ++ t] :=
  segments_append hs (segments_of_notMem ht)

/-- A separator ends a segment. -/
theorem segments_append_sep (sep : Char) (s t : List Char) :
    segments sep (s ++ sep :: t) = segments sep s ++ segments sep t := by
  have hsep : segments sep (sep :: t) = [] :: segments sep t := by
    rw [segments, if_pos rfl]
  have hlast := List.dropLast_append_getLast (segments_ne_nil sep s)
  rw [segments_append hlast.symm hsep, List.append_nil, List.append_cons, hlast]

end Text

namespace Path

open Text

/-- The last segment of a path, as it is written. -/
def lastSegment (p : Path) : List Char :=
  (segments '/' p.chars).getLast (segments_ne_nil '/' p.chars)

/-- The segments before the last one. -/
def above (p : Path) : List (List Char) := (segments '/' p.chars).dropLast

/-- The last segment is a name, not a way to say where a directory is. -/
def IsNamed (p : Path) : Prop :=
  p.lastSegment ≠ [] ∧ p.lastSegment ≠ ['.'] ∧ p.lastSegment ≠ ['.', '.']

theorem above_append_lastSegment (p : Path) :
    p.above ++ [p.lastSegment] = segments '/' p.chars :=
  List.dropLast_append_getLast (segments_ne_nil '/' p.chars)

theorem suffix_lastSegment {p : Path} {t : List Char} (h : t <:+ p.chars) (ht : '/' ∉ t) :
    t <:+ p.lastSegment := by
  obtain ⟨s, hs⟩ := h
  have hinit := (List.dropLast_append_getLast (segments_ne_nil '/' s)).symm
  have hseg := segments_append_of_notMem hinit ht
  rw [hs, ← above_append_lastSegment] at hseg
  have hlast := (List.append_inj' hseg rfl).2
  rw [List.singleton_inj] at hlast
  exact hlast ▸ List.suffix_append _ _

/-- A path is named when it ends in a text that no separator and no dots make up. -/
theorem isNamed_of_suffix {p : Path} {t : List Char} (h : t <:+ p.chars) (ht : '/' ∉ t)
    (hdot : ¬ t <:+ ['.', '.']) : p.IsNamed := by
  have hlast := suffix_lastSegment h ht
  refine ⟨fun h0 => hdot ?_, fun h1 => hdot ?_, fun h2 => hdot (h2 ▸ hlast)⟩
  · rw [h0] at hlast
    exact hlast.trans (List.nil_suffix)
  · rw [h1] at hlast
    exact hlast.trans (by decide)

/-- Where segments lead from a location, whatever the files are. -/
def lead (here : Location) : List (List Char) → Location
  | [] => here
  | s :: rest =>
      if isSilent s then lead here rest
      else if s = ['.', '.'] then lead here.dropLast rest
      else lead (here ++ [s]) rest

theorem lead_append (here : Location) (a b : List (List Char)) :
    lead here (a ++ b) = lead (lead here a) b := by
  induction a generalizing here with
  | nil => rfl
  | cons s a ih =>
      rw [List.cons_append, lead, lead]
      split
      · exact ih here
      · split
        · exact ih here.dropLast
        · exact ih (here ++ [s])

/-- Where a path starts. -/
def origin (home : Location) (p : Path) : Location := if p.isAbsolute then [] else home

/-- The directory in which the last segment is looked up. -/
def directoryPlace (home : Location) (p : Path) : Location := lead (p.origin home) p.above

/-- The location that a path stands for. -/
def place (home : Location) (p : Path) : Location := lead (p.origin home) (segments '/' p.chars)

theorem not_isSilent_lastSegment {p : Path} (hp : p.IsNamed) : isSilent p.lastSegment = false := by
  simp [isSilent, hp.1, hp.2.1]

theorem place_eq_of_isNamed (home : Location) {p : Path} (hp : p.IsNamed) :
    p.place home = p.directoryPlace home ++ [p.lastSegment] := by
  rw [place, ← above_append_lastSegment, lead_append, lead, not_isSilent_lastSegment hp,
    if_neg (by simp), if_neg hp.2.2, lead]
  rfl

theorem lastSegment_eq_of_place_eq {home : Location} {p q : Path} (hp : p.IsNamed) (hq : q.IsNamed)
    (h : p.place home = q.place home) : p.lastSegment = q.lastSegment := by
  rw [place_eq_of_isNamed home hp, place_eq_of_isNamed home hq] at h
  exact List.singleton_inj.1 (List.append_inj' h rfl).2

/-- Texts that end differently stand for different entries. -/
theorem place_ne_of_suffix {home : Location} {p q : Path} {t u : List Char} (hp : p.IsNamed)
    (hq : q.IsNamed) (ht : t <:+ p.chars) (hu : u <:+ q.chars) (ht' : '/' ∉ t) (hu' : '/' ∉ u)
    (htu : ¬ t <:+ u) (hut : ¬ u <:+ t) : p.place home ≠ q.place home := by
  intro h
  have hlast := suffix_lastSegment ht ht'
  rw [lastSegment_eq_of_place_eq hp hq h] at hlast
  rcases List.suffix_or_suffix_of_suffix hlast (suffix_lastSegment hu hu') with h | h
  · exact htu h
  · exact hut h

end Path

end StyleBuild
