import StyleBuild.Proofs.Files.Reach

/-!
# Paths of the same steps

Segments that take no step do not matter to where a path leads: paths with the
same components have the same place (`place_eq_of_components_eq`). What is found
at a path is the node at its place, whatever the path is (`find_place`).

A path is down when no segment leads up. It lies below where it starts, at its
steps, and so does what is joined to a directory (`place_join`).
-/

namespace StyleBuild

open Text

namespace Path

/-- The segments that take a step. -/
def steps (p : Path) : List (List Char) := (segments '/' p.chars).filter fun s => !isSilent s

theorem lead_filter (here : Location) (segs : List (List Char)) :
    lead here (segs.filter fun s => !isSilent s) = lead here segs := by
  induction segs generalizing here with
  | nil => rfl
  | cons s segs ih =>
      rw [lead]
      by_cases hs : isSilent s = true
      · rw [List.filter_cons_of_neg (by simp [hs]), if_pos hs]
        exact ih here
      · rw [List.filter_cons_of_pos (by simp [hs]), if_neg hs, lead, if_neg hs]
        split
        · exact ih here.dropLast
        · exact ih (here ++ [s])

/-- What leads a path takes no step. -/
theorem filter_leadAndSegments (s : List Char) :
    ((leadAndSegments s).2.filter fun s => !isSilent s) =
      (segments '/' s).filter fun s => !isSilent s := by
  unfold leadAndSegments
  split
  · rw [segments, if_pos rfl]
    rfl
  · rfl
  · next rest =>
    have hdot : segments '/' ('.' :: '/' :: rest) = ['.'] :: segments '/' rest := by
      simp [segments]
    rw [hdot]
    rfl
  · rfl

theorem components_eq (p : Path) :
    p.components = leadComponents (leadAndSegments p.chars).1 ++ p.steps.map segmentComponent := by
  rw [steps, ← filter_leadAndSegments]
  rfl

theorem isAbsolute_iff (p : Path) :
    p.isAbsolute = true ↔ leadComponents (leadAndSegments p.chars).1 = [.root] := by
  unfold isAbsolute
  generalize p.chars = s
  split
  · simp [leadAndSegments, leadComponents]
  · next hslash =>
    unfold leadAndSegments
    split
    · next rest => exact absurd rfl (hslash rest)
    · simp [leadComponents]
    · simp [leadComponents]
    · simp [leadComponents]

theorem segmentComponent_injective : Function.Injective segmentComponent := by
  intro a b h
  unfold segmentComponent at h
  split at h
  · next ha =>
    split at h
    · next hb => rw [ha, hb]
    · cases h
  · split at h
    · cases h
    · cases h
      rfl

theorem leadComponents_cases (lead : List Char) :
    leadComponents lead = [.root] ∨ leadComponents lead = [.current] ∨
      leadComponents lead = [] := by
  unfold leadComponents
  split
  · exact Or.inl rfl
  · split
    · exact Or.inr (Or.inl rfl)
    · exact Or.inr (Or.inr rfl)

/-- No segment after the lead is read as one. -/
theorem cons_ne_map {c : Component} (hc : c = .root ∨ c = .current) (rest : List Component)
    (segs : List (List Char)) : c :: rest ≠ segs.map segmentComponent := by
  intro h
  obtain ⟨s, -, hs⟩ := List.mem_map.1 (h ▸ List.mem_cons_self : c ∈ segs.map segmentComponent)
  unfold segmentComponent at hs
  rcases hc with rfl | rfl <;> split at hs <;> cases hs

theorem append_map_inj {a b : List Component} {s t : List (List Char)}
    (ha : a = [.root] ∨ a = [.current] ∨ a = []) (hb : b = [.root] ∨ b = [.current] ∨ b = [])
    (h : a ++ s.map segmentComponent = b ++ t.map segmentComponent) : a = b ∧ s = t := by
  have hab : a = b := by
    rcases ha with rfl | rfl | rfl <;> rcases hb with rfl | rfl | rfl
    · rfl
    · cases h
    · exact absurd h (cons_ne_map (Or.inl rfl) _ t)
    · cases h
    · rfl
    · exact absurd h (cons_ne_map (Or.inr rfl) _ t)
    · exact absurd h.symm (cons_ne_map (Or.inl rfl) _ s)
    · exact absurd h.symm (cons_ne_map (Or.inr rfl) _ s)
    · rfl
  subst hab
  exact ⟨rfl, List.map_injective_iff.2 segmentComponent_injective (List.append_cancel_left h)⟩

theorem steps_eq_of_components_eq {p q : Path} (h : p.components = q.components) :
    p.isAbsolute = q.isAbsolute ∧ p.steps = q.steps := by
  rw [components_eq, components_eq] at h
  obtain ⟨hlead, hsteps⟩ :=
    append_map_inj (leadComponents_cases _) (leadComponents_cases _) h
  refine ⟨Bool.eq_iff_iff.2 ?_, hsteps⟩
  rw [isAbsolute_iff, isAbsolute_iff, hlead]

theorem place_eq_lead_steps (home : Location) (p : Path) :
    p.place home = lead (p.origin home) p.steps :=
  (lead_filter _ _).symm

theorem place_eq_of_components_eq {p q : Path} (home : Location)
    (h : p.components = q.components) : p.place home = q.place home := by
  obtain ⟨habsolute, hsteps⟩ := steps_eq_of_components_eq h
  rw [place_eq_lead_steps, place_eq_lead_steps, hsteps, origin, origin, habsolute]

theorem isAbsolute_eq (p : Path) : p.isAbsolute = (p.chars.head? == some '/') := by
  unfold isAbsolute
  generalize p.chars = s
  split
  · rfl
  · next hslash =>
    cases s with
    | nil => rfl
    | cons c s =>
        have hc : c ≠ '/' := fun h => hslash s (by rw [h])
        simp [hc]

theorem chars_ofChars (s : List Char) : (ofChars s).chars = s := by
  rw [ofChars, chars, String.toList_ofList]

theorem steps_append_sep (s t : List Char) :
    (ofChars (s ++ '/' :: t)).steps = (ofChars s).steps ++ (ofChars t).steps := by
  simp only [steps, chars_ofChars, segments_append_sep, List.filter_append]

/-- A path below a directory takes the steps of both. -/
theorem steps_join {a b : Path} (hb : b.isAbsolute = false) :
    (a.join b).steps = a.steps ++ b.steps ∧ (a.join b).isAbsolute = a.isAbsolute := by
  have ha : a = ofChars a.chars := by rw [ofChars, chars, String.ofList_toList]
  have hb' : b = ofChars b.chars := by rw [ofChars, chars, String.ofList_toList]
  rw [isAbsolute_eq] at hb
  rw [isAbsolute_eq, isAbsolute_eq, join, chars_ofChars]
  unfold joinChars
  split
  · next hslash => simp [hslash] at hb
  · split
    · next hnil =>
      rw [List.getLast?_eq_none_iff] at hnil
      rw [hnil, hb, ← hb', ha, hnil]
      exact ⟨rfl, rfl⟩
    · next hlast =>
      obtain ⟨d, hd⟩ := List.getLast?_eq_some_iff.1 hlast
      have hsteps : a.steps = (ofChars d).steps := by
        rw [ha, hd, steps_append_sep]
        exact List.append_nil _
      constructor
      · rw [hsteps, hb', chars_ofChars, ← steps_append_sep, hd, List.append_assoc]
        rfl
      · rw [hd]
        cases d <;> rfl
    · next c _ hlast =>
      constructor
      · rw [steps_append_sep, ← ha, ← hb']
      · cases hchars : a.chars with
        | nil =>
            rw [hchars] at hlast
            cases hlast
        | cons c s => rfl

theorem lastSegment_append_sep (s : List Char) : (ofChars (s ++ ['/'])).lastSegment = [] := by
  have hsegs : segments '/' (ofChars (s ++ ['/'])).chars = segments '/' s ++ [[]] := by
    rw [chars_ofChars, segments_append_sep]
    rfl
  have hlast := above_append_lastSegment (ofChars (s ++ ['/']))
  rw [hsegs] at hlast
  exact List.singleton_inj.1 (List.append_inj' hlast rfl).2

/-- What the empty path is below a directory ends in a separator, if it is not empty too. -/
theorem lastSegment_join_empty (a : Path) {b : Path} (hb : b.isEmpty = true) :
    (a.join b).lastSegment = [] := by
  rw [isEmpty, List.isEmpty_iff] at hb
  rw [join, hb]
  unfold joinChars
  split
  · next hslash => cases hslash
  · split
    · rfl
    · next hlast =>
      obtain ⟨d, hd⟩ := List.getLast?_eq_some_iff.1 hlast
      rw [List.append_nil, hd]
      exact lastSegment_append_sep d
    · exact lastSegment_append_sep a.chars

/-- Steps that are names lead down. -/
theorem lead_names {segs : List (List Char)} (here : Location)
    (h : ∀ s ∈ segs, isSilent s = false ∧ s ≠ ['.', '.']) : lead here segs = here ++ segs := by
  induction segs generalizing here with
  | nil => exact (List.append_nil here).symm
  | cons s segs ih =>
      obtain ⟨hsilent, hparent⟩ := h s List.mem_cons_self
      rw [lead, hsilent, if_neg (by simp), if_neg hparent,
        ih _ fun t ht => h t (List.mem_cons_of_mem _ ht)]
      exact List.append_assoc here [s] segs

theorem not_isSilent_of_mem_steps {p : Path} {s : List Char} (h : s ∈ p.steps) :
    isSilent s = false := by
  simpa using (List.mem_filter.1 h).2

/-- No segment leads up. -/
def IsDown (p : Path) : Prop := ['.', '.'] ∉ segments '/' p.chars

instance (p : Path) : Decidable p.IsDown := inferInstanceAs (Decidable (_ ∉ _))

theorem isDown_iff (p : Path) : p.IsDown ↔ ['.', '.'] ∉ p.steps := by
  rw [IsDown, steps, List.mem_filter]
  exact not_congr ⟨fun h => ⟨h, rfl⟩, fun h => h.1⟩

theorem segmentComponent_eq_parent_iff (s : List Char) :
    segmentComponent s = .parent ↔ s = ['.', '.'] := by
  unfold segmentComponent
  split <;> simp [*]

/-- A path starts at the root when this is one of its steps. -/
theorem root_mem_components (p : Path) : .root ∈ p.components ↔ p.isAbsolute = true := by
  rw [isAbsolute_iff, components_eq, List.mem_append]
  have hsteps : .root ∉ p.steps.map segmentComponent := by
    intro h
    obtain ⟨s, -, hs⟩ := List.mem_map.1 h
    unfold segmentComponent at hs
    split at hs <;> cases hs
  rcases leadComponents_cases (leadAndSegments p.chars).1 with h | h | h <;> simp [h, hsteps]

/-- It leads up when a step does. -/
theorem parent_mem_components (p : Path) : .parent ∈ p.components ↔ ¬ p.IsDown := by
  have hsteps : .parent ∈ p.steps.map segmentComponent ↔ ['.', '.'] ∈ p.steps := by
    simp [List.mem_map, segmentComponent_eq_parent_iff]
  rw [isDown_iff, not_not, components_eq, List.mem_append, hsteps]
  rcases leadComponents_cases (leadAndSegments p.chars).1 with h | h | h <;> simp [h]

theorem IsDown.lead_steps {p : Path} (h : p.IsDown) (here : Location) :
    lead here p.steps = here ++ p.steps :=
  lead_names here fun _ hs =>
    ⟨not_isSilent_of_mem_steps hs, fun hup => (isDown_iff p).1 h (hup ▸ hs)⟩

/-- A path that is down lies at its steps below where it starts. -/
theorem IsDown.place_eq {p : Path} (h : p.IsDown) (home : Location) :
    p.place home = p.origin home ++ p.steps := by
  rw [place_eq_lead_steps, h.lead_steps]

theorem IsDown.join {a b : Path} (ha : a.IsDown) (hb : b.IsDown)
    (hrelative : b.isAbsolute = false) : (a.join b).IsDown := by
  rw [isDown_iff] at ha hb ⊢
  rw [(steps_join hrelative).1, List.mem_append]
  exact not_or.2 ⟨ha, hb⟩

theorem suffix_append_text (s t : String) : t.toList <:+ (Path.mk (s ++ t)).chars := by
  rw [chars, String.toList_append]
  exact List.suffix_append _ _

/-- A text without separators goes to the end of the last segment. -/
theorem segments_withSuffix (p : Path) {suffix : String} (hsep : '/' ∉ suffix.toList) :
    segments '/' (p.withSuffix suffix).chars = p.above ++ [p.lastSegment ++ suffix.toList] := by
  rw [Path.withSuffix, chars, String.toList_append]
  exact segments_append_of_notMem (above_append_lastSegment p).symm hsep

theorem above_withSuffix (p : Path) {suffix : String} (hsep : '/' ∉ suffix.toList) :
    (p.withSuffix suffix).above = p.above ∧
      (p.withSuffix suffix).lastSegment = p.lastSegment ++ suffix.toList := by
  have hsegs := segments_withSuffix p hsep
  rw [← above_append_lastSegment (p.withSuffix suffix)] at hsegs
  obtain ⟨habove, hlast⟩ := List.append_inj' hsegs rfl
  exact ⟨habove, List.singleton_inj.1 hlast⟩

/-- A text that is no dots makes up a name at the end of a path. -/
theorem isNamed_withSuffix (p : Path) {suffix : String} (hsep : '/' ∉ suffix.toList)
    (hdot : ¬ suffix.toList <:+ ['.', '.']) : (p.withSuffix suffix).IsNamed :=
  isNamed_of_suffix (suffix_append_text p.text suffix) hsep hdot

theorem isAbsolute_withSuffix {p : Path} (hp : p.IsNamed) (suffix : String) :
    (p.withSuffix suffix).isAbsolute = p.isAbsolute := by
  have hchars : (p.withSuffix suffix).chars = p.chars ++ suffix.toList := String.toList_append
  rw [isAbsolute_eq, isAbsolute_eq, hchars, List.head?_append_of_ne_nil]
  exact List.isEmpty_eq_false_iff.1 (Files.isEmpty_eq_false_of_isNamed hp)

/-- Different places stay different when the same text goes to the end of both paths. -/
theorem place_withSuffix_ne {p q : Path} (hp : p.IsNamed) (hq : q.IsNamed) {suffix : String}
    (hsep : '/' ∉ suffix.toList) (hdot : ¬ suffix.toList <:+ ['.', '.']) {home : Location}
    (hne : p.place home ≠ q.place home) :
    (p.withSuffix suffix).place home ≠ (q.withSuffix suffix).place home := by
  have hplace : ∀ {r : Path}, r.IsNamed → (r.withSuffix suffix).place home =
      r.directoryPlace home ++ [r.lastSegment ++ suffix.toList] := by
    intro r hr
    obtain ⟨habove, hlast⟩ := above_withSuffix r hsep
    rw [place_eq_of_isNamed home (isNamed_withSuffix r hsep hdot), hlast, directoryPlace, habove,
      origin, isAbsolute_withSuffix hr, directoryPlace, origin]
  rw [hplace hp, hplace hq]
  intro heq
  obtain ⟨hdirectory, hlast⟩ := List.append_inj' heq rfl
  apply hne
  rw [place_eq_of_isNamed home hp, place_eq_of_isNamed home hq, hdirectory,
    List.append_cancel_right (List.singleton_inj.1 hlast)]

/-- A text that is no dots leads nowhere at the end of a path. -/
theorem IsDown.withSuffix {p : Path} (h : p.IsDown) {suffix : String} (hsep : '/' ∉ suffix.toList)
    (hdot : ¬ suffix.toList <:+ ['.', '.']) : (p.withSuffix suffix).IsDown := by
  intro hup
  rw [segments_withSuffix p hsep, List.mem_append, List.mem_singleton] at hup
  rcases hup with habove | hlast
  · refine h ?_
    rw [← above_append_lastSegment]
    exact List.mem_append_left _ habove
  · exact hdot (hlast ▸ List.suffix_append _ _)

/-- What is joined to a directory lies below it. -/
theorem place_join (a : Path) {b : Path} (hb : b.IsDown) (hrelative : b.isAbsolute = false)
    (home : Location) : (a.join b).place home = a.place home ++ b.steps := by
  obtain ⟨hsteps, habsolute⟩ := steps_join (a := a) hrelative
  rw [place_eq_lead_steps, place_eq_lead_steps, hsteps, lead_append, hb.lead_steps, origin, origin,
    habsolute]

theorem suffix_joinChars (a b : List Char) : b <:+ joinChars a b := by
  unfold joinChars
  split
  · exact List.suffix_refl _
  · split
    · exact List.suffix_refl b
    · exact List.suffix_append a b
    · exact ⟨a ++ ['/'], by simp⟩

theorem suffix_join {a b : Path} {t : List Char} (h : t <:+ b.chars) : t <:+ (a.join b).chars := by
  rw [join, ofChars, chars, String.toList_ofList]
  exact h.trans (suffix_joinChars a.chars b.chars)

end Path

namespace Files

variable {f : Files} {p q : Path}

theorem find_place {l : Location} {node : Node} (h : f.find p = .ok (l, node)) :
    l = p.place f.home ∧ f.nodeAt? (p.place f.home) = some node := by
  unfold find at h
  split at h
  · cases h
  · split at h
    · cases h
    · next l' hl' =>
      have hplace : l' = p.place f.home := walk_eq_lead hl'
      split at h
      · cases h
      · next node' hnode =>
        cases h
        exact ⟨hplace, hplace ▸ hnode⟩

theorem find_of_isFile {f : Files} {p : Path} (h : f.isFile p = true) :
    ∃ l x, f.find p = .ok (l, .file x) := by
  unfold isFile at h
  split at h
  · next l x hx => exact ⟨l, x, hx⟩
  · cases h

/-- A path whose last segment takes no step stands for a directory. -/
theorem isFile_eq_false_of_isSilent (hp : Path.isSilent p.lastSegment = true) :
    f.isFile p = false := by
  apply Bool.eq_false_iff.2
  intro hfile
  obtain ⟨l, x, hfind⟩ := find_of_isFile hfile
  unfold find at hfind
  split at hfind
  · cases hfind
  · split at hfind
    · cases hfind
    · next here hwalk =>
      rw [← Path.above_append_lastSegment, walk_append] at hwalk
      split at hwalk
      · cases hwalk
      · next d hd =>
        have hdirectory := isDirectoryAt_of_walk_cons hwalk
        rw [walk_cons_of_isDirectoryAt hdirectory, if_pos hp] at hwalk
        cases hwalk
        obtain ⟨mode, modified, hnode⟩ := hdirectory
        rw [hnode] at hfind
        cases hfind

/-- A time that is found is that of the file at the place. -/
theorem modified_place {x : StoredFile} {t : Int} (h : f.modified p = .ok t)
    (hx : f.nodeAt? (p.place f.home) = some (.file x)) : x.modified = t := by
  unfold modified at h
  split at h
  · cases h
  · next l y hfind =>
    cases h
    rw [(find_place hfind).2] at hx
    cases hx
    rfl
  · next l mode m hfind =>
    rw [(find_place hfind).2] at hx
    cases hx

theorem modified_of_find {l : Location} {x : StoredFile} (h : f.find p = .ok (l, .file x)) :
    f.modified p = .ok x.modified := by
  rw [modified, h]

end Files

end StyleBuild
