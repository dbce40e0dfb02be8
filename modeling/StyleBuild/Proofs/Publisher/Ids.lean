import StyleBuild.Proofs.Record.Apart
import StyleBuild.Publisher.Basic

/-!
# The ids of entries

An entry stands in its id as it is, and what stands before and after it is the
same for every entry. No segment of an entry is silent, so the steps of an id
give the entry back, and the records of different entries are kept apart
(`apart_of_ne`).
-/

namespace StyleBuild

open Text

namespace Publisher

variable {p : Publisher} {entry entry' id id' : String}

/-- What stands before the entry in every id. -/
def idBefore (p : Publisher) : List Char :=
  if p.target.isEmpty then [] else p.target.toList ++ ['/']

/-- What stands after the entry in every id. -/
def idAfter (p : Publisher) : List Char :=
  match p.suffix with
  | some suffix =>
      if suffix.isEmpty then ".css".toList else '_' :: (suffix.toList ++ ".css".toList)
  | none => ".css".toList

theorem outputId_eq_ok (h : p.outputId entry = .ok id) :
    isValidEntry entry = true ∧ id.toList = p.idBefore ++ (entry.toList ++ p.idAfter) := by
  unfold outputId at h
  split at h
  · next hvalid =>
    refine ⟨hvalid, ?_⟩
    cases h
    unfold idBefore idAfter
    cases p.suffix with
    | none => split <;> simp [String.toList_append]
    | some suffix =>
        by_cases hempty : suffix.isEmpty = true
        · simp only [if_pos hempty]
          split <;> simp [String.toList_append]
        · simp only [if_neg hempty]
          split <;> simp [String.toList_append]
  · cases h

theorem steps_idBefore (p : Publisher) (s : List Char) :
    (Path.ofChars (p.idBefore ++ s)).steps =
      (Path.ofChars p.idBefore).steps ++ (Path.ofChars s).steps := by
  unfold idBefore
  split
  · rfl
  · rw [List.append_assoc, List.singleton_append, Path.steps_append_sep, Path.steps_append_sep,
      List.append_assoc]
    rfl

theorem segments_of_isValidEntry (h : isValidEntry entry = true) :
    ∀ s ∈ segments '/' entry.toList, s ≠ [] ∧ s ≠ ['.'] ∧ s ≠ ['.', '.'] := by
  intro s hs
  unfold isValidEntry at h
  simp only [Bool.and_eq_true, List.all_eq_true] at h
  have hsegment := h.2 s hs
  simp only [Bool.not_eq_true', Bool.or_eq_false_iff, beq_eq_false_iff_ne] at hsegment
  refine ⟨fun hnil => ?_, hsegment.1.2, hsegment.2⟩
  subst hnil
  cases hsegment.1.1

/-- What follows an entry silences none of its segments. -/
theorem steps_entry (h : isValidEntry entry = true) (t : List Char) :
    ∃ init l m rest, segments '/' entry.toList = init ++ [l] ∧ segments '/' t = m :: rest ∧
      (Path.ofChars (entry.toList ++ t)).steps =
        init ++ (l ++ m) :: rest.filter fun s => !Path.isSilent s := by
  have hinit := (List.dropLast_append_getLast (segments_ne_nil '/' entry.toList)).symm
  generalize (segments '/' entry.toList).dropLast = init at hinit
  generalize (segments '/' entry.toList).getLast _ = l at hinit
  obtain ⟨m, rest, ht⟩ := List.exists_cons_of_ne_nil (segments_ne_nil '/' t)
  have hvalid := segments_of_isValidEntry h
  rw [hinit] at hvalid
  have hl := hvalid l (List.mem_append_right _ List.mem_cons_self)
  have hloud : Path.isSilent (l ++ m) = false := by
    cases l with
    | nil => exact absurd rfl hl.1
    | cons c l =>
        have hdot : ¬ (c = '.' ∧ l = [] ∧ m = []) := fun ⟨hc, hnil, _⟩ => hl.2.1 (by rw [hc, hnil])
        simpa [Path.isSilent] using fun hc hnil hm => hdot ⟨hc, hnil, hm⟩
  refine ⟨init, l, m, rest, hinit, ht, ?_⟩
  rw [Path.steps, Path.chars_ofChars, segments_append hinit ht, List.filter_append,
    List.filter_cons_of_pos (by simp [hloud]), List.filter_eq_self.2]
  intro s hs
  obtain ⟨hnil, hdot, -⟩ := hvalid s (List.mem_append_left _ hs)
  simp [Path.isSilent, hnil, hdot]

theorem entry_eq_of_steps_eq (h : isValidEntry entry = true) (h' : isValidEntry entry' = true)
    {t : List Char} (hsteps : (Path.ofChars (entry.toList ++ t)).steps =
      (Path.ofChars (entry'.toList ++ t)).steps) :
    entry = entry' := by
  obtain ⟨init, l, m, rest, hinit, ht, heq⟩ := steps_entry h t
  obtain ⟨init', l', m', rest', hinit', ht', heq'⟩ := steps_entry h' t
  obtain ⟨rfl, rfl⟩ := List.cons.inj (ht.symm.trans ht')
  rw [heq, heq'] at hsteps
  obtain ⟨rfl, htail⟩ := List.append_inj' hsteps rfl
  have hl : l = l' := List.append_cancel_right (List.cons.inj htail).1
  subst hl
  have hsegments := hinit.trans hinit'.symm
  have hchars := congrArg (joined '/') hsegments
  rw [joined_segments, joined_segments] at hchars
  exact String.toList_inj.1 hchars

/-- The ids of different entries have different steps, whatever extension they get. -/
theorem steps_id_ne (hid : p.outputId entry = .ok id) (hid' : p.outputId entry' = .ok id')
    (hne : entry ≠ entry') (extension : String) :
    (Path.mk (id ++ extension)).steps ≠ (Path.mk (id' ++ extension)).steps := by
  intro hsteps
  obtain ⟨hvalid, hchars⟩ := outputId_eq_ok hid
  obtain ⟨hvalid', hchars'⟩ := outputId_eq_ok hid'
  refine hne (entry_eq_of_steps_eq (t := p.idAfter ++ extension.toList) hvalid hvalid' ?_)
  have happend : ∀ {i : String} {e : String}, i.toList = p.idBefore ++ (e.toList ++ p.idAfter) →
      (Path.mk (i ++ extension)).steps = (Path.ofChars p.idBefore).steps ++
        (Path.ofChars (e.toList ++ (p.idAfter ++ extension.toList))).steps := by
    intro i e hi
    rw [← steps_idBefore, Path.steps, Path.steps, Path.chars_ofChars, Path.chars,
      String.toList_append, hi, List.append_assoc, List.append_assoc]
  rw [happend hchars, happend hchars'] at hsteps
  exact List.append_cancel_left hsteps

/-- The records of different entries are kept apart. -/
theorem apart_of_ne (hid : p.outputId entry = .ok id) (hid' : p.outputId entry' = .ok id')
    (hne : entry ≠ entry') (home : Location) : p.store.Apart home id id' := by
  cases p.store with
  | memory i =>
      intro heq
      exact steps_id_ne hid hid' hne "" (by rw [heq])
  | files dir =>
      intro hvalid hvalid' hplace
      rw [RecordStore.place_recordFile dir home hvalid,
        RecordStore.place_recordFile dir home hvalid'] at hplace
      exact steps_id_ne hid hid' hne ".meta.json" (List.append_cancel_left hplace)

end Publisher

end StyleBuild
