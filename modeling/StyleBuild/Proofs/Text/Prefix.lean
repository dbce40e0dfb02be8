import Mathlib.Data.List.Infix

/-!
# Beginnings of a string

A string that begins another one leaves a string behind it, so of two strings
that begin the same one the shorter begins the longer, and those of one size are
the same (`eq_of_isPrefix`).
-/

namespace StyleBuild.Text

/-- A string that begins another one leaves a string behind it. -/
theorem exists_eq_append_of_isPrefix {a b : String} (h : a.toList <+: b.toList) :
    ∃ rest, b = a ++ rest := by
  obtain ⟨t, ht⟩ := h
  refine ⟨String.ofList t, ?_⟩
  rw [← String.toList_inj, String.toList_append, String.toList_ofList, ht]

/-- Strings of the same size that begin one text are the same. -/
theorem eq_of_isPrefix {a b : String} {s : List Char} (ha : a.toList <+: s) (hb : b.toList <+: s)
    (hsize : a.utf8ByteSize = b.utf8ByteSize) : a = b := by
  have hextend : ∀ {c d : String}, c.toList <+: d.toList → c.utf8ByteSize = d.utf8ByteSize →
      c = d := by
    intro c d h hcd
    obtain ⟨rest, rfl⟩ := exists_eq_append_of_isPrefix h
    rw [String.utf8ByteSize_append] at hcd
    have hnil : rest.utf8ByteSize = 0 := by omega
    rw [String.utf8ByteSize_eq_zero_iff.1 hnil, String.append_empty]
  rcases List.prefix_or_prefix_of_prefix ha hb with h | h
  · exact hextend h hsize
  · exact (hextend h hsize.symm).symm

end StyleBuild.Text
