import StyleBuild.Config.Basic
import StyleBuild.Proofs.Files.Components

/-!
# Rebasing a configuration

Texts of paths are joined associatively (`join_assoc`), whichever of them are
empty, absolute or end in a separator: a relative path is written behind the text
above it, with the separator that this text needs, and an absolute one stands
alone. So a configuration that is seen from one base and then from another is
seen from the two bases joined (`rebase_rebase`), and an absolute base leaves
nothing to a later one.
-/

namespace StyleBuild

namespace Path

variable {a b c : List Char}

/-- A text with the separator that a path below it needs; the empty text needs none. -/
def withSeparator (a : List Char) : List Char :=
  if a = [] ∨ a.getLast? = some '/' then a else a ++ ['/']

theorem joinChars_absolute (a : List Char) (hb : b.head? = some '/') : joinChars a b = b := by
  obtain ⟨rest, rfl⟩ := List.head?_eq_some_iff.1 hb
  rw [joinChars]

theorem joinChars_relative (a : List Char) (hb : b.head? ≠ some '/') :
    joinChars a b = withSeparator a ++ b := by
  unfold joinChars withSeparator
  split
  · exact absurd rfl hb
  · split
    · next hnone => rw [List.getLast?_eq_none_iff.1 hnone, if_pos (.inl rfl), List.nil_append]
    · next hslash => rw [if_pos (.inr hslash)]
    · next d hother hlast =>
      rw [if_neg, List.append_assoc, List.singleton_append]
      rintro (rfl | hslash)
      · cases hlast
      · exact hother (Option.some.inj (hlast.symm.trans hslash))

theorem withSeparator_eq_nil_iff : withSeparator a = [] ↔ a = [] := by
  unfold withSeparator
  split
  · exact Iff.rfl
  · next h => exact ⟨fun hnil => absurd hnil (by simp), fun hnil => absurd (.inl hnil) h⟩

/-- A text with its separator needs no other one. -/
theorem withSeparator_withSeparator (a : List Char) :
    withSeparator (withSeparator a) = withSeparator a := by
  nth_rewrite 1 [withSeparator]
  refine if_pos ?_
  unfold withSeparator
  split
  · assumption
  · exact .inr List.getLast?_concat

/-- Of two texts the second one decides on the separator, unless it is empty. -/
theorem withSeparator_append (a b : List Char) :
    withSeparator (withSeparator a ++ b) = withSeparator a ++ withSeparator b := by
  rcases eq_or_ne b [] with rfl | hb
  · rw [List.append_nil, withSeparator_withSeparator, withSeparator_eq_nil_iff.2 rfl,
      List.append_nil]
  · have hlast : (withSeparator a ++ b).getLast? = b.getLast? :=
      List.getLast?_append_of_ne_nil _ hb
    rw [withSeparator.eq_1 (_ ++ b), withSeparator.eq_1 b, hlast]
    simp only [List.append_eq_nil_iff, hb, and_false, false_or]
    split
    · rfl
    · rw [List.append_assoc]

/-- What is behind a relative text is relative, if it was so alone. -/
theorem head?_withSeparator_append (ha : a.head? ≠ some '/') (hb : b.head? ≠ some '/') :
    (withSeparator a ++ b).head? ≠ some '/' := by
  cases a with
  | nil =>
      rw [withSeparator_eq_nil_iff.2 rfl, List.nil_append]
      exact hb
  | cons d a =>
      unfold withSeparator
      split
      · exact ha
      · exact ha

theorem joinChars_assoc (a b c : List Char) :
    joinChars (joinChars a b) c = joinChars a (joinChars b c) := by
  by_cases hc : c.head? = some '/'
  · rw [joinChars_absolute _ hc, joinChars_absolute _ hc, joinChars_absolute _ hc]
  · by_cases hb : b.head? = some '/'
    · have habsolute : (joinChars b c).head? = some '/' := by
        obtain ⟨rest, rfl⟩ := List.head?_eq_some_iff.1 hb
        rw [joinChars_relative _ hc, withSeparator]
        split <;> rfl
      rw [joinChars_absolute a hb, joinChars_absolute a habsolute]
    · have hrelative := head?_withSeparator_append hb hc
      rw [joinChars_relative a hb, joinChars_relative _ hc, joinChars_relative b hc,
        joinChars_relative a hrelative, withSeparator_append, List.append_assoc]

theorem join_assoc (p q r : Path) : (p.join q).join r = p.join (q.join r) := by
  rw [join, join, join, join, chars_ofChars, chars_ofChars, joinChars_assoc]

theorem join_of_isAbsolute (p : Path) {q : Path} (hq : q.isAbsolute = true) : p.join q = q := by
  rw [isAbsolute_eq, beq_iff_eq] at hq
  rw [join, joinChars_absolute p.chars hq, ofChars, chars, String.ofList_toList]

end Path

namespace Config

variable {base dir : Path} {c : Config}

/-- The check of a directory decides nothing that joining would not do. -/
theorem rebaseDir_eq_join (base dir : Path) : rebaseDir base dir = base.join dir := by
  unfold rebaseDir
  split
  · next h => exact (Path.join_of_isAbsolute base h).symm
  · rfl

theorem rebaseDir_rebaseDir (base base' dir : Path) :
    rebaseDir base' (rebaseDir base dir) = rebaseDir (base'.join base) dir := by
  rw [rebaseDir_eq_join, rebaseDir_eq_join, rebaseDir_eq_join, Path.join_assoc]

theorem isAbsolute_rebaseDir (hbase : base.isAbsolute = true) (dir : Path) :
    (rebaseDir base dir).isAbsolute = true := by
  unfold rebaseDir
  split
  · assumption
  · next h => rw [(Path.steps_join (Bool.eq_false_iff.2 h)).2, hbase]

/-- Every directory of a configuration is absolute, the one for records included. -/
structure IsAbsolute (c : Config) : Prop where
  mounts : ∀ e ∈ c.mounts.entries, ∀ dir ∈ e.2, dir.isAbsolute = true
  metadata : ∃ dir, c.metadataDir = some dir ∧ dir.isAbsolute = true

theorem isAbsolute_rebase (c : Config) (hbase : base.isAbsolute = true) :
    (c.rebase base).IsAbsolute := by
  refine ⟨fun e he dir hdir => ?_, _, rfl, isAbsolute_rebaseDir hbase c.recordDir⟩
  obtain ⟨e, -, rfl⟩ := List.mem_map.1 he
  obtain ⟨dir, -, rfl⟩ := List.mem_map.1 hdir
  exact isAbsolute_rebaseDir hbase dir

/-- Where all directories are absolute there is nothing to rebase. -/
theorem IsAbsolute.rebase_eq (h : c.IsAbsolute) (base : Path) : c.rebase base = c := by
  obtain ⟨dir, hsome, habsolute⟩ := h.metadata
  have hrecord : some (rebaseDir base c.recordDir) = c.metadataDir := by
    rw [recordDir, hsome, Option.getD_some, rebaseDir, if_pos habsolute]
  have hmounts : (c.mounts.map fun dirs => dirs.map (rebaseDir base)) = c.mounts := by
    have hentry : ∀ e ∈ c.mounts.entries, (e.1, e.2.map (rebaseDir base)) = id e := by
      intro e he
      have hdirs : e.2.map (rebaseDir base) = e.2.map id :=
        List.map_congr_left fun dir hdir => if_pos (h.mounts e he dir hdir)
      rw [hdirs, List.map_id]
      rfl
    exact Dictionary.eq ((List.map_congr_left hentry).trans (List.map_id _))
  rw [rebase, hrecord, hmounts]

/-- A configuration that is seen from one base and then from another is seen from the two bases
joined, the default directory for records included. Seen from an absolute base, all its directories
are absolute and it is the same from everywhere. -/
theorem rebase_rebase (c : Config) (base base' : Path) :
    (c.rebase base).rebase base' = c.rebase (base'.join base) ∧
      (base.isAbsolute = true →
        (c.rebase base).IsAbsolute ∧ (c.rebase base).rebase base' = c.rebase base) := by
  have hmounts : ((c.rebase base).mounts.map fun dirs => dirs.map (rebaseDir base')) =
      c.mounts.map fun dirs => dirs.map (rebaseDir (base'.join base)) := by
    refine Dictionary.eq ?_
    simp only [rebase, Dictionary.map, List.map_map, Function.comp_def, rebaseDir_rebaseDir]
  have hrecord : rebaseDir base' (c.rebase base).recordDir =
      rebaseDir (base'.join base) c.recordDir := rebaseDir_rebaseDir base base' c.recordDir
  refine ⟨?_, fun hbase => ?_⟩
  · rw [rebase, hmounts, hrecord]
    rfl
  · have habsolute := isAbsolute_rebase c hbase
    exact ⟨habsolute, habsolute.rebase_eq base'⟩

/-- A relative mount directory, an absolute one and one that is empty. -/
def mounted : Config :=
  { Config.default with
    mounts := .ofList [("theme", [⟨"scss"⟩, ⟨"/srv/base/"⟩]), ("public", [⟨""⟩])] }

theorem rebase_rebase_mounted :
    (mounted.rebase ⟨"site"⟩).rebase ⟨"/home/"⟩ = mounted.rebase ⟨"/home/site"⟩ ∧
      (mounted.rebase ⟨"/home/site"⟩).IsAbsolute ∧
      (mounted.rebase ⟨"/home/site"⟩).rebase ⟨"other"⟩ =
        { mounted with
          mounts := .ofList [("theme", [⟨"/home/site/scss"⟩, ⟨"/srv/base/"⟩]),
            ("public", [⟨"/home/site/"⟩])]
          metadataDir := some ⟨"/home/site/.sheetpress/meta"⟩ } := by
  obtain ⟨hjoin, -⟩ := rebase_rebase mounted ⟨"site"⟩ ⟨"/home/"⟩
  obtain ⟨habsolute, hsame⟩ :=
    (rebase_rebase mounted ⟨"/home/site"⟩ ⟨"other"⟩).2 (by decide +kernel)
  exact ⟨hjoin, habsolute, hsame.trans (by decide +kernel)⟩

end Config

end StyleBuild
