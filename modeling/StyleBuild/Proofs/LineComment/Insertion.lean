import StyleBuild.Proofs.LineComment.Placement

/-!
# What line comments leave as it is

An annotated text has all lines of the text, and before some of them one more:
a comment with the number of the line it precedes (`annotate_inserts`). Comments
are put between statements only, and there a comment on one line leaves the
nesting as it is (`feed_comment`). So what is open at the end of the text is open
at the end of the annotated text as well (`scan_annotateFrom`), unless the name
of the file ends the comment or its line.
-/

namespace StyleBuild.LineComment

open Text

variable {n : Nesting} {number : Nat} {file : String} {last : Option Char} {s t line : List Char}

/-- What stands in a line comment, up to the blank in front of its end. -/
def commentBody (number : Nat) (file : String) : List Char :=
  (" line " ++ toString number ++ ", " ++ file).toList

theorem commentBody_eq (number : Nat) (file : String) :
    commentBody number file =
      " line ".toList ++ (Nat.toDigits 10 number ++ (", ".toList ++ file.toList)) := by
  simp [commentBody]

theorem comment_eq (number : Nat) (file : String) :
    comment number file = '/' :: '*' :: (commentBody number file ++ " */\n".toList) := by
  simp [comment, commentBody]

theorem ne_of_mem_toDigits {c : Char} (h : c ∈ Nat.toDigits 10 number) : c ≠ '*' ∧ c ≠ '\n' := by
  have hdigit : c.isDigit = true := Nat.isDigit_of_mem_toDigits (by decide) (by decide) h
  constructor <;> rintro rfl <;> revert hdigit <;> decide

/-- Neither the number nor what is written around it helps to end the comment. -/
theorem not_infix_commentBody (number : Nat) (hends : ¬ "*/".toList <:+: file.toList) :
    ¬ "*/".toList <:+: commentBody number file := by
  have hdigits : ¬ ['*', '/'] <:+: Nat.toDigits 10 number := fun h =>
    (ne_of_mem_toDigits (h.subset List.mem_cons_self)).1 rfl
  rw [commentBody_eq]
  refine not_infix_pair_append_iff.2 ⟨by decide +kernel, not_infix_pair_append_iff.2
    ⟨hdigits, not_infix_pair_append_iff.2 ⟨by decide +kernel, hends, fun hacross => ?_⟩,
      fun hacross => ?_⟩,
    fun hacross => ?_⟩
  · exact absurd hacross.1 (by decide)
  · exact (ne_of_mem_toDigits (List.mem_of_getLast? hacross.1)).1 rfl
  · exact absurd hacross.1 (by decide)

theorem newline_notMem_commentBody (number : Nat) (hline : '\n' ∉ file.toList) :
    '\n' ∉ commentBody number file := by
  have hdigits : '\n' ∉ Nat.toDigits 10 number := fun h => (ne_of_mem_toDigits h).2 rfl
  simp [commentBody_eq, hdigits, hline]

namespace Nesting

theorem inComment_of_betweenStatements (h : n.betweenStatements = true) : n.inComment = false := by
  simp only [betweenStatements, Bool.and_eq_true, Bool.not_eq_true'] at h
  exact h.1.2

/-- In a comment, what does not end it is passed over. -/
theorem readLine_inComment (hin : n.inComment = true) (hs : ¬ "*/".toList <:+: s) (t : List Char) :
    n.readLine none last false (s ++ ' ' :: t) = n.readLine none last false (' ' :: t) := by
  induction s with
  | nil => rfl
  | cons c s ih =>
      have hend : ¬ (c = '*' ∧ (s ++ ' ' :: t).head? = some '/') := by
        rintro ⟨rfl, hhead⟩
        cases s with
        | nil => cases hhead
        | cons d s =>
            cases hhead
            exact hs ⟨[], s, rfl⟩
      rw [List.cons_append, readLine, if_neg (by simp), if_pos hin, if_neg hend]
      exact ih fun hinfix => hs (List.infix_cons hinfix)

/-- A line comment leaves what is open as it is. -/
theorem feed_comment (hends : ¬ "*/".toList <:+: file.toList) (hout : n.inComment = false) :
    n.feed (comment number file) = n := by
  have hopen : n.readLine none none false (comment number file) =
      { n with inComment := true }.readLine none none false
        (commentBody number file ++ " */\n".toList) := by
    rw [comment_eq, readLine, if_neg (by simp), if_neg (by simp [hout])]
    rfl
  have hbody := @readLine_inComment { n with inComment := true } none _ rfl
    (not_infix_commentBody number hends) "*/\n".toList
  have hclosed : { n with inComment := true }.readLine none none false " */\n".toList =
      ({ n with inComment := false }, none) := rfl
  have hsame : { n with inComment := false } = n := by rw [← hout]
  rw [feed_eq, hopen]
  rw [hsame] at hclosed
  exact congrArg close (hbody.trans hclosed)

/-- The first line is read, and then the other ones. -/
theorem scan_append_newline (hs : '\n' ∉ s) (n : Nesting) (t : List Char) :
    n.scan (s ++ '\n' :: t) = (n.feed (s ++ ['\n'])).scan t := by
  rw [scan, keptLines_append_newline hs]
  rfl

/-- A comment between statements is read as if it was not there. -/
theorem scan_comment_append (hends : ¬ "*/".toList <:+: file.toList) (hline : '\n' ∉ file.toList)
    (h : n.betweenStatements = true) (t : List Char) :
    n.scan (comment number file ++ t) = n.scan t := by
  have hcut : comment number file =
      ('/' :: '*' :: (commentBody number file ++ " */".toList)) ++ ['\n'] := by
    rw [comment_eq]
    simp
  have hfront : '\n' ∉ '/' :: '*' :: (commentBody number file ++ " */".toList) := by
    simpa using newline_notMem_commentBody number hline
  rw [hcut, List.append_assoc, List.singleton_append, scan_append_newline hfront, ← hcut,
    feed_comment hends (inComment_of_betweenStatements h)]

/-- What is open behind the annotated lines is what is open behind the lines. -/
theorem scan_annotateFrom (hends : ¬ "*/".toList <:+: file.toList) (hline : '\n' ∉ file.toList)
    (s : List Char) : n.scan (annotateFrom file number n (keptLines s)) = n.scan s := by
  have hhead : ∀ (n : Nesting) (number : Nat) (line t : List Char),
      n.scan ((if n.betweenStatements && opensRule line then comment number file else []) ++ t) =
        n.scan t := by
    intro n number line t
    split
    · next h => exact scan_comment_append hends hline (Bool.and_eq_true_iff.1 h).1 t
    · rfl
  induction s using line_induction generalizing number n with
  | nil => rfl
  | last s hne hs =>
      rw [keptLines_of_notMem hs hne, annotateFrom, annotateFrom, List.append_nil, hhead]
  | line s t hs ih =>
      rw [keptLines_append_newline hs, annotateFrom, List.append_assoc, hhead, List.append_assoc,
        List.singleton_append, scan_append_newline hs, ih, scan_append_newline hs]

end Nesting

theorem withComments_eq_flatMap (file : String) (numbers : List Nat) (number : Nat)
    (lines : List (List Char)) :
    withComments file numbers number lines =
      (lines.zipIdx number).flatMap fun e =>
        (if e.2 ∈ numbers then comment e.2 file else []) ++ e.1 := by
  induction lines generalizing number with
  | nil => rfl
  | cons line lines ih => rw [withComments, ih, List.zipIdx_cons, List.flatMap_cons]

/-- Line comments are inserted and nothing else changes. The annotated text is the lines of the
text, each as it is, and before some of them one line with a comment that has the number of the
line. When the name of the file neither ends a comment nor breaks a line, as much is open after the
annotated text as after the text. -/
theorem annotate_inserts (source file : String) :
    annotate source file = String.ofList
        (((keptLines source.toList).zipIdx 1).flatMap fun e =>
          (if e.2 ∈ ruleLines source.toList
            then ("/* line " ++ toString e.2 ++ ", " ++ file ++ " */\n").toList else []) ++ e.1) ∧
      (keptLines source.toList).flatten = source.toList ∧
      (¬ "*/".toList <:+: file.toList → '\n' ∉ file.toList →
        Nesting.outside.scan (annotate source file).toList =
          Nesting.outside.scan source.toList) := by
  refine ⟨?_, flatten_keptLines _, fun hends hline => ?_⟩
  · rw [annotate_eq, withComments_eq_flatMap]
    rfl
  · rw [annotate, String.toList_ofList]
    exact Nesting.scan_annotateFrom hends hline source.toList

/-- A selector over two lines, an empty line, and a rule that is not closed. -/
def openSheet : String := "$x: 1;\n.a,\n.b \x7b c: d; \x7d\r\n\n  .e \x7b f: g(\n1)"

theorem annotate_inserts_openSheet :
    ¬ "*/".toList <:+: "a/*b*".toList ∧ '\n' ∉ "a/*b*".toList ∧
      annotate openSheet "a/*b*" = "$x: 1;\n/* line 2, a/*b* */\n.a,\n.b \x7b c: d; \x7d\r\n\n" ++
        "/* line 5, a/*b* */\n  .e \x7b f: g(\n1)" ∧
      Nesting.outside.scan (annotate openSheet "a/*b*").toList = ⟨1, 0, false, true⟩ := by
  have hends : ¬ "*/".toList <:+: "a/*b*".toList := by decide
  have hline : '\n' ∉ "a/*b*".toList := by decide
  obtain ⟨htext, -, hscan⟩ := annotate_inserts openSheet "a/*b*"
  refine ⟨hends, hline, htext.trans (by decide +kernel), (hscan hends hline).trans ?_⟩
  decide +kernel

end StyleBuild.LineComment
