import StyleBuild.Compiler
import StyleBuild.Proofs.Text.Lines

/-!
# The comment of an entry that is not found

What an entry compiles to never begins with its import. An entry that is not
found compiles to its import between `/*` and `*/`, and nothing is read for it.
The import is written into the comment as it is, so this is one comment on one
line exactly when the entry itself neither ends a comment nor breaks a line
(`isComment_compile_iff`).
-/

namespace StyleBuild

open Text

/-- The characters that end a line of a stylesheet. -/
def IsLineBreak (c : Char) : Prop := c = '\n' ∨ c = '\r' ∨ c = '\x0c'

instance : DecidablePred IsLineBreak := fun c =>
  inferInstanceAs (Decidable (c = '\n' ∨ c = '\r' ∨ c = '\x0c'))

/-- One comment on one line: what ends it is the first `*/` behind its opening. -/
structure IsComment (css : List Char) : Prop where
  closed : ∃ body, css = "/*".toList ++ (body ++ "*/".toList) ∧
    ∀ front back, body ++ "*/".toList = front ++ ("*/".toList ++ back) → back = []
  no_break : ∀ c ∈ css, ¬ IsLineBreak c

/-- A comment ends at its end when its body, with the `*` behind it, has no end in it. -/
theorem closed_iff {body : List Char} :
    (∀ front back, body ++ "*/".toList = front ++ ("*/".toList ++ back) → back = []) ↔
      ¬ "*/".toList <:+: body ++ ['*'] := by
  have hend : body ++ "*/".toList = body ++ ['*'] ++ ['/'] :=
    (List.append_assoc body ['*'] ['/']).symm
  rw [hend]
  constructor
  · rintro h ⟨front, back, hmid⟩
    refine List.concat_ne_nil '/' back (h front (back ++ ['/']) ?_)
    rw [← hmid]
    simp only [List.append_assoc]
  · intro h front back htext
    rcases List.eq_nil_or_concat' back with hnil | ⟨back', c, rfl⟩
    · exact hnil
    · have hsame : body ++ ['*'] ++ ['/'] = front ++ "*/".toList ++ back' ++ [c] := by
        rw [htext]
        simp only [List.append_assoc]
      exact absurd ⟨front, back', (List.append_inj' hsame rfl).1.symm⟩ h

namespace Compiler

variable {c : Compiler} {importer : Importer} {entry : String} {compiled : CompiledCss}

/-- The entry in the comment that shows its import. -/
theorem unresolved_css (entry : String) :
    (CompiledCss.unresolved (entryStatement entry)).css.toList =
      "/*".toList ++
        (" @import \"".toList ++ (entry.toList ++ ".scss\" ".toList) ++ "*/".toList) := by
  simp [CompiledCss.unresolved, entryStatement, sourceExtension]

/-- What is written around an entry neither ends the comment nor helps to end it. -/
theorem isComment_unresolved_iff (entry : String) :
    IsComment (CompiledCss.unresolved (entryStatement entry)).css.toList ↔
      ¬ "*/".toList <:+: entry.toList ∧ ∀ c ∈ entry.toList, ¬ IsLineBreak c := by
  rw [unresolved_css]
  constructor
  · rintro ⟨⟨body, hbody, hclosed⟩, hbreak⟩
    obtain rfl := List.append_cancel_right (List.append_cancel_left hbody)
    refine ⟨fun hends => closed_iff.1 hclosed (hends.trans ?_),
      fun c hc => hbreak c (by simp [hc])⟩
    exact ⟨" @import \"".toList, ".scss\" *".toList, by simp⟩
  · rintro ⟨hends, hbreak⟩
    refine ⟨⟨_, rfl, closed_iff.2 ?_⟩, ?_⟩
    · -- neither the quote in front of the entry nor the dot behind it is half of an end
      rw [List.append_assoc, List.append_assoc]
      refine not_infix_pair_append_iff.2 ⟨by decide +kernel, ?_, fun hacross => ?_⟩
      · refine not_infix_pair_append_iff.2 ⟨hends, by decide +kernel, fun hacross => ?_⟩
        exact absurd hacross.2 (by decide +kernel)
      · exact absurd hacross.1 (by decide +kernel)
    · have haround : ∀ c ∈ "/*".toList ++
          (" @import \"".toList ++ (".scss\" ".toList ++ "*/".toList)), ¬ IsLineBreak c := by
        simp [IsLineBreak]
      intro c hc
      by_cases hentry : c ∈ entry.toList
      · exact hbreak c hentry
      · refine haround c ?_
        simp only [List.mem_append, hentry, false_or, or_assoc] at hc ⊢
        exact hc

/-- What the engine is asked for. -/
def request (c : Compiler) (importer : Importer) (entry : String) : CompileRequest :=
  ⟨c.program (entryStatement entry), c.format.formatter, importer, c.functions⟩

/-- An entry is not found when the importer has no file for it, or when the engine shows its import
instead of CSS. -/
def Misses (c : Compiler) (importer : Importer) (entry : String) : Prop :=
  importer.resolve (entry ++ sourceExtension) = none ∨
    ∃ output, c.engine.compile (c.request importer entry) = .ok output ∧
      (entryStatement entry).toList <+: output.css.toList

/-- What was compiled is the comment for an entry that is missed, and the engine's output for any
other. -/
theorem compile_cases (h : c.compile importer entry = .ok compiled) :
    ('"' ∉ entry.toList ∧ '\\' ∉ entry.toList) ∧
      ((c.Misses importer entry ∧ compiled = .unresolved (entryStatement entry)) ∨
        ∃ output, ¬ c.Misses importer entry ∧
          c.engine.compile (c.request importer entry) = .ok output ∧
          compiled = ⟨output.css, output.sources, true⟩) := by
  unfold compile at h
  split at h
  · cases h
  · next hplain =>
    refine ⟨by simpa using hplain, ?_⟩
    simp only at h
    split at h
    · next hnone =>
      cases h
      exact .inl ⟨.inl hnone, rfl⟩
    · next hit hhit =>
      split at h
      · cases h
      · next output houtput =>
        have hstarts := startsWith_iff_prefix (entryStatement entry).toList output.css.toList
        split at h
        · next hstart =>
          cases h
          exact .inl ⟨.inr ⟨output, houtput, hstarts.1 hstart⟩, rfl⟩
        · next hstart =>
          cases h
          refine .inr ⟨output, ?_, houtput, rfl⟩
          rintro (hnone | ⟨output', houtput', hstart'⟩)
          · rw [hhit] at hnone
            cases hnone
          · cases houtput.symm.trans houtput'
            exact hstart (hstarts.2 hstart')

/-- The entries that compile to the comment. -/
theorem compile_eq_unresolved_iff :
    c.compile importer entry = .ok (.unresolved (entryStatement entry)) ↔
      ('"' ∉ entry.toList ∧ '\\' ∉ entry.toList) ∧ c.Misses importer entry := by
  constructor
  · intro h
    obtain ⟨hplain, ⟨hmiss, -⟩ | ⟨output, -, -, hcompiled⟩⟩ := compile_cases h
    · exact ⟨hplain, hmiss⟩
    · cases congrArg CompiledCss.entryFound hcompiled
  · rintro ⟨⟨hquote, hback⟩, hmiss⟩
    unfold compile
    rw [if_neg (by simp [hquote, hback])]
    simp only
    split
    · rfl
    · next hit hhit =>
      rcases hmiss with hnone | ⟨output, houtput, hstart⟩
      · rw [hhit] at hnone
        cases hnone
      · have hstarts := startsWith_iff_prefix (entryStatement entry).toList output.css.toList
        rw [request] at houtput
        rw [houtput]
        simp only
        rw [if_pos (hstarts.2 hstart)]

/-- An entry without a quote and a backslash that is not found compiles to its import between `/*`
and `*/`, and nothing is read for it; that is one comment on one line when there is no `*/` and no
line break in the entry, and only then. Nothing that any entry compiles to begins with its
import. -/
theorem isComment_compile_iff :
    (c.compile importer entry = .ok (.unresolved (entryStatement entry)) ↔
        ('"' ∉ entry.toList ∧ '\\' ∉ entry.toList) ∧ c.Misses importer entry) ∧
      ∀ compiled, c.compile importer entry = .ok compiled →
        ¬ (entryStatement entry).toList <+: compiled.css.toList ∧
          (compiled.entryFound = false ↔ c.Misses importer entry) ∧
          (compiled.entryFound = false → compiled.sources = [] ∧
            compiled.css = "/* " ++ entryStatement entry ++ " */" ∧
            (IsComment compiled.css.toList ↔
              ¬ "*/".toList <:+: entry.toList ∧ ∀ x ∈ entry.toList, ¬ IsLineBreak x)) := by
  refine ⟨compile_eq_unresolved_iff, fun compiled h => ?_⟩
  obtain ⟨-, ⟨hmiss, rfl⟩ | ⟨output, hfound, houtput, rfl⟩⟩ := compile_cases h
  · refine ⟨fun hstart => ?_, iff_of_true rfl hmiss,
      fun _ => ⟨rfl, rfl, isComment_unresolved_iff entry⟩⟩
    -- one begins with `@`, the other with `/`
    rw [unresolved_css, entryStatement] at hstart
    simp at hstart
  · exact ⟨fun hstart => hfound (.inr ⟨output, houtput, hstart⟩), iff_of_false (by simp) hfound,
      fun hnot => by cases hnot⟩

/-- An engine that shows the program instead of CSS. -/
def echo : Engine := ⟨"echo", fun request => .ok ⟨request.source, [⟨"button.scss"⟩]⟩⟩

/-- An importer that has every file, each of them empty. -/
def everything : Importer := ⟨fun token => some ⟨token, ⟨token⟩⟩, fun _ => .ok .empty⟩

def nothing : Importer := ⟨fun _ => none, fun _ => .error .notFound⟩

theorem isComment_compile_iff_echo :
    (new echo true).compile everything "button" =
        .ok ⟨"/* @import \"button.scss\" */", [], false⟩ ∧
      IsComment "/* @import \"button.scss\" */".toList := by
  have hcompile : (new echo true).compile everything "button" =
      .ok ⟨"/* @import \"button.scss\" */", [], false⟩ := by
    decide +kernel
  obtain ⟨-, -, hmiss⟩ := isComment_compile_iff.2 _ hcompile
  exact ⟨hcompile, (hmiss rfl).2.2.2 ⟨by decide +kernel, by simp [IsLineBreak]⟩⟩

/-- The comment ends within the entry, or goes over two lines. -/
theorem unresolved_open :
    (new echo true).compile nothing "a*/b" = .ok ⟨"/* @import \"a*/b.scss\" */", [], false⟩ ∧
      ¬ IsComment "/* @import \"a*/b.scss\" */".toList ∧
      (new echo true).compile nothing "a\nb" = .ok ⟨"/* @import \"a\nb.scss\" */", [], false⟩ ∧
      ¬ IsComment "/* @import \"a\nb.scss\" */".toList := by
  refine ⟨by decide +kernel, fun h => ?_, by decide +kernel, fun h => ?_⟩
  · exact ((isComment_unresolved_iff "a*/b").1 h).1 (by decide +kernel)
  · exact ((isComment_unresolved_iff "a\nb").1 h).2 '\n' (by decide +kernel) (by decide)

end Compiler

end StyleBuild
