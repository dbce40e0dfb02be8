import StyleBuild.Engine.ImportFiles
import StyleBuild.Proofs.LineComment.Placement
import StyleBuild.Proofs.Substitution.Origin

/-!
# The lines that imports name

The lines of an import are counted after its functions were expanded. So the
number in a comment is the line of the rule in the expanded text, and that is
its line in the file when the answers in front of it have as many line feeds as
their calls (`load_comments`). A call over two lines with a short answer shifts
all rules behind it (`load_comments_shifted`).
-/

namespace StyleBuild.ImportFiles

open LineComment Substitution Text

variable {request : CompileRequest} {hit : ResolvedImport} {content : ByteArray} {source : String}
  {expansion : Expansion}

/-- An import that is read, is a text and expands is annotated as it was expanded. -/
theorem load_eq_annotate (hread : request.importer.read hit.path = .ok content)
    (htext : String.fromUTF8? content = some source)
    (hexpand : request.functions.expand source = .ok expansion)
    (hcomments : request.formatter.lineComments = true) :
    load request hit = .ok (annotate expansion.text hit.logical) := by
  simp only [load, hread, Except.mapError, bind, Except.bind, htext, pure, Except.pure, hexpand,
    hcomments, if_pos]

/-- Each line comment of an import names the line of the expanded text on which the rule behind it
starts. That is the line in the file but for the line feeds of the calls in front of the rule and
of their answers. -/
theorem load_comments (hread : request.importer.read hit.path = .ok content)
    (htext : String.fromUTF8? content = some source)
    (hexpand : request.functions.expand source = .ok expansion)
    (hcomments : request.formatter.lineComments = true) :
    load request hit = .ok (String.ofList (withComments hit.logical
        (ruleLines expansion.text.toList) 1 (keptLines expansion.text.toList))) ∧
      ∃ replacements,
        request.functions.answers (Registry.spans request.functions.names source) =
          .ok replacements ∧
        ∀ number ∈ ruleLines expansion.text.toList, ∃ front c,
          StartsRule expansion.text.toList front c ∧ 1 + front.count '\n' = number ∧
            LineOrigin source.toList replacements number c := by
  refine ⟨by rw [load_eq_annotate hread htext hexpand hcomments, annotate_eq], ?_⟩
  obtain ⟨replacements, hanswers, houtcome⟩ := Registry.answers_of_expand hexpand
  refine ⟨replacements, hanswers, fun number hnumber => ?_⟩
  obtain ⟨front, c, hstarts, rfl⟩ := startsRule_of_mem hnumber
  obtain ⟨back, hsplit⟩ := hstarts.text
  rw [houtcome, substitute] at hsplit
  have hfits := Registry.fits_of_answers hanswers
  exact ⟨front, c, hstarts, rfl, (origin_of_substituteFrom hfits hsplit).line hfits⟩

/-- A call over two lines, and a rule behind it. -/
def wrappedCall : String := ".a \x7b b: f(1,\n2); \x7d\n.c \x7b d: e; \x7d\n"

/-- A development build of one file, where `f` stands for this text. -/
def wrappedCallRequest (answer : String) : CompileRequest where
  source := ""
  formatter := OutputFormat.expanded.formatter
  importer := ⟨fun _ => none, fun _ => .ok wrappedCall.toUTF8⟩
  functions := ⟨.ofList [("f", fun _ => .ok answer)]⟩

/-- The call is found whatever stands for `f`. -/
theorem expand_wrappedCallRequest (answer : String) :
    (wrappedCallRequest answer).functions.expand wrappedCall =
      .ok ⟨String.ofList (".a \x7b b: ".toList ++ (answer.toList ++
        "; \x7d\n.c \x7b d: e; \x7d\n".toList)), true⟩ := by
  have hnames : (wrappedCallRequest answer).functions.names = ["f"] := rfl
  have hspans : Registry.spans ["f"] wrappedCall = [⟨8, ['f'], "1,\n2".toList, 15⟩] := by
    rw [Registry.spans, Registry.byLength, List.mergeSort_singleton]
    decide +kernel
  rw [Registry.expand_eq, hnames, hspans]
  rfl

/-- An answer over as many lines as the call leaves the rule behind it where it is. -/
theorem load_comments_wrapped :
    load (wrappedCallRequest "1\n+ 2") ⟨"a.scss", ⟨"theme/a.scss"⟩⟩ =
      .ok ("/* line 1, a.scss */\n.a \x7b b: 1\n+ 2; \x7d\n" ++
        "/* line 3, a.scss */\n.c \x7b d: e; \x7d\n") := by
  obtain ⟨hload, -⟩ := @load_comments (wrappedCallRequest "1\n+ 2") ⟨"a.scss", ⟨"theme/a.scss"⟩⟩
    wrappedCall.toUTF8 wrappedCall _ rfl (by decide +kernel) (expand_wrappedCallRequest _) rfl
  rw [hload]
  decide +kernel

/-- A shorter answer moves the rule up: the comment names line 2, and the rule is on line 3. -/
theorem load_comments_shifted :
    load (wrappedCallRequest "x") ⟨"a.scss", ⟨"theme/a.scss"⟩⟩ =
        .ok ("/* line 1, a.scss */\n.a \x7b b: x; \x7d\n" ++
          "/* line 2, a.scss */\n.c \x7b d: e; \x7d\n") ∧
      wrappedCall.toList[19]? = some '.' ∧ lineAt wrappedCall.toList 19 = 3 := by
  constructor
  · rw [@load_eq_annotate _ ⟨"a.scss", ⟨"theme/a.scss"⟩⟩ wrappedCall.toUTF8 wrappedCall _ rfl
      (by decide +kernel) (expand_wrappedCallRequest _) rfl]
    decide +kernel
  · decide +kernel

end StyleBuild.ImportFiles
