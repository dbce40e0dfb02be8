import StyleBuild.Proofs.Engine.Answers

/-!
# What is read in a compilation

A question for a text is answered with a text or fails (`Turn.Reads`), and a
failure is answered with the empty text. After some turns the files that were
read are listed in the order of their first reading (`sources_after`), and the
failure is the first one (`failure_after`).

A dialogue takes one turn after the other with its request
(`Dialogue.run_snd`). So its engine ends with the first failure, if there is one
among the texts that it asked for, and otherwise with its own outcome and the
list of the files (`compile_ofDialogue`).
-/

namespace StyleBuild

/-- The paths without those whose steps an earlier path has. -/
def firsts : List Path → List Path
  | [] => []
  | p :: rest => p :: (firsts rest).filter fun q => q.components ≠ p.components

theorem firsts_sublist (l : List Path) : (firsts l).Sublist l := by
  induction l with
  | nil => exact List.Sublist.refl _
  | cons p l ih => exact (List.filter_sublist.trans ih).cons_cons p

theorem pairwise_firsts (l : List Path) :
    (firsts l).Pairwise fun p q => p.components ≠ q.components := by
  induction l with
  | nil => exact List.Pairwise.nil
  | cons p l ih =>
      refine List.pairwise_cons.2 ⟨fun q hq => ?_, ih.filter _⟩
      exact (of_decide_eq_true (List.mem_filter.1 hq).2).symm

/-- Some path with these steps is kept. -/
theorem exists_firsts {l : List Path} {p : Path} (h : p ∈ l) :
    ∃ q ∈ firsts l, q.components = p.components := by
  induction l with
  | nil => cases h
  | cons a l ih =>
      by_cases hsame : a.components = p.components
      · exact ⟨a, List.mem_cons_self, hsame⟩
      · rcases List.mem_cons.1 h with rfl | h
        · exact absurd rfl hsame
        · obtain ⟨q, hq, hqp⟩ := ih h
          refine ⟨q, List.mem_cons_of_mem _ (List.mem_filter.2 ⟨hq, ?_⟩), hqp⟩
          exact decide_eq_true fun hqa => hsame (hqa.symm.trans hqp)

/-- A path is kept where it comes first. -/
theorem mem_firsts_iff {l : List Path} {p : Path} : p ∈ firsts l ↔
    ∃ front back, l = front ++ p :: back ∧ ∀ q ∈ front, q.components ≠ p.components := by
  induction l with
  | nil => simp [firsts]
  | cons a l ih =>
      rw [firsts, List.mem_cons, List.mem_filter, ih]
      constructor
      · rintro (rfl | ⟨⟨front, back, rfl, hfront⟩, hne⟩)
        · exact ⟨[], l, rfl, fun q hq => (List.not_mem_nil hq).elim⟩
        · exact ⟨a :: front, back, rfl,
            List.forall_mem_cons.2 ⟨(of_decide_eq_true hne).symm, hfront⟩⟩
      · rintro ⟨front, back, hl, hfront⟩
        cases front with
        | nil =>
            cases hl
            exact Or.inl rfl
        | cons b front =>
            cases hl
            obtain ⟨hne, hfront⟩ := List.forall_mem_cons.1 hfront
            exact Or.inr ⟨⟨front, back, rfl, hfront⟩, decide_eq_true hne.symm⟩

theorem any_firsts (l : List Path) (p : Path) :
    ((firsts l).any fun q => q.components == p.components) =
      l.any fun q => q.components == p.components := by
  rw [Bool.eq_iff_iff, List.any_eq_true, List.any_eq_true]
  constructor
  · rintro ⟨q, hq, hsame⟩
    exact ⟨q, (firsts_sublist l).subset hq, hsame⟩
  · rintro ⟨q, hq, hsame⟩
    obtain ⟨r, hr, hrq⟩ := exists_firsts hq
    exact ⟨r, hr, by rw [hrq]; exact hsame⟩

/-- One more path is kept unless its steps are there. -/
theorem firsts_concat (l : List Path) (p : Path) :
    firsts (l ++ [p]) =
      if l.any (fun q => q.components == p.components) then firsts l else firsts l ++ [p] := by
  induction l with
  | nil => rfl
  | cons a l ih =>
      rw [List.cons_append, firsts, ih, firsts, List.any_cons]
      by_cases hsame : a.components = p.components
      · rw [beq_iff_eq.2 hsame, Bool.true_or, if_pos rfl]
        split
        · rfl
        · rw [List.filter_append, List.filter_cons_of_neg (by simp [hsame]), List.filter_nil,
            List.append_nil]
      · rw [beq_eq_false_iff_ne.2 hsame, Bool.false_or]
        split
        · rfl
        · rw [List.filter_append, List.filter_cons_of_pos (by simp [Ne.symm hsame]),
            List.filter_nil, List.cons_append]

namespace ImportFiles

/-- How a question for the text at a path ends: with the file that was read and its text, or with a
failure. -/
inductive Turn.Reads (t : Turn) (s : ImportFiles) : Except Error (Path × String) → Prop where
  | missing (hnone : t.answer? s = none) :
      t.Reads s (.error (.rejected (.missingImport t.path)))
  | unreadable (hit : ResolvedImport) (fault : Files.Fault) (hhit : t.answer? s = some hit)
      (hread : t.request.importer.read hit.path = .error fault) : t.Reads s (.error (.files fault))
  | notText (hit : ResolvedImport) (content : ByteArray) (hhit : t.answer? s = some hit)
      (hread : t.request.importer.read hit.path = .ok content)
      (hutf8 : String.fromUTF8? content = none) :
      t.Reads s (.error (.rejected (.notText hit.logical)))
  | unexpanded (hit : ResolvedImport) (content : ByteArray) (source : String) (e : Error)
      (hhit : t.answer? s = some hit) (hread : t.request.importer.read hit.path = .ok content)
      (hutf8 : String.fromUTF8? content = some source)
      (hexpand : t.request.functions.expand source = .error e) : t.Reads s (.error e)
  | loaded (hit : ResolvedImport) (content : ByteArray) (source : String)
      (expansion : Substitution.Expansion) (hhit : t.answer? s = some hit)
      (hread : t.request.importer.read hit.path = .ok content)
      (hutf8 : String.fromUTF8? content = some source)
      (hexpand : t.request.functions.expand source = .ok expansion) :
      t.Reads s (.ok (hit.path,
        if t.request.formatter.lineComments then LineComment.annotate expansion.text hit.logical
        else expansion.text))

/-- The end of a question for a text, whatever the question is. -/
def Turn.reading (t : Turn) (s : ImportFiles) : Except Error (Path × String) :=
  match t.answer? s with
  | none => .error (.rejected (.missingImport t.path))
  | some hit => (load t.request hit).map fun text => (hit.path, text)

/-- How the questions for texts end, in order. -/
def readings : ImportFiles → List Turn → List (Except Error (Path × String))
  | _, [] => []
  | s, t :: turns =>
    match t.question with
    | .isFile => readings (t.take s) turns
    | .text => t.reading s :: readings (t.take s) turns

/-- The files that were read, once for each time. -/
def loads (results : List (Except Error (Path × String))) : List Path :=
  results.filterMap fun
    | .ok (path, _) => some path
    | .error _ => none

def firstFailure? (results : List (Except Error (Path × String))) : Option Error :=
  results.findSome? fun
    | .ok _ => none
    | .error e => some e

/-- The text that is given for the end of a question: none is seen to fail. -/
def textGiven : Except Error (Path × String) → String
  | .ok (_, text) => text
  | .error _ => ""

variable {s : ImportFiles} {turns : List Turn} {t : Turn}

theorem load_cases (request : CompileRequest) (hit : ResolvedImport) :
    load request hit =
      match request.importer.read hit.path with
      | .error fault => .error (.files fault)
      | .ok content =>
        match String.fromUTF8? content with
        | none => .error (.rejected (.notText hit.logical))
        | some source =>
          match request.functions.expand source with
          | .error e => .error e
          | .ok expansion =>
            .ok (if request.formatter.lineComments then
              LineComment.annotate expansion.text hit.logical else expansion.text) := by
  unfold load
  cases request.importer.read hit.path with
  | error fault => rfl
  | ok content =>
      simp only [Except.mapError, bind, Except.bind]
      cases String.fromUTF8? content with
      | none => rfl
      | some source =>
          simp only [pure, Except.pure]
          cases request.functions.expand source <;> rfl

theorem reads_reading (t : Turn) (s : ImportFiles) : t.Reads s (t.reading s) := by
  unfold Turn.reading
  cases hanswer : t.answer? s with
  | none => exact .missing hanswer
  | some hit =>
      simp only [load_cases]
      cases hread : t.request.importer.read hit.path with
      | error fault => exact .unreadable hit fault hanswer hread
      | ok content =>
          simp only
          cases hutf8 : String.fromUTF8? content with
          | none => exact .notText hit content hanswer hread hutf8
          | some source =>
              simp only
              cases hexpand : t.request.functions.expand source with
              | error e => exact .unexpanded hit content source e hanswer hread hutf8 hexpand
              | ok expansion =>
                  exact .loaded hit content source expansion hanswer hread hutf8 hexpand

/-- A question for a text ends in one way. -/
theorem reads_iff {result : Except Error (Path × String)} :
    t.Reads s result ↔ t.reading s = result := by
  constructor
  · rintro (hnone | ⟨hit, fault, hhit, hread⟩ | ⟨hit, content, hhit, hread, hutf8⟩ |
      ⟨hit, content, source, e, hhit, hread, hutf8, hexpand⟩ |
      ⟨hit, content, source, expansion, hhit, hread, hutf8, hexpand⟩)
    · rw [Turn.reading, hnone]
    · simp only [Turn.reading, hhit, load_cases, hread]
      rfl
    · simp only [Turn.reading, hhit, load_cases, hread, hutf8]
      rfl
    · simp only [Turn.reading, hhit, load_cases, hread, hutf8, hexpand]
      rfl
    · simp only [Turn.reading, hhit, load_cases, hread, hutf8, hexpand]
      rfl
  · rintro rfl
    exact reads_reading t s

/-- A text is given, and what is left behind is the look-up and the end of the question. -/
theorem read_eq_reading (t : Turn) (s : ImportFiles) :
    s.read t.request t.path = (textGiven (t.reading s),
      match t.reading s with
      | .ok (path, _) => (s.lookup t.request.importer.resolve t.path).2.addSource path
      | .error e => (s.lookup t.request.importer.resolve t.path).2.keepFailure e) := by
  unfold read Turn.reading Turn.answer?
  rcases s.lookup t.request.importer.resolve t.path with ⟨_ | hit, u⟩
  · rfl
  · cases hload : load t.request hit <;> simp only [hload] <;> rfl

theorem lookup_snd (resolve : String → Option ResolvedImport) (s : ImportFiles) (p : Path) :
    (s.lookup resolve p).2.sources = s.sources ∧ (s.lookup resolve p).2.failure = s.failure := by
  unfold lookup
  split
  · exact ⟨rfl, rfl⟩
  · split <;> exact ⟨rfl, rfl⟩

theorem addSource_failure (s : ImportFiles) (p : Path) : (s.addSource p).failure = s.failure := by
  unfold addSource
  split <;> rfl

theorem readings_append (s : ImportFiles) (front back : List Turn) :
    readings s (front ++ back) = readings s front ++ readings (s.after front) back := by
  induction front generalizing s with
  | nil => rfl
  | cons t front ih =>
      rw [List.cons_append, readings, readings, ih, after_cons]
      split <;> rfl

/-- One turn keeps the list of files, or adds the file that was read. -/
theorem sources_take (t : Turn) (s : ImportFiles) :
    (t.take s).sources =
      match t.question, t.reading s with
      | .text, .ok (path, _) =>
          if s.sources.any (fun q => q.components == path.components) then s.sources
          else s.sources ++ [path]
      | _, _ => s.sources := by
  obtain ⟨hsources, -⟩ := lookup_snd t.request.importer.resolve s t.path
  unfold Turn.take
  cases t.question with
  | isFile => exact hsources
  | text =>
      simp only [read_eq_reading]
      cases t.reading s with
      | error e => exact hsources
      | ok loaded =>
          simp only [addSource, hsources]
          split
          · exact hsources
          · rfl

/-- One turn keeps a failure, or is the first to fail. -/
theorem failure_take (t : Turn) (s : ImportFiles) :
    (t.take s).failure =
      match t.question, t.reading s with
      | .text, .error e => some (s.failure.getD e)
      | _, _ => s.failure := by
  obtain ⟨-, hfailure⟩ := lookup_snd t.request.importer.resolve s t.path
  unfold Turn.take
  cases t.question with
  | isFile => exact hfailure
  | text =>
      simp only [read_eq_reading]
      cases t.reading s with
      | error e => simp only [keepFailure, hfailure]
      | ok loaded => rw [addSource_failure, hfailure]

/-- The files are listed in the order of their first reading. -/
theorem sources_after (turns : List Turn) :
    (empty.after turns).sources = firsts (loads (readings empty turns)) := by
  induction turns using List.reverseRecOn with
  | nil => rfl
  | append_singleton turns t ih =>
      rw [after_concat, sources_take, readings_append, readings, loads, List.filterMap_append,
        ← loads]
      cases hquestion : t.question with
      | isFile => simpa [readings] using ih
      | text =>
          cases hreading : t.reading (empty.after turns) with
          | error e => simpa [readings] using ih
          | ok loaded =>
              simp only [readings, List.filterMap_cons, List.filterMap_nil, firsts_concat, ih,
                any_firsts]

/-- The failure that is kept is the first one. -/
theorem failure_after (s : ImportFiles) (turns : List Turn) :
    (s.after turns).failure = s.failure.or (firstFailure? (readings s turns)) := by
  induction turns generalizing s with
  | nil => exact (Option.or_none).symm
  | cons t turns ih =>
      rw [after_cons, ih, failure_take, readings]
      cases hquestion : t.question with
      | isFile => rfl
      | text =>
          cases hreading : t.reading s with
          | error e => cases hfailure : s.failure <;> simp [firstFailure?]
          | ok loaded => rfl

end ImportFiles

namespace Dialogue

open ImportFiles

variable {α : Type}

/-- The turns that a dialogue takes. -/
def turns (request : CompileRequest) : Dialogue α → ImportFiles → List Turn
  | done _, _ => []
  | isFile p next, s =>
    let (hit, t) := s.lookup request.importer.resolve p
    ⟨request, .isFile, p⟩ :: (next hit.isSome).turns request t
  | read p next, s =>
    let (text, t) := s.read request p
    ⟨request, .text, p⟩ :: (next text).turns request t

theorem run_snd (request : CompileRequest) (d : Dialogue α) (s : ImportFiles) :
    (d.run request s).2 = s.after (d.turns request s) := by
  induction d generalizing s with
  | done a => rfl
  | isFile p next ih => exact ih _ _
  | read p next ih => exact ih _ _

end Dialogue

open ImportFiles

/-- A failure wins over the outcome of the dialogue, which comes with the files that were read. -/
theorem compile_ofDialogue (name : String)
    (talk : OutputFormat → String → Dialogue (Except String String)) {request : CompileRequest}
    {program : Substitution.Expansion}
    (hprogram : request.functions.expand request.source = .ok program) :
    (Engine.ofDialogue name talk).compile request =
      let d := talk request.formatter.format program.text
      let results := readings .empty (d.turns request .empty)
      match firstFailure? results, (d.run request .empty).1 with
      | some e, _ => .error e
      | none, .error message => .error (.rejected (.complaint message))
      | none, .ok css => .ok ⟨css, firsts (loads results)⟩ := by
  simp only [Engine.ofDialogue, hprogram, bind, Except.bind]
  have hstate := (talk request.formatter.format program.text).run_snd request .empty
  have hfailure := congrArg ImportFiles.failure hstate
  have hsources := congrArg ImportFiles.sources hstate
  rw [failure_after] at hfailure
  rw [sources_after] at hsources
  rw [hfailure, hsources]
  simp only [ImportFiles.empty, Option.none_or]
  cases firstFailure? _ with
  | some failure => rfl
  | none =>
      cases ((talk request.formatter.format program.text).run request _).1 <;> rfl

/-- After any turns the files that were read are listed without a repetition in the order of their
first reading, and the failure is the first one, which stays. Every question for a text is answered
with a text. A compilation whose program is expanded ends with the first failure, whatever the
dialogue made of the answers, and otherwise with its outcome and the files that were read. -/
theorem sources_and_first_failure :
    (∀ turns, (empty.after turns).sources = firsts (loads (readings empty turns)) ∧
      (empty.after turns).sources.Pairwise (fun p q => p.components ≠ q.components) ∧
      (∀ p, p ∈ (empty.after turns).sources ↔ ∃ front back,
        loads (readings empty turns) = front ++ p :: back ∧
          ∀ q ∈ front, q.components ≠ p.components) ∧
      (empty.after turns).failure = firstFailure? (readings empty turns) ∧
      ∀ e, (empty.after turns).failure = some e →
        ∀ later, (empty.after (turns ++ later)).failure = some e) ∧
    (∀ t s, (∀ result, Turn.Reads t s result ↔ t.reading s = result) ∧
      (s.read t.request t.path).1 = textGiven (t.reading s)) ∧
    ∀ name talk request program, request.functions.expand request.source = .ok program →
      (Engine.ofDialogue name talk).compile request =
        let d := talk request.formatter.format program.text
        let results := readings .empty (d.turns request .empty)
        match firstFailure? results, (d.run request .empty).1 with
        | some e, _ => .error e
        | none, .error message => .error (.rejected (.complaint message))
        | none, .ok css => .ok ⟨css, firsts (loads results)⟩ := by
  refine ⟨fun turns => ?_, fun t s => ⟨fun result => reads_iff, by rw [read_eq_reading]⟩,
    fun name talk request program => compile_ofDialogue name talk⟩
  have hsources := sources_after turns
  have hfailure : (empty.after turns).failure = firstFailure? (readings empty turns) := by
    rw [failure_after]
    rfl
  refine ⟨hsources, ?_, fun p => ?_, hfailure, fun e he later => ?_⟩
  · rw [hsources]
    exact pairwise_firsts _
  · rw [hsources]
    exact mem_firsts_iff
  · rw [after_append, failure_after, he]
    rfl

/-- Reads some sources in order and gives the last text. -/
def Dialogue.readEach : List Path → String → Dialogue (Except String String)
  | [], last => .done (.ok last)
  | p :: rest, _ => .read p fun text => readEach rest text

/-- Of the sources `b.scss`, `a.scss` and `b.scss` again two are listed. A source that is missing
fails the compilation, and the one that is missing after it is not reported. -/
theorem sources_and_first_failure_shelf :
    (Engine.ofDialogue "each" fun _ _ =>
        .readEach [⟨"b.scss"⟩, ⟨"a.scss"⟩, ⟨"./b.scss"⟩] "").compile (shelf ["a.scss", "b.scss"]) =
      .ok ⟨"src/b.scss", [⟨"src/b.scss"⟩, ⟨"src/a.scss"⟩]⟩ ∧
    (Engine.ofDialogue "each" fun _ _ =>
        .readEach [⟨"a.scss"⟩, ⟨"x.scss"⟩, ⟨"y.scss"⟩] "").compile (shelf ["a.scss", "b.scss"]) =
      .error (.rejected (.missingImport ⟨"x.scss"⟩)) := by
  obtain ⟨-, -, hcompile⟩ := sources_and_first_failure
  have hprogram : (shelf ["a.scss", "b.scss"]).functions.expand
      (shelf ["a.scss", "b.scss"]).source = .ok ⟨"", false⟩ := rfl
  constructor
  · rw [hcompile _ _ _ _ hprogram]
    rfl
  · have hfailure : firstFailure? (readings .empty ((Dialogue.readEach
        [⟨"a.scss"⟩, ⟨"x.scss"⟩, ⟨"y.scss"⟩] "").turns (shelf ["a.scss", "b.scss"]) .empty)) =
          some (.rejected (.missingImport ⟨"x.scss"⟩)) := by
      decide +kernel
    rw [hcompile _ _ _ _ hprogram]
    simp only [hfailure]

end StyleBuild
