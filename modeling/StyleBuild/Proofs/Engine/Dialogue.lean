import StyleBuild.Engine.Dialogue
import StyleBuild.Proofs.Engine.Inquiry

/-!
# Engines that hold a dialogue inquire

The files of a compilation turn every question of a dialogue into questions to
the importer: the tokens of a path up to the first one that is found, and the
content of the file behind it. So an engine that holds a dialogue, whatever it
talks about, is an engine that inquires (`inquires_ofDialogue`).
-/

namespace StyleBuild

open Text

variable {α : Type}

namespace ImportFiles

/-- The tokens that a path may stand for, in order. -/
def tokensFor (s : ImportFiles) (p : Path) : List String :=
  match token? p with
  | none => []
  | some token =>
      token :: s.directories.filterMap fun dir =>
        (afterStart? (dir ++ ['/']) token.toList).map String.ofList

/-- A path was found. -/
def found (s : ImportFiles) (p : Path) (hit : ResolvedImport) : ImportFiles :=
  { s with resolved := s.resolved ++ [(p, hit)] }

/-- What is made of the content of an import. -/
def textOf (formatter : Formatter) (functions : Substitution.Registry) (hit : ResolvedImport)
    (content : Except Files.Fault ByteArray) : Except Error String := do
  let content ← content.mapError .files
  let source ← match String.fromUTF8? content with
    | some source => pure source
    | none => throw (.rejected (.notText hit.logical))
  let expansion ← functions.expand source
  return if formatter.lineComments then LineComment.annotate expansion.text hit.logical
    else expansion.text

/-- The text of an import that was read, which is then listed, or its failure. -/
def taken (s : ImportFiles) (hit : ResolvedImport) : Except Error String → String × ImportFiles
  | .ok text => (text, s.addSource hit.path)
  | .error e => ("", s.keepFailure e)

theorem find_eq (resolve : String → Option ResolvedImport) (s : ImportFiles) (p : Path) :
    s.find resolve p = (s.tokensFor p).findSome? resolve := by
  unfold find tokensFor
  cases token? p with
  | none => rfl
  | some token =>
      simp only [List.findSome?_cons, resolveFromRoot]
      cases resolve token with
      | some hit => rfl
      | none =>
          simp only
          rw [← List.head?_filterMap (l := List.filterMap _ _), List.filterMap_filterMap,
            List.head?_filterMap]
          congr 1
          funext dir
          cases afterStart? (dir ++ ['/']) token.toList <;> rfl

/-- Every hit that was kept has one of these files. -/
def KeptIn (s : ImportFiles) (named : List Path) : Prop := ∀ e ∈ s.resolved, e.2.path ∈ named

theorem KeptIn.of_known? {s : ImportFiles} {named : List Path} (h : s.KeptIn named) {p : Path}
    {hit : ResolvedImport} (hknown : s.known? p = some hit) : hit.path ∈ named := by
  obtain ⟨e, he, rfl⟩ := Option.map_eq_some_iff.1 hknown
  exact h e (List.mem_of_find?_eq_some he)

theorem KeptIn.found {s : ImportFiles} {named : List Path} (h : s.KeptIn named) (p : Path)
    (hit : ResolvedImport) : (s.found p hit).KeptIn (hit.path :: named) := by
  intro e he
  rcases List.mem_append.1 he with he | he
  · exact List.mem_cons_of_mem _ (h e he)
  · rw [List.mem_singleton.1 he]
    exact List.mem_cons_self

theorem KeptIn.taken {s : ImportFiles} {named : List Path} (h : s.KeptIn named)
    (hit : ResolvedImport) (loaded : Except Error String) :
    (s.taken hit loaded).2.KeptIn named := by
  cases loaded with
  | ok text =>
      rw [ImportFiles.taken, addSource]
      split <;> exact h
  | error e => exact h

/-- Files are only ever listed, and a failure stays. -/
structure Extends (s t : ImportFiles) : Prop where
  sources : s.sources ⊆ t.sources
  failure : t.failure = none → s.failure = none

theorem Extends.refl (s : ImportFiles) : Extends s s := ⟨fun _ h => h, fun h => h⟩

theorem Extends.trans {s t u : ImportFiles} (hst : Extends s t) (htu : Extends t u) :
    Extends s u :=
  ⟨fun _ h => htu.sources (hst.sources h), fun h => hst.failure (htu.failure h)⟩

theorem extends_addSource (s : ImportFiles) (p : Path) : Extends s (s.addSource p) := by
  unfold addSource
  split
  · exact Extends.refl s
  · exact ⟨fun _ h => List.mem_append_left _ h, fun h => h⟩

theorem extends_keepFailure (s : ImportFiles) (e : Error) : Extends s (s.keepFailure e) :=
  ⟨fun _ h => h, fun h => nomatch h⟩

theorem extends_taken (s : ImportFiles) (hit : ResolvedImport) (loaded : Except Error String) :
    Extends s (s.taken hit loaded).2 := by
  cases loaded with
  | ok text => exact extends_addSource s hit.path
  | error e => exact extends_keepFailure s e

theorem extends_lookup (resolve : String → Option ResolvedImport) (s : ImportFiles) (p : Path) :
    Extends s (s.lookup resolve p).2 := by
  unfold lookup
  split
  · exact Extends.refl s
  · split
    · exact ⟨fun _ h => h, fun h => h⟩
    · exact Extends.refl s

/-- A file that was added is listed under a path with the same steps. -/
theorem listed_addSource (s : ImportFiles) (p : Path) :
    ∃ listed ∈ (s.addSource p).sources, listed.components = p.components := by
  unfold addSource
  split
  · next h =>
    obtain ⟨q, hq, heq⟩ := List.any_eq_true.1 h
    exact ⟨q, hq, by simpa using heq⟩
  · exact ⟨p, List.mem_append_right _ (List.mem_singleton_self p), rfl⟩

/-- A file that was read is listed, unless that failed. -/
theorem listed_taken {s : ImportFiles} {hit : ResolvedImport} {loaded : Except Error String}
    (h : (s.taken hit loaded).2.failure = none) :
    ∃ listed ∈ (s.taken hit loaded).2.sources, listed.components = hit.path.components := by
  cases loaded with
  | ok text => exact listed_addSource s hit.path
  | error e => cases h

/-- Asks for tokens up to the first one that is found. -/
def askFirst (next : Option ResolvedImport → Inquiry α) : List String → Inquiry α
  | [] => next none
  | token :: rest => .resolve token fun
    | some hit => next (some hit)
    | none => askFirst next rest

def askLookup (s : ImportFiles) (p : Path)
    (next : Option ResolvedImport → ImportFiles → Inquiry α) : Inquiry α :=
  match s.known? p with
  | some hit => next (some hit) s
  | none => askFirst (fun
      | some hit => next (some hit) (s.found p hit)
      | none => next none s) (s.tokensFor p)

/-- Reads the file of a path that was looked up. -/
def askContent (formatter : Formatter) (functions : Substitution.Registry) (p : Path)
    (next : String → ImportFiles → Inquiry α) : Option ResolvedImport → ImportFiles → Inquiry α
  | none, s => next "" (s.keepFailure (.rejected (.missingImport p)))
  | some hit, s => .read hit.path fun content =>
      next (s.taken hit (textOf formatter functions hit content)).1
        (s.taken hit (textOf formatter functions hit content)).2

section Ask

variable (importer : Importer)

theorem run_askFirst (next : Option ResolvedImport → Inquiry α) (tokens : List String) :
    (askFirst next tokens).run importer =
      (next (tokens.findSome? importer.resolve)).run importer := by
  induction tokens with
  | nil => rfl
  | cons token rest ih =>
      rw [askFirst, Inquiry.run, List.findSome?_cons]
      cases importer.resolve token with
      | some hit => rfl
      | none => exact ih

theorem paths_askFirst (next : Option ResolvedImport → Inquiry α) (tokens : List String) :
    (askFirst next tokens).paths importer =
      (next (tokens.findSome? importer.resolve)).paths importer := by
  induction tokens with
  | nil => rfl
  | cons token rest ih =>
      rw [askFirst, Inquiry.paths, List.findSome?_cons]
      cases importer.resolve token with
      | some hit => rfl
      | none => exact ih

theorem run_askLookup (s : ImportFiles) (p : Path)
    (next : Option ResolvedImport → ImportFiles → Inquiry α) :
    (s.askLookup p next).run importer =
      (next (s.lookup importer.resolve p).1 (s.lookup importer.resolve p).2).run importer := by
  unfold askLookup lookup
  rw [find_eq]
  cases s.known? p with
  | some hit => rfl
  | none =>
      simp only
      rw [run_askFirst]
      cases (s.tokensFor p).findSome? importer.resolve <;> rfl

theorem paths_askLookup (s : ImportFiles) (p : Path)
    (next : Option ResolvedImport → ImportFiles → Inquiry α) :
    (s.askLookup p next).paths importer =
      (next (s.lookup importer.resolve p).1 (s.lookup importer.resolve p).2).paths importer := by
  unfold askLookup lookup
  rw [find_eq]
  cases s.known? p with
  | some hit => rfl
  | none =>
      simp only
      rw [paths_askFirst]
      cases (s.tokensFor p).findSome? importer.resolve <;> rfl

end Ask

theorem load_eq (request : CompileRequest) (hit : ResolvedImport) :
    load request hit =
      textOf request.formatter request.functions hit (request.importer.read hit.path) := rfl

/-- Reading is looking up and taking what was loaded. -/
theorem read_eq (request : CompileRequest) (s : ImportFiles) (p : Path) :
    s.read request p =
      match s.lookup request.importer.resolve p with
      | (none, s) => ("", s.keepFailure (.rejected (.missingImport p)))
      | (some hit, s) => s.taken hit (textOf request.formatter request.functions hit
          (request.importer.read hit.path)) := by
  unfold read
  cases s.lookup request.importer.resolve p with
  | mk hit? t =>
      cases hit? with
      | none => rfl
      | some hit =>
          simp only [load_eq]
          cases textOf request.formatter request.functions hit (request.importer.read hit.path) <;>
            rfl

/-- A look-up reads nothing; what goes on may read the file of the hit. -/
theorem readsHits_askFirst {next : Option ResolvedImport → Inquiry α} {named : List Path}
    (hnone : (next none).ReadsHits named)
    (hsome : ∀ hit, (next (some hit)).ReadsHits (hit.path :: named)) (tokens : List String) :
    (askFirst next tokens).ReadsHits named := by
  induction tokens with
  | nil => exact hnone
  | cons token rest ih => exact ⟨ih, hsome⟩

theorem readsHits_askLookup {s : ImportFiles} {p : Path}
    {next : Option ResolvedImport → ImportFiles → Inquiry α} {named : List Path}
    (h : s.KeptIn named)
    (hnext : ∀ hit? t named', t.KeptIn named' → (∀ hit ∈ hit?, hit.path ∈ named') →
      (next hit? t).ReadsHits named') : (s.askLookup p next).ReadsHits named := by
  unfold askLookup
  cases hknown : s.known? p with
  | some hit =>
      apply hnext (some hit) s named h
      intro hit' hhit
      cases hhit
      exact h.of_known? hknown
  | none =>
      refine readsHits_askFirst (hnext none s named h fun hit hhit => nomatch hhit) ?_ _
      intro hit
      apply hnext (some hit) _ _ (h.found p hit)
      intro hit' hhit
      cases hhit
      exact List.mem_cons_self

end ImportFiles

namespace Dialogue

open ImportFiles

/-- The questions of a dialogue, as questions to the importer. -/
def ask (formatter : Formatter) (functions : Substitution.Registry) :
    Dialogue α → ImportFiles → Inquiry (α × ImportFiles)
  | done a, s => .done (a, s)
  | isFile p next, s => s.askLookup p fun hit? s => (next hit?.isSome).ask formatter functions s
  | read p next, s => s.askLookup p (askContent formatter functions p fun text s =>
      (next text).ask formatter functions s)

variable (request : CompileRequest)

theorem run_ask (d : Dialogue α) (s : ImportFiles) :
    (d.ask request.formatter request.functions s).run request.importer = d.run request s := by
  induction d generalizing s with
  | done a => rfl
  | isFile p next ih =>
      rw [ask, run_askLookup, ih]
      rfl
  | read p next ih =>
      rw [ask, run_askLookup, run, read_eq]
      cases s.lookup request.importer.resolve p with
      | mk hit? t =>
          cases hit? with
          | none => exact ih _ _
          | some hit => exact ih _ _

theorem extends_run (d : Dialogue α) (s : ImportFiles) : Extends s (d.run request s).2 := by
  induction d generalizing s with
  | done a => exact Extends.refl s
  | isFile p next ih => exact (extends_lookup _ s p).trans (ih _ _)
  | read p next ih =>
      rw [run, read_eq]
      have hlookup := extends_lookup request.importer.resolve s p
      cases hfound : s.lookup request.importer.resolve p with
      | mk hit? t =>
          rw [hfound] at hlookup
          cases hit? with
          | none => exact (hlookup.trans (extends_keepFailure t _)).trans (ih _ _)
          | some hit => exact (hlookup.trans (extends_taken t hit _)).trans (ih _ _)

/-- Only files of hits are read, kept ones or new ones. -/
theorem readsHits_ask (formatter : Formatter) (functions : Substitution.Registry)
    (d : Dialogue α) {s : ImportFiles} {named : List Path} (h : s.KeptIn named) :
    (d.ask formatter functions s).ReadsHits named := by
  induction d generalizing s named with
  | done a => trivial
  | isFile p next ih =>
      rw [ask]
      exact readsHits_askLookup h fun hit? t named' ht _ => ih _ ht
  | read p next ih =>
      rw [ask]
      refine readsHits_askLookup h fun hit? t named' ht hhit => ?_
      cases hit? with
      | none => exact ih _ ht
      | some hit => exact ⟨hhit hit rfl, fun content => ih _ (ht.taken hit _)⟩

/-- Every file that is read is listed in the end, unless there was a failure. -/
theorem listed_paths (d : Dialogue α) (s : ImportFiles) (h : (d.run request s).2.failure = none) :
    ∀ path ∈ (d.ask request.formatter request.functions s).paths request.importer,
      ∃ listed ∈ (d.run request s).2.sources, listed.components = path.components := by
  induction d generalizing s with
  | done a =>
      intro path hpath
      cases hpath
  | isFile p next ih =>
      intro path hpath
      rw [ask, paths_askLookup] at hpath
      exact ih _ _ h path hpath
  | read p next ih =>
      intro path hpath
      rw [ask, paths_askLookup] at hpath
      rw [run, read_eq] at h ⊢
      cases hlookup : s.lookup request.importer.resolve p with
      | mk hit? t =>
          rw [hlookup] at hpath h
          cases hit? with
          | none => exact ih _ _ h path hpath
          | some found =>
              rcases List.mem_cons.1 hpath with rfl | hpath
              · have hrest := extends_run request (next (t.taken found (textOf request.formatter
                  request.functions found (request.importer.read found.path))).1)
                  (t.taken found (textOf request.formatter request.functions found
                    (request.importer.read found.path))).2
                obtain ⟨listed, hlisted, hsame⟩ := listed_taken (hrest.failure h)
                exact ⟨listed, hrest.sources hlisted, hsame⟩
              · exact ih _ _ h path hpath

end Dialogue

/-- What is made of a dialogue that is over. -/
def EngineOutput.ofDialogue (result : Except String String × ImportFiles) :
    Except Error EngineOutput :=
  match result.2.failure, result.1 with
  | some failure, _ => .error failure
  | none, .error message => .error (.rejected (.complaint message))
  | none, .ok css => .ok ⟨css, result.2.sources⟩

theorem EngineOutput.ofDialogue_eq_ok {result : Except String String × ImportFiles}
    {output : EngineOutput} (h : EngineOutput.ofDialogue result = .ok output) :
    result.2.failure = none ∧ output.sources = result.2.sources := by
  unfold EngineOutput.ofDialogue at h
  split at h
  · cases h
  · cases h
  · next hnone _ =>
    cases h
    exact ⟨hnone, rfl⟩

/-- The questions of an engine that holds a dialogue. -/
def Asking.ofDialogue (talk : OutputFormat → String → Dialogue (Except String String)) : Asking :=
  fun source formatter functions =>
    match functions.expand source with
    | .error e => .done (.error e)
    | .ok program =>
        ((talk formatter.format program.text).ask formatter functions .empty).map
          EngineOutput.ofDialogue

theorem inquires_ofDialogue (name : String)
    (talk : OutputFormat → String → Dialogue (Except String String)) :
    (Engine.ofDialogue name talk).Inquires (.ofDialogue talk) := by
  refine ⟨fun request => ?_, fun source formatter functions => ?_,
    fun source formatter functions importer output hrun path hpath => ?_⟩
  · unfold Engine.ofDialogue Asking.ofDialogue
    cases hexpand : request.functions.expand request.source with
    | error e => simp [hexpand, bind, Except.bind, Inquiry.run]
    | ok program =>
        simp only [hexpand, bind, Except.bind]
        rw [Inquiry.run_map, Dialogue.run_ask]
        unfold EngineOutput.ofDialogue
        cases (talk request.formatter.format program.text).run request ImportFiles.empty with
        | mk outcome files =>
            simp only
            cases files.failure <;> cases outcome <;> rfl
  · unfold Asking.ofDialogue
    cases functions.expand source with
    | error e => trivial
    | ok program =>
        exact Inquiry.readsHits_map _
          (Dialogue.readsHits_ask formatter functions _ fun e he => (List.not_mem_nil he).elim)
  · unfold Asking.ofDialogue at hpath hrun
    cases hexpand : functions.expand source with
    | error e =>
        rw [hexpand] at hpath
        cases hpath
    | ok program =>
        rw [hexpand] at hpath hrun
        simp only at hpath hrun
        rw [Inquiry.paths_map] at hpath
        have hask := Dialogue.run_ask ⟨source, formatter, importer, functions⟩
          (talk formatter.format program.text) .empty
        rw [Inquiry.run_map, hask] at hrun
        obtain ⟨hnone, hsources⟩ := EngineOutput.ofDialogue_eq_ok hrun
        rw [hsources]
        exact Dialogue.listed_paths ⟨source, formatter, importer, functions⟩ _ _ hnone path hpath

/-- Gives the text of one source as it is, whatever the program. -/
def Dialogue.copyMain (_ : OutputFormat) (_ : String) : Dialogue (Except String String) :=
  .read ⟨"main.scss"⟩ fun text => .done (.ok text)

end StyleBuild
