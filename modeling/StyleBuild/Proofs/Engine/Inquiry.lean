import StyleBuild.Engine.Basic

/-!
# Inquiries

An inquiry is what a compilation does between two answers of an importer: it
asks what a token stands for, or for the content of a file, and goes on with the
answer. Its outcome depends on the answers it got and on nothing else
(`run_congr`).

An engine inquires when it is an inquiry about a program, reads only files that
an answer named, and lists every file that it read. Such an engine sees files
only through its importer (`Inquires.seesImports`).
-/

namespace StyleBuild

inductive Inquiry (α : Type) where
  | done (a : α)
  | resolve (token : String) (next : Option ResolvedImport → Inquiry α)
  | read (path : Path) (next : Except Files.Fault ByteArray → Inquiry α)

namespace Inquiry

variable {α β : Type}

def map (f : α → β) : Inquiry α → Inquiry β
  | done a => done (f a)
  | resolve token next => resolve token fun hit => (next hit).map f
  | read path next => read path fun content => (next content).map f

/-- The outcome with the answers of an importer. -/
def run (importer : Importer) : Inquiry α → α
  | done a => a
  | resolve token next => (next (importer.resolve token)).run importer
  | read path next => (next (importer.read path)).run importer

/-- The tokens that are asked for. -/
def tokens (importer : Importer) : Inquiry α → List String
  | done _ => []
  | resolve token next => token :: (next (importer.resolve token)).tokens importer
  | read path next => (next (importer.read path)).tokens importer

/-- The files that are read. -/
def paths (importer : Importer) : Inquiry α → List Path
  | done _ => []
  | resolve token next => (next (importer.resolve token)).paths importer
  | read path next => path :: (next (importer.read path)).paths importer

theorem run_map (importer : Importer) (f : α → β) (q : Inquiry α) :
    (q.map f).run importer = f (q.run importer) := by
  induction q with
  | done a => rfl
  | resolve token next ih => exact ih _
  | read path next ih => exact ih _

theorem paths_map (importer : Importer) (f : α → β) (q : Inquiry α) :
    (q.map f).paths importer = q.paths importer := by
  induction q with
  | done a => rfl
  | resolve token next ih => exact ih _
  | read path next ih => exact congrArg _ (ih _)

/-- The same answers to the same questions give the same outcome. -/
theorem run_congr {i j : Importer} (q : Inquiry α)
    (htokens : ∀ token ∈ q.tokens i, j.resolve token = i.resolve token)
    (hpaths : ∀ path ∈ q.paths i, j.read path = i.read path) : q.run j = q.run i := by
  induction q with
  | done a => rfl
  | resolve token next ih =>
      have htoken := htokens token List.mem_cons_self
      rw [run, run, htoken]
      exact ih _ (fun t ht => htokens t (List.mem_cons_of_mem _ ht)) hpaths
  | read path next ih =>
      have hpath := hpaths path List.mem_cons_self
      rw [run, run, hpath]
      exact ih _ htokens fun p hp => hpaths p (List.mem_cons_of_mem _ hp)

/-- Only files are read that an answer named, whatever the answers are; `named` are the files of
earlier answers. -/
def ReadsHits : List Path → Inquiry α → Prop
  | _, done _ => True
  | named, resolve _ next =>
      (next none).ReadsHits named ∧ ∀ hit, (next (some hit)).ReadsHits (hit.path :: named)
  | named, read path next => path ∈ named ∧ ∀ content, (next content).ReadsHits named

theorem ReadsHits.mono {named named' : List Path} (hsub : named ⊆ named') {q : Inquiry α}
    (h : q.ReadsHits named) : q.ReadsHits named' := by
  induction q generalizing named named' with
  | done a => trivial
  | resolve token next ih =>
      refine ⟨ih none hsub h.1, fun hit => ih (some hit) ?_ (h.2 hit)⟩
      exact List.cons_subset_cons hit.path hsub
  | read path next ih => exact ⟨hsub h.1, fun content => ih content hsub (h.2 content)⟩

theorem readsHits_map (f : α → β) {named : List Path} {q : Inquiry α} (h : q.ReadsHits named) :
    (q.map f).ReadsHits named := by
  induction q generalizing named with
  | done a => trivial
  | resolve token next ih => exact ⟨ih none h.1, fun hit => ih (some hit) (h.2 hit)⟩
  | read path next ih => exact ⟨h.1, fun content => ih content (h.2 content)⟩

/-- With one importer: every file that is read is behind a token that is asked for. -/
theorem ReadsHits.exists_token {named : List Path} {q : Inquiry α} (h : q.ReadsHits named)
    (importer : Importer) : ∀ path ∈ q.paths importer, path ∈ named ∨
      ∃ token ∈ q.tokens importer, ∃ hit, importer.resolve token = some hit ∧ hit.path = path := by
  induction q generalizing named with
  | done a =>
      intro path hpath
      cases hpath
  | resolve token next ih =>
      intro path hpath
      rw [tokens]
      rw [paths] at hpath
      cases hanswer : importer.resolve token with
      | none =>
          rw [hanswer] at hpath
          rcases ih none h.1 path hpath with hnamed | ⟨t, ht, hhit⟩
          · exact Or.inl hnamed
          · exact Or.inr ⟨t, List.mem_cons_of_mem _ ht, hhit⟩
      | some hit =>
          rw [hanswer] at hpath
          rcases ih (some hit) (h.2 hit) path hpath with hnamed | ⟨t, ht, hhit⟩
          · rcases List.mem_cons.1 hnamed with rfl | hnamed
            · exact Or.inr ⟨token, List.mem_cons_self, hit, hanswer, rfl⟩
            · exact Or.inl hnamed
          · exact Or.inr ⟨t, List.mem_cons_of_mem _ ht, hhit⟩
  | read p next ih =>
      intro path hpath
      rcases List.mem_cons.1 hpath with rfl | hpath
      · exact Or.inl h.1
      · exact ih _ (h.2 _) path hpath

end Inquiry

/-- How an engine asks about a program: with a formatter and registered functions. -/
abbrev Asking := String → Formatter → Substitution.Registry → Inquiry (Except Error EngineOutput)

/-- The engine sees files only through the questions it asks. -/
structure Engine.Inquires (e : Engine) (ask : Asking) : Prop where
  compile : ∀ request, e.compile request =
    (ask request.source request.formatter request.functions).run request.importer
  /-- It reads only files that an answer named. -/
  hits : ∀ source formatter functions, (ask source formatter functions).ReadsHits []
  /-- It lists every file that it read. -/
  sources : ∀ source formatter functions importer output,
    (ask source formatter functions).run importer = .ok output →
      ∀ path ∈ (ask source formatter functions).paths importer,
        ∃ listed ∈ output.sources, listed.components = path.components

/-- The answers of two importers are the same: what tokens stand for, and the content of the files
that they stand for. -/
structure Importer.Agrees (i j : Importer) : Prop where
  resolve : ∀ token, j.resolve token = i.resolve token
  read : ∀ token hit, i.resolve token = some hit → j.read hit.path = i.read hit.path

/-- The engine sees files only through its importer: with the same answers it does the same. -/
def Engine.SeesImports (e : Engine) : Prop :=
  ∀ source formatter functions i j, Importer.Agrees i j →
    e.compile ⟨source, formatter, j, functions⟩ = e.compile ⟨source, formatter, i, functions⟩

theorem Engine.Inquires.seesImports {e : Engine} {ask : Asking} (h : e.Inquires ask) :
    e.SeesImports := by
  intro source formatter functions i j hagrees
  rw [h.compile, h.compile]
  apply Inquiry.run_congr
  · exact fun token _ => hagrees.resolve token
  · intro path hpath
    rcases (h.hits source formatter functions).exists_token i path hpath with hnamed | hread
    · cases hnamed
    · obtain ⟨token, -, hit, hhit, rfl⟩ := hread
      exact hagrees.read token hit hhit

end StyleBuild
