import Mathlib.Data.List.Find
import StyleBuild.Proofs.Engine.Inquiry
import StyleBuild.Proofs.Files.Tree
import StyleBuild.Proofs.Publisher.Names

/-!
# A build is an inquiry

With an engine that inquires, a build asks whether its entry is there and then
what the engine asks (`build_eq_run`). It reads only sources that its look-ups
named, each a file whose path ends in `.scss`, and its sources list them all,
unless it took the engine's text for an echo of the entry's import.

With an engine that sees files only through its importer, what an entry is
compiled to stays when no source changes (`compile_eq_of_sameOutside`).
-/

namespace StyleBuild

open Text

variable {ask : Asking}

/-- What an engine's output is taken for. -/
def CompiledCss.ofOutput (statement : String) :
    Except Error EngineOutput → Except Error CompiledCss
  | .error e => .error e
  | .ok output =>
      if startsWith statement.toList output.css.toList then .ok (.unresolved statement)
      else .ok ⟨output.css, output.sources, true⟩

namespace Compiler

/-- The questions of a compilation. -/
def inquiry (c : Compiler) (ask : Asking) (entry : String) : Inquiry (Except Error CompiledCss) :=
  if entry.toList.contains '"' || entry.toList.contains '\\' then
    .done (.error (.invalidResourcePath entry))
  else
    .resolve (entry ++ sourceExtension) fun
      | none => .done (.ok (.unresolved (entryStatement entry)))
      | some _ =>
          (ask (c.program (entryStatement entry)) c.format.formatter c.functions).map
            (CompiledCss.ofOutput (entryStatement entry))

theorem compile_eq_run {c : Compiler} (h : c.engine.Inquires ask) (importer : Importer)
    (entry : String) : c.compile importer entry = (c.inquiry ask entry).run importer := by
  unfold compile inquiry
  split
  · rfl
  · rw [Inquiry.run]
    cases importer.resolve (entry ++ sourceExtension) with
    | none => rfl
    | some hit =>
        simp only [h.compile]
        rw [Inquiry.run_map]
        unfold CompiledCss.ofOutput
        cases (ask (c.program (entryStatement entry)) c.format.formatter c.functions).run importer
          <;> rfl

/-- The engine gave the import of the entry back, although the entry is there. -/
def Echoes (c : Compiler) (importer : Importer) (entry : String) : Prop :=
  importer.resolve (entry ++ sourceExtension) ≠ none ∧
    ∃ compiled, c.compile importer entry = .ok compiled ∧ compiled.entryFound = false

/-- A compilation reads only files that an answer named. -/
theorem readsHits_inquiry {c : Compiler} (h : c.engine.Inquires ask) (entry : String) :
    (c.inquiry ask entry).ReadsHits [] := by
  unfold inquiry
  split
  · trivial
  · refine ⟨trivial, fun hit => Inquiry.readsHits_map _ ?_⟩
    exact (h.hits _ _ _).mono (List.nil_subset _)

/-- A compilation lists the files that it read, unless its text is an echo. -/
theorem listed {c : Compiler} (h : c.engine.Inquires ask) {importer : Importer} {entry : String}
    {compiled : CompiledCss} (hcompile : c.compile importer entry = .ok compiled)
    (hecho : ¬ c.Echoes importer entry) :
    ∀ path ∈ (c.inquiry ask entry).paths importer,
      ∃ source ∈ compiled.sources, source.components = path.components := by
  intro path hpath
  have hrun := hcompile
  rw [compile_eq_run h] at hrun
  unfold inquiry at hpath hrun
  split at hpath
  · cases hpath
  · next hplain =>
    rw [if_neg hplain, Inquiry.run] at hrun
    rw [Inquiry.paths] at hpath
    cases hentry : importer.resolve (entry ++ sourceExtension) with
    | none =>
        rw [hentry] at hpath
        cases hpath
    | some hit =>
        rw [hentry] at hpath hrun
        simp only [Inquiry.paths_map, Inquiry.run_map] at hpath hrun
        unfold CompiledCss.ofOutput at hrun
        split at hrun
        · cases hrun
        · next output houtput =>
          split at hrun
          · cases hrun
            refine absurd ⟨?_, _, hcompile, rfl⟩ hecho
            rw [hentry]
            exact Option.some_ne_none hit
          · cases hrun
            exact h.sources _ _ _ importer output houtput path hpath

end Compiler

namespace Publisher

/-- The text that is published, and the files it was made from. -/
def published (p : Publisher) : Except Error CompiledCss → Except Error (String × List Path)
  | .error e => .error e
  | .ok compiled =>
      .ok (if p.production then compiled.css else withBanner compiled.css, compiled.sources)

/-- The questions of a build. -/
def inquiry (p : Publisher) (ask : Asking) (entry : String) :
    Inquiry (Except Error (String × List Path)) :=
  (p.compiler.inquiry ask entry).map p.published

variable {p : Publisher} {files : Files} {entry : String}

theorem build_eq_run (h : p.compiler.engine.Inquires ask) (files : Files) (entry : String) :
    p.build files entry = (p.inquiry ask entry).run (p.importer files) := by
  rw [inquiry, Inquiry.run_map, ← Compiler.compile_eq_run h]
  unfold build compile published
  cases p.compiler.compile (p.importer files) entry <;> rfl

/-- The build took the engine's text for an echo of the entry's import, and listed no source. -/
def Echoes (p : Publisher) (files : Files) (entry : String) : Prop :=
  p.compiler.Echoes (p.importer files) entry

theorem listed_build (h : p.compiler.engine.Inquires ask) {css : String} {sources : List Path}
    (hbuild : p.build files entry = .ok (css, sources)) (hecho : ¬ p.Echoes files entry) :
    ∀ path ∈ (p.inquiry ask entry).paths (p.importer files),
      ∃ source ∈ sources, source.components = path.components := by
  intro path hpath
  rw [inquiry, Inquiry.paths_map] at hpath
  unfold build at hbuild
  split at hbuild
  · cases hbuild
  · next compiled hcompile =>
    cases hbuild
    exact Compiler.listed h hcompile hecho path hpath

theorem readsHits_inquiry (h : p.compiler.engine.Inquires ask) (entry : String) :
    (p.inquiry ask entry).ReadsHits [] :=
  Inquiry.readsHits_map _ (Compiler.readsHits_inquiry h entry)

end Publisher

theorem suffix_withSourceExtension (name : List Char) :
    sourceExtension.toList <:+ withSourceExtension name := by
  unfold withSourceExtension
  split
  · next h =>
    obtain ⟨before, hbefore⟩ := (endsWith_iff _ _).1 h
    exact ⟨before, hbefore.symm⟩
  · exact List.suffix_append _ _

namespace Locator

theorem suffix_candidates {l : Locator} {token logical : String}
    (h : logical ∈ l.candidates token) : sourceExtension.toList <:+ logical.toList := by
  unfold candidates at h
  split at h
  · cases h
  · obtain ⟨root, -, hroot⟩ := List.mem_flatMap.1 h
    obtain ⟨name, hname, rfl⟩ := List.mem_map.1 hroot
    have hsuffix : sourceExtension.toList <:+ name.toList := by
      obtain ⟨chars, hchars, rfl⟩ := List.mem_map.1 hname
      rw [String.toList_ofList]
      rcases List.mem_cons.1 hchars with rfl | hchars
      · exact suffix_withSourceExtension _
      · rw [List.mem_singleton.1 hchars]
        exact suffix_withSourceExtension _
    unfold logicalPath
    split
    · exact hsuffix
    · rw [String.toList_append]
      exact hsuffix.trans (List.suffix_append _ _)

/-- What a token stands for is a file for one of its logical paths. -/
theorem resolve_eq_some {l : Locator} {find : String → Option Path} {token : String}
    {hit : ResolvedImport} (h : l.resolve find token = some hit) :
    hit.logical ∈ l.candidates token ∧ find hit.logical = some hit.path := by
  rw [resolve, resolveTraced, search_snd] at h
  obtain ⟨logical, hlogical, hfind⟩ := List.exists_of_findSome?_eq_some h
  obtain ⟨path, hpath, rfl⟩ := Option.map_eq_some_iff.1 hfind
  exact ⟨hlogical, hpath⟩

end Locator

/-- What an importer finds is a source, and a file. -/
theorem Publisher.resolve_eq_some {p : Publisher} {files : Files} {token : String}
    {hit : ResolvedImport} (h : (p.importer files).resolve token = some hit) :
    IsSource hit.path ∧ files.isFile hit.path = true := by
  obtain ⟨hlogical, hfind⟩ := Locator.resolve_eq_some h
  have hcandidate := List.mem_of_find?_eq_some hfind
  exact ⟨Mounts.suffix_candidates (Locator.suffix_candidates hlogical) (by decide) hcandidate,
    List.find?_some hfind⟩

theorem Locator.resolve_congr {l : Locator} {find find' : String → Option Path} {token : String}
    (h : ∀ logical ∈ l.candidates token, find' logical = find logical) :
    l.resolve find' token = l.resolve find token := by
  rw [resolve, resolve, resolveTraced, resolveTraced]
  generalize l.candidates token = logicals at h
  induction logicals with
  | nil => rfl
  | cons logical rest ih =>
      rw [search, search, h logical List.mem_cons_self]
      cases find logical with
      | some path => rfl
      | none => exact ih fun logical' hlogical' => h logical' (List.mem_cons_of_mem _ hlogical')

theorem Compiler.compile_congr {c : Compiler} (hengine : c.engine.SeesImports) {i j : Importer}
    (h : i.Agrees j) (entry : String) : c.compile j entry = c.compile i entry := by
  unfold compile
  simp only [h.resolve, hengine _ _ _ i j h]

namespace Publisher

variable {p : Publisher} {f g : Files} {s : Set Location}

/-- Changes to other files do not change what an importer answers, as long as no mount leads up. -/
theorem agrees_importer (hmounts : p.mounts.AreDown) (hf : f.IsTree)
    (hfg : Files.SameOutside s f g) (hs : ∀ path, IsSource path → path.place f.home ∉ s) :
    (p.importer f).Agrees (p.importer g) := by
  have hresolve : ∀ token, (p.importer g).resolve token = (p.importer f).resolve token := by
    intro token
    refine Locator.resolve_congr fun logical hlogical => List.find?_congr fun path hpath => ?_
    have hsource : IsSource path :=
      Mounts.suffix_candidates (Locator.suffix_candidates hlogical) (by decide) hpath
    exact hfg.isFile_eq hf hsource.isNamed (Mounts.isDown_of_mem_candidates hmounts hpath)
      (hs path hsource)
  refine ⟨hresolve, fun token hit hhit => ?_⟩
  obtain ⟨hsource, hfile⟩ := resolve_eq_some hhit
  obtain ⟨l, x, hx⟩ := Files.find_of_isFile hfile
  have hkept := hfg.find_file hsource.isNamed (hs _ hsource) hx
  exact (Files.read_of_find hkept).trans (Files.read_of_find hx).symm

/-- And so they do not change what an entry is compiled to. -/
theorem compile_eq_of_sameOutside (hengine : p.compiler.engine.SeesImports)
    (hmounts : p.mounts.AreDown) (hf : f.IsTree) (hfg : Files.SameOutside s f g)
    (hs : ∀ path, IsSource path → path.place f.home ∉ s) (entry : String) :
    p.compile g entry = p.compile f entry :=
  Compiler.compile_congr hengine (agrees_importer hmounts hf hfg hs) entry

end Publisher

end StyleBuild
