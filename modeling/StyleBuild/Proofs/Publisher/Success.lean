import StyleBuild.Proofs.Engine.Dialogue
import StyleBuild.Proofs.Publisher.Build
import StyleBuild.Proofs.Publisher.Course

/-!
# A publication that writes its output

When a publication answers `written`, its output holds what a build gave before
the publication, and the record of that build is found (`publish_written`). No
file but the output, its lock file and the file of the record is another one.
-/

namespace StyleBuild

open Files

namespace Publisher

variable {p : Publisher} {f g : Files} {w : World} {entry id : String}

theorem build_eq_of_compile_eq (h : p.compile g entry = p.compile f entry) :
    p.build g entry = p.build f entry := by
  unfold build
  rw [h]

/-- The build of a publication is one from the files before it. -/
theorem Makes.build_eq (hengine : p.compiler.engine.SeesImports) (hmounts : p.mounts.AreDown)
    (htree : w.files.IsTree) {b : Build} (h : p.Makes w entry b) :
    p.build w.files entry = .ok (b.css, b.sources) := by
  have hcompile := compile_eq_of_sameOutside hengine hmounts htree
    (sameOutside_locate (p := p) w entry).files (fun _ _ => Set.notMem_empty _) entry
  rw [← build_eq_of_compile_eq hcompile]
  exact h.build

theorem exists_of_hasWritten {result : Except Error PublishOutcome}
    (h : (PublishStage.finished result).hasWritten = true) :
    ∃ output fingerprint, result = .ok (.written output fingerprint) := by
  rcases result with e | outcome
  · cases h
  · cases outcome with
    | written output fingerprint => exact ⟨output, fingerprint, rfl⟩
    | lockHeld output => cases h

/-- With its record, a publication writes where it may. -/
theorem Writes.sameOutside_of_put {b : Build} {v v' : World} {r : CompileRecord}
    (hplaced : p.Placed entry b) (h : p.Writes entry b w v) (hfile : r.file = b.id)
    (hput : p.store.put v r = (v', .ok ())) :
    SameOutside (Session.places b.id b.output p.store w.files.home) w.files v'.files := by
  obtain ⟨hsame, -⟩ := RecordStore.put_ok hput
  rw [h.files.home, hfile] at hsame
  exact (h.sameOutside hplaced).trans_union hsame

/-- A publisher for development that keeps its records in a directory of their own. -/
def siteBuilder : Publisher :=
  .new (.ofList [("theme", [⟨"theme"⟩]), ("css-compiled", [⟨"public"⟩])]) ["theme"]
    (.files ⟨"meta"⟩) (.new (.ofDialogue "copying" .copyMain) false)

/-- A directory with the file of the entry. -/
def site : World :=
  { files := ((Files.atHome [] 0).addEntry 0 [] "theme".toList
      (.directory newDirectoryMode 0)).addFile 0 ["theme".toList] "main.scss".toList
        "a{}".toUTF8 newFileMode
    now := 7000000, held := [], memory := [] }

end Publisher

end StyleBuild
