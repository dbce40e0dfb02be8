import StyleBuild.Proofs.Files.Making
import StyleBuild.Proofs.Record.Disjoint

/-!
# What a store of files recalls

A store of files takes a record whenever the directories on the way to its file
can be made and the file's place is no directory (`put_files_eq_ok_iff`). Then
the file holds the text of the record, and a look-up gives that record, or none
when it is of a later version of the format (`put_recalled`).
-/

namespace StyleBuild

open Text Files

namespace World

variable {v w : World} {p : Path}

/-- When the parent directories of a path were made, its directory is there. A path that is only a
name has no directory part and is in the current directory. -/
theorem isDirectory_of_createParents (hp : p.steps ≠ [])
    (hcurrent : p.directory.isEmpty = true → w.files.IsDirectoryAt w.files.home)
    (h : w.createParents p = (v, .ok ())) : v.files.isDirectory (directoryOf p) = true := by
  obtain ⟨parent, hparent⟩ := Path.exists_parent?_of_steps_ne_nil hp
  rw [Path.directory_eq_of_parent? hparent] at hcurrent
  rw [createParents, hparent] at h
  simp only at h
  split at h
  · next g hg =>
    cases h
    rw [directoryOf, Path.directory_eq_of_parent? hparent]
    split
    · next hempty =>
      have hsame := sameOutside_createDirectories w.files w.now parent
      rw [hg] at hsame
      refine (isDirectory_eq_true_iff (by rfl)).2 ⟨g.home, rfl, ?_⟩
      rw [hsame.home]
      exact hsame.directories _ (hcurrent hempty)
    · next hempty => exact isDirectory_of_createDirectories (by simpa using hempty) hg
  · cases h

theorem reaches_of_createParents (hp : p.IsNamed) (hhome : w.files.IsDirectoryAt w.files.home)
    (h : w.createParents p = (v, .ok ())) : v.files.Reaches p :=
  (reaches_iff_isDirectory hp).2
    (isDirectory_of_createParents (Path.steps_ne_nil_of_isNamed hp) (fun _ => hhome) h)

/-- They are made when there is no file on the way. -/
theorem createParents_ok (htree : w.files.IsTree) (hhome : w.files.IsDirectoryAt w.files.home)
    (hp : p.IsNamed) (hdown : p.IsDown) (hadmits : w.files.Admits p) :
    (w.createParents p).2 = .ok () := by
  obtain ⟨parent, hparent⟩ := Path.exists_parent?_of_isNamed hp
  have hopen := hadmits.isOpen hdown
  rw [← Path.steps_dropLast_of_isNamed hp, ← (Path.steps_parent? hparent).1,
    ← Path.origin_parent? hparent] at hopen
  obtain ⟨g, hg, -⟩ := createDirectories_ok w.now htree hhome (hdown.parent? hparent)
    (hdown.isNamed_or_isStart_parent? hparent) hopen
  rw [createParents, hparent]
  simp only [hg]

theorem replaceFile_eq_ok_iff (w : World) (content : ByteArray) (hp : p.IsNamed) :
    (w.replaceFile p content).2 = .ok () ↔
      w.files.Reaches p ∧ ¬ w.files.IsDirectoryAt (p.place w.files.home) := by
  rw [← replace_eq_ok_iff w.files w.now content hp]
  unfold replaceFile
  split
  · next g hg =>
    rw [hg]
    exact ⟨fun _ => rfl, fun _ => rfl⟩
  · next g e hg =>
    rw [hg]
    simp only [reduceCtorEq]

end World

namespace RecordStore

variable {dir path : Path} {w w' : World} {r : CompileRecord}

/-- A store of files takes a record exactly when the directories on the way to its file can be made,
and there is no directory in the place of the file then. -/
theorem put_files_eq_ok_iff (hhome : w.files.IsDirectoryAt w.files.home)
    (hpath : recordPath dir r.file = .ok path) :
    ((RecordStore.files dir).put w r).2 = .ok () ↔
      (w.createParents path).2 = .ok () ∧
        ¬ (w.createParents path).1.files.IsDirectoryAt (path.place w.files.home) := by
  have hnamed : path.IsNamed := by
    obtain ⟨-, rfl⟩ := recordPath_eq_ok_iff.1 hpath
    exact isNamed_recordFile dir r.file
  have hsame := w.createParents_sameOutside path
  rw [put, hpath]
  simp only
  rcases hparents : w.createParents path with ⟨v, e | ok⟩
  · simp
  · rw [hparents] at hsame
    have hreach := World.reaches_of_createParents hnamed hhome hparents
    have hhome' : v.files.home = w.files.home := hsame.files.home
    simp only [World.replaceFile_eq_ok_iff _ _ hnamed, hreach, hhome', true_and]

/-- The text that is written for a record reads as that record. A store of files that takes a record
holds that text in the record's file, and a look-up of the output gives the record, or none when its
version is a later one. The store takes the record when the directories on the way to the file can
be made and there is no directory in its place; so it does wherever nothing is in the way. -/
theorem put_recalled (dir : Path) (w : World) (r : CompileRecord) :
    CompileRecord.read r.write = .ok r ∧
    ∀ path, recordPath dir r.file = .ok path →
      (∀ w', (RecordStore.files dir).put w r = (w', .ok ()) →
        w'.files.readText path = .ok r.write ∧
        (RecordStore.files dir).get w' r.file =
          .ok (if r.version ≤ currentRecordVersion then some r else none)) ∧
      (w.files.IsDirectoryAt w.files.home →
        (((RecordStore.files dir).put w r).2 = .ok () ↔
          (w.createParents path).2 = .ok () ∧
            ¬ (w.createParents path).1.files.IsDirectoryAt (path.place w.files.home)) ∧
        (w.files.IsTree → dir.IsDown → w.files.Admits path →
          ((RecordStore.files dir).put w r).2 = .ok ())) := by
  refine ⟨r.read_write, fun path hpath => ⟨fun w' hput => ?_, fun hhome =>
    ⟨put_files_eq_ok_iff hhome hpath, fun htree hdown hadmits => ?_⟩⟩⟩
  · obtain ⟨-, rfl⟩ := recordPath_eq_ok_iff.1 hpath
    have hread := read_of_put_files hput
    constructor
    · rw [readText, hread]
      simp only [fromUTF8?_toUTF8]
    · rw [get_files_of_read hpath hread]
      by_cases hlater : currentRecordVersion < r.version
      · rw [if_pos hlater, if_neg (UInt32.not_le.2 hlater)]
      · rw [if_neg hlater, if_pos (UInt32.not_lt.1 hlater)]
  · obtain ⟨hid, rfl⟩ := recordPath_eq_ok_iff.1 hpath
    obtain ⟨hrelative, hname⟩ := isDown_recordName hid
    have hnamed := isNamed_recordFile dir r.file
    have hfile := hdown.join hname hrelative
    have hparents := World.createParents_ok htree hhome hnamed hfile hadmits
    refine (put_files_eq_ok_iff hhome hpath).2 ⟨hparents, fun hd => hadmits.place ?_⟩
    exact (w.createParents_newDirectoriesIn hnamed hfile _ hd).resolve_right
      (Path.place_notMem_ancestors hnamed _)

/-- Text that has to be escaped, two imports, and the last moment that can be told. -/
def lateRecord : CompileRecord :=
  { version := currentRecordVersion + 1, file := "css/main.css", fingerprint := ⟨"\t"⟩
    compiledAt := 18446744073709551615, production := true
    bindings := .ofList [("accent", "\"\n\\")]
    imports := [⟨"theme/_a.scss"⟩, ⟨"theme/b c.scss"⟩] }

/-- Into a directory that is not there yet. The record is of a later version, so it is kept but not
given out. -/
theorem put_recalled_lateRecord : CompileRecord.read lateRecord.write = .ok lateRecord ∧
    ∃ w', (RecordStore.files ⟨"meta"⟩).put (World.empty ["srv".toList] 0) lateRecord =
        (w', .ok ()) ∧
      w'.files.readText ⟨"meta/css/main.css.meta.json"⟩ = .ok lateRecord.write ∧
      (RecordStore.files ⟨"meta"⟩).get w' "css/main.css" = .ok none := by
  have htree : (World.empty ["srv".toList] 0).files.IsTree := isTree_of_forall_mem (by decide)
  have hadmits : (World.empty ["srv".toList] 0).files.Admits ⟨"meta/css/main.css.meta.json"⟩ :=
    ⟨fun l _ x => nodeAt?_atHome_ne_file _ _ _ _, by decide⟩
  obtain ⟨hread, hrecalled⟩ := put_recalled ⟨"meta"⟩ (World.empty ["srv".toList] 0) lateRecord
  obtain ⟨hfound, hput⟩ := hrecalled ⟨"meta/css/main.css.meta.json"⟩ (by decide)
  have hok := (hput (by decide)).2 htree (by decide) hadmits
  refine ⟨hread, _, Prod.ext rfl hok, ?_⟩
  exact hfound _ (Prod.ext rfl hok)

end RecordStore

end StyleBuild
