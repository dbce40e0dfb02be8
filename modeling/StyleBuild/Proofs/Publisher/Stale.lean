import StyleBuild.Proofs.Publisher.Names
import StyleBuild.Publisher.Stale

/-!
# When an output is current

An output need not be compiled again exactly when there is a record, the output
holds what the record says, variables and mode are those of the record, and no
recorded source was modified in a later millisecond (`needsCompile_eq_false_iff`).
-/

namespace StyleBuild

/-- The millisecond of a time, as it is kept in records. -/
def millisecond (t : Int) : UInt64 := (t.toNat / 1000000).toUInt64

namespace Publisher

variable {p : Publisher} {w : World} {entry : String}

theorem isCurrentSource_iff (files : Files) (compiledAt : UInt64) (path : Path) :
    isCurrentSource files compiledAt path = true ↔
      ∃ t, files.modified path = .ok t ∧ 0 ≤ t ∧ millisecond t ≤ compiledAt := by
  unfold isCurrentSource modifiedAt? millisecond
  cases files.modified path with
  | error e => simp
  | ok t =>
      by_cases ht : 0 ≤ t
      · simp [ht]
      · simp [ht]

/-- When a record is found and its output can be read, the two and the sources decide. -/
theorem needsCompile_of_get {id : String} {r : CompileRecord} {output : Path} {content : ByteArray}
    (hid : p.outputId entry = .ok id) (hget : p.store.get w id = .ok (some r))
    (hfind : p.mounts.find? w.files.isFile id = some output)
    (hread : w.files.read output = .ok content) :
    p.needsCompile w entry = .ok (!(decide (Fingerprint.of content = r.fingerprint) &&
      r.production == p.production && decide (r.bindings = p.compiler.bindings) &&
        r.imports.all (isCurrentSource w.files r.compiledAt))) := by
  simp only [needsCompile, hid, hget, hfind, hread]

theorem needsCompile_eq_false_iff :
    p.needsCompile w entry = .ok false ↔
      ∃ id r output content, p.outputId entry = .ok id ∧ p.store.get w id = .ok (some r) ∧
        p.mounts.find? w.files.isFile id = some output ∧ w.files.read output = .ok content ∧
        Fingerprint.of content = r.fingerprint ∧ r.production = p.production ∧
        r.bindings = p.compiler.bindings ∧
        ∀ path ∈ r.imports, isCurrentSource w.files r.compiledAt path = true := by
  constructor
  · intro h
    have hneeds := h
    unfold needsCompile at h
    split at h
    · cases h
    · next id hid =>
      split at h
      · cases h
      · cases h
      · next r hget =>
        split at h
        · cases h
        · next output hfind =>
          split at h
          · cases h
          · next content hread =>
            simp only [Except.ok.injEq, Bool.not_eq_false', Bool.and_eq_true, decide_eq_true_eq,
              beq_iff_eq, List.all_eq_true] at h
            obtain ⟨⟨⟨hfingerprint, hproduction⟩, hbindings⟩, himports⟩ := h
            exact ⟨id, r, output, content, hid, hget, hfind, hread, hfingerprint, hproduction,
              hbindings, himports⟩
  · rintro ⟨id, r, output, content, hid, hget, hfind, hread, hfingerprint, hproduction, hbindings,
      himports⟩
    rw [needsCompile_of_get hid hget hfind hread, hfingerprint, hproduction, hbindings,
      List.all_eq_true.2 himports]
    simp

end Publisher

end StyleBuild
