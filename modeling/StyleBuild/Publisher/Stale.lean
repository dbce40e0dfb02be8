import StyleBuild.Publisher.Basic

/-!
# Stale outputs

An output has to be compiled again when there is no usable record of it, when
it is missing or is not what was written, when variables or mode have changed,
or when a recorded source is gone or was modified since.
-/

namespace StyleBuild.Publisher

/-- When a file was modified, in whole milliseconds; `none` when it is missing or older than the
epoch. -/
def modifiedAt? (files : Files) (path : Path) : Option UInt64 :=
  match files.modified path with
  | .error _ => none
  | .ok t => if 0 ≤ t then some (t.toNat / 1000000).toUInt64 else none

/-- Whether a source still is as it was at a time. -/
def isCurrentSource (files : Files) (compiledAt : UInt64) (path : Path) : Bool :=
  match modifiedAt? files path with
  | none => false
  | some t => t ≤ compiledAt

/-- Whether an entry has to be compiled again. -/
def needsCompile (p : Publisher) (w : World) (entry : String) : Except Error Bool :=
  match p.outputId entry with
  | .error e => .error e
  | .ok id =>
    match p.store.get w id with
    | .error _ => .ok true
    | .ok none => .ok true
    | .ok (some record) =>
      match p.mounts.find? w.files.isFile id with
      | none => .ok true
      | some output =>
        match w.files.read output with
        | .error fault => .error (.files fault)
        | .ok content =>
          .ok (!(decide (Fingerprint.of content = record.fingerprint) &&
            record.production == p.production &&
            decide (record.bindings = p.compiler.bindings) &&
            record.imports.all (isCurrentSource w.files record.compiledAt)))

end StyleBuild.Publisher
