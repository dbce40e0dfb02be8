import StyleBuild.Dictionary
import StyleBuild.Fingerprint
import StyleBuild.Path

/-!
# Compile records

A record says what was produced for one output, and from what. One record is
kept per output; a publication replaces it and never edits it.
-/

namespace StyleBuild

/-- The version of the record format. Records of a later version are not read. -/
def currentRecordVersion : UInt32 := 1

structure CompileRecord where
  version : UInt32
  /-- The output, as its logical path. -/
  file : String
  /-- Of the bytes that were written. -/
  fingerprint : Fingerprint
  /-- Milliseconds since the epoch. -/
  compiledAt : UInt64
  production : Bool
  /-- The values of variables, by name. -/
  bindings : Dictionary String
  /-- The files that were read. -/
  imports : List Path
  deriving DecidableEq

/-- A record with nothing but an output and its fingerprint. -/
def CompileRecord.of (file : String) (fingerprint : Fingerprint) (compiledAt : UInt64) :
    CompileRecord :=
  ⟨currentRecordVersion, file, fingerprint, compiledAt, false, .empty, []⟩

end StyleBuild
