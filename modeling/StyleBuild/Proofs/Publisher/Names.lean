import StyleBuild.OutputLock
import StyleBuild.Publisher.Basic
import StyleBuild.Proofs.Mounts.Selection
import StyleBuild.Proofs.Record.Store

/-!
# The names of what a publication reads and writes

The output of an entry ends in `.css`, its lock file in `.lock`, the file of its
record in `.meta.json` and a source in `.scss`. So they are four different
files, wherever the mounts and the store put them.
-/

namespace StyleBuild

open Text

variable {p : Publisher} {entry id : String} {output : Path}

theorem Publisher.suffix_outputId (h : p.outputId entry = .ok id) :
    ".css".toList <:+ id.toList := by
  unfold outputId at h
  split at h
  · cases h
    split <;> rw [String.toList_append] <;> exact List.suffix_append _ _
  · cases h

theorem suffix_lockPath (output : Path) : ".lock".toList <:+ (lockPath output).chars :=
  Path.suffix_append_text output.text ".lock"

theorem isNamed_lockPath (output : Path) : (lockPath output).IsNamed :=
  Path.isNamed_withSuffix output (by decide) (by decide)

/-- A path that can be the output of an entry. -/
def IsOutput (output : Path) : Prop := ".css".toList <:+ output.chars

namespace IsOutput

theorem isNamed (h : IsOutput output) : output.IsNamed :=
  Path.isNamed_of_suffix h (by decide) (by decide)

theorem lock_ne_output (h : IsOutput output) {locked : Path} (home : Location) :
    (lockPath locked).place home ≠ output.place home :=
  Path.place_ne_of_suffix (isNamed_lockPath locked) h.isNamed (suffix_lockPath locked) h
    (by decide) (by decide) (by decide) (by decide)

theorem record_ne_output (h : IsOutput output) (home : Location) (dir : Path) (id : String) :
    (RecordStore.recordFile dir id).place home ≠ output.place home :=
  Path.place_ne_of_suffix (RecordStore.isNamed_recordFile dir id) h.isNamed
    (RecordStore.suffix_recordFile dir id) h (by decide) (by decide) (by decide) (by decide)

end IsOutput

theorem Publisher.isOutput (hid : p.outputId entry = .ok id)
    (h : p.mounts.writable id = .ok output) : IsOutput output :=
  Mounts.suffix_writable (suffix_outputId hid) (by decide) h

theorem record_ne_lock (home : Location) (dir : Path) (id : String) (output : Path) :
    (RecordStore.recordFile dir id).place home ≠ (lockPath output).place home :=
  Path.place_ne_of_suffix (RecordStore.isNamed_recordFile dir id) (isNamed_lockPath output)
    (RecordStore.suffix_recordFile dir id) (suffix_lockPath output) (by decide) (by decide)
    (by decide) (by decide)

/-- A path that can be a source. -/
def IsSource (path : Path) : Prop := sourceExtension.toList <:+ path.chars

namespace IsSource

variable {path : Path}

theorem isNamed (h : IsSource path) : path.IsNamed :=
  Path.isNamed_of_suffix h (by decide) (by decide)

theorem ne_output (h : IsSource path) {output : Path} (hout : IsOutput output) (home : Location) :
    path.place home ≠ output.place home :=
  Path.place_ne_of_suffix h.isNamed hout.isNamed h hout (by decide) (by decide) (by decide)
    (by decide)

theorem ne_lock (h : IsSource path) (output : Path) (home : Location) :
    path.place home ≠ (lockPath output).place home :=
  Path.place_ne_of_suffix h.isNamed (isNamed_lockPath output) h (suffix_lockPath output)
    (by decide) (by decide) (by decide) (by decide)

theorem ne_record (h : IsSource path) (dir : Path) (id : String) (home : Location) :
    path.place home ≠ (RecordStore.recordFile dir id).place home :=
  Path.place_ne_of_suffix h.isNamed (RecordStore.isNamed_recordFile dir id) h
    (RecordStore.suffix_recordFile dir id) (by decide) (by decide) (by decide) (by decide)

end IsSource

end StyleBuild
