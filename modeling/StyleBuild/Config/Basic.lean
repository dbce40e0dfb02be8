import StyleBuild.Publisher.Basic

/-!
# Configurations

What a publisher is built from. Directories are kept as written until the
configuration is rebased on the directory of its file; an absolute directory
stays as it is. A configuration without a directory for records gets the default one
when it is rebased.
-/

namespace StyleBuild

/-- Where records are kept unless a configuration says otherwise. -/
def defaultMetadataDir : Path := ⟨".sheetpress/meta"⟩

structure Config where
  production : Bool
  target : String
  suffix : Option String
  /-- Import roots, the first one overriding those after it. -/
  roots : List String
  entries : List String
  /-- The values of variables, by name. -/
  bindings : Dictionary String
  /-- The directories of each mount, the first one overriding those after it. -/
  mounts : Dictionary (List Path)
  metadataDir : Option Path
  deriving DecidableEq

namespace Config

def default : Config :=
  { production := false
    target := defaultTarget
    suffix := none
    roots := ["scss"]
    entries := []
    bindings := .empty
    mounts := .empty
    metadataDir := none }

/-- The directory where records are kept. -/
def recordDir (c : Config) : Path := c.metadataDir.getD defaultMetadataDir

/-- A directory as seen from `base`; an absolute one stays as it is. -/
def rebaseDir (base dir : Path) : Path := if dir.isAbsolute then dir else base.join dir

/-- The configuration as seen from `base`. -/
def rebase (c : Config) (base : Path) : Config :=
  { c with
    mounts := c.mounts.map fun dirs => dirs.map (rebaseDir base)
    metadataDir := some (rebaseDir base c.recordDir) }

/-- The mounts, added in the order of their names. -/
def allMounts (c : Config) : Mounts := Mounts.ofList c.mounts.entries

/-- A publisher with its records in files. -/
def publisher (c : Config) (engine : Engine) : Except Error Publisher :=
  match (Compiler.new engine c.production).setVariables c.bindings with
  | .error e => .error e
  | .ok compiler =>
    let p := (Publisher.new c.allMounts c.roots (.files c.recordDir) compiler).withTarget c.target
    .ok { p with suffix := c.suffix, entries := c.entries }

end Config

end StyleBuild
