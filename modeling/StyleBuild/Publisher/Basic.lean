import StyleBuild.Compiler
import StyleBuild.Publisher.Banner
import StyleBuild.Record.Store

/-!
# Publishers

A publisher compiles entries and puts the outcome where the mounts say. The
output of an entry is named by its id, the logical path
`<target>/<entry>_<suffix>.css`.
-/

namespace StyleBuild

open Text

def defaultTarget : String := "css-compiled"

structure Publisher where
  mounts : Mounts
  locator : Locator
  compiler : Compiler
  store : RecordStore
  target : String
  suffix : Option String
  entries : List String

namespace Publisher

def new (mounts : Mounts) (roots : List String) (store : RecordStore) (compiler : Compiler) :
    Publisher :=
  ⟨mounts, .ofRoots roots, compiler, store, defaultTarget, none, []⟩

def withTarget (p : Publisher) (target : String) : Publisher :=
  { p with target := String.ofList (target.toList.reverse.dropWhile (· = '/')).reverse }

/-- Production follows the format of the compiler. -/
def production (p : Publisher) : Bool := p.compiler.format == .crunched

/-- Whether an entry has segments that are names, and no character that a statement could not
hold. -/
def isValidEntry (entry : String) : Bool :=
  let s := entry.toList
  !(s.contains '"' || s.contains '\\') &&
    (segments '/' s).all fun l => !(l.isEmpty || l == ['.'] || l == ['.', '.'])

/-- The logical path of an entry's output. -/
def outputId (p : Publisher) (entry : String) : Except Error String :=
  if isValidEntry entry then
    let name := match p.suffix with
      | some suffix => if suffix.isEmpty then entry else entry ++ "_" ++ suffix
      | none => entry
    .ok (if p.target.isEmpty then name ++ ".css" else p.target ++ "/" ++ name ++ ".css")
  else .error (.invalidResourcePath entry)

/-- Imports as the roots, the mounts and the files say. -/
def importer (p : Publisher) (files : Files) : Importer :=
  { resolve := p.locator.resolve (p.mounts.find? files.isFile)
    read := files.read }

def compile (p : Publisher) (files : Files) (entry : String) : Except Error CompiledCss :=
  p.compiler.compile (p.importer files) entry

/-- The exact text that is published for an entry, and the files it was made from. -/
def build (p : Publisher) (files : Files) (entry : String) : Except Error (String × List Path) :=
  match p.compile files entry with
  | .error e => .error e
  | .ok compiled =>
    .ok (if p.production then compiled.css else withBanner compiled.css, compiled.sources)

def buildCss (p : Publisher) (files : Files) (entry : String) : Except Error String :=
  (p.build files entry).map (·.1)

/-- The publisher on one line. -/
def describe (p : Publisher) : String :=
  described "Publisher"
    [("locator", p.locator.describe),
      ("compiler", p.compiler.describe),
      ("production", describedBool p.production),
      ("target", quoted p.target),
      ("suffix", describedOption p.suffix),
      ("entries", quotedList p.entries)]

end Publisher

end StyleBuild
