import StyleBuild.Error
import StyleBuild.Locator
import StyleBuild.Substitution.Registry

/-!
# Engines

An engine turns a stylesheet program into CSS. It finds the files of imports
through the importer of the request and nowhere else.
-/

namespace StyleBuild

/-- How CSS is laid out. -/
inductive OutputFormat where
  /-- Readable, for development. -/
  | expanded
  /-- As short as possible, for production. -/
  | crunched
  deriving DecidableEq, Repr

structure Formatter where
  format : OutputFormat
  /-- Whether rules name the file and line they come from. -/
  lineComments : Bool
  deriving DecidableEq, Repr

namespace OutputFormat

def ofProduction (production : Bool) : OutputFormat := if production then crunched else expanded

/-- Readable output has line comments. -/
def formatter (format : OutputFormat) : Formatter := ⟨format, format == expanded⟩

def name : OutputFormat → String
  | expanded => "Expanded"
  | crunched => "Crunched"

end OutputFormat

/-- Answers the questions an engine asks about imports. -/
structure Importer where
  resolve : String → Option ResolvedImport
  read : Path → Except Files.Fault ByteArray

structure CompileRequest where
  source : String
  formatter : Formatter
  importer : Importer
  functions : Substitution.Registry

structure EngineOutput where
  css : String
  /-- The files that were read, in the order of their first reading. -/
  sources : List Path
  deriving DecidableEq, Repr

structure Engine where
  name : String
  compile : CompileRequest → Except Error EngineOutput

end StyleBuild
