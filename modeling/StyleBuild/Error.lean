import StyleBuild.Files.Fault
import StyleBuild.Json.Fault
import StyleBuild.Yaml.Fault
import StyleBuild.Path

/-!
# Errors

Everything that can go wrong while a stylesheet is compiled or published, as
causes. `Error.message` is the one place where they are worded. A lock that
another writer holds is no error.
-/

namespace StyleBuild

/-- Why a stylesheet was not compiled. -/
inductive Rejection where
  | notText (logical : String)
  | missingImport (path : Path)
  /-- The engine's own complaint. -/
  | complaint (message : String)
  deriving DecidableEq, Repr

inductive RecordFault where
  | invalidId (id : String)
  | unreadable (path : Path) (fault : Json.Fault)
  deriving DecidableEq, Repr

inductive ConfigFault where
  | text (fault : Yaml.Fault)
  | file (path : Path) (fault : Yaml.Fault)
  deriving DecidableEq, Repr

inductive Error where
  | rejected (why : Rejection)
  | function (name : String) (message : String)
  | duplicateFunction (name : String)
  | invalidVariable (name : String)
  | unknownMount (logical : String)
  | invalidResourcePath (path : String)
  | lock (fault : Files.Fault)
  | record (fault : RecordFault)
  | config (fault : ConfigFault)
  | files (fault : Files.Fault)
  deriving DecidableEq, Repr

def Rejection.message : Rejection → String
  | .notText logical => logical ++ ": source is not valid UTF-8"
  | .missingImport path => "Import not found: " ++ path.text
  | .complaint message => message

def RecordFault.message : RecordFault → String
  | .invalidId id => "invalid output id `" ++ id ++ "`"
  | .unreadable path fault => path.text ++ ": " ++ fault.message

def ConfigFault.message : ConfigFault → String
  | .text fault => "Invalid configuration: " ++ fault.message
  | .file path fault =>
    "Invalid configuration: " ++ path.text ++ ": Invalid configuration: " ++ fault.message

/-- The text of an error. What the file system says itself is not worded here. -/
def Error.message : Error → String
  | .rejected why => "SASS compilation failed: " ++ why.message
  | .function name message => "Function `" ++ name ++ "` failed: " ++ message
  | .duplicateFunction name => "Function `" ++ name ++ "` is already registered"
  | .invalidVariable name => "Invalid variable name: `" ++ name ++ "`"
  | .unknownMount logical => "No resource mount for `" ++ logical ++ "`"
  | .invalidResourcePath path => "Invalid resource path: `" ++ path ++ "`"
  | .lock _ => "Failed to lock output"
  | .record fault => "Compile metadata error: " ++ fault.message
  | .config fault => fault.message
  | .files _ => "IO error"

end StyleBuild
