import StyleBuild.Engine.Basic

/-!
# Compiling an entry

An entry is compiled as a small program: a line for each variable, then the
single import of the entry.

    $breakpoint: 48rem;
    @import "button.scss";

An entry that cannot be found compiles to a comment that shows its import.
-/

namespace StyleBuild

open Text

/-- The import of an entry, as a statement without its semicolon. -/
def entryStatement (entry : String) : String :=
  "@import \"" ++ entry ++ sourceExtension ++ "\""

structure CompiledCss where
  css : String
  sources : List Path
  entryFound : Bool
  deriving DecidableEq, Repr

/-- What an entry compiles to when it cannot be found. -/
def CompiledCss.unresolved (statement : String) : CompiledCss :=
  ⟨"/* " ++ statement ++ " */", [], false⟩

/-- Compiles entries with variables and registered functions. -/
structure Compiler where
  engine : Engine
  format : OutputFormat
  /-- The values of variables, by name. -/
  bindings : Dictionary String
  functions : Substitution.Registry

namespace Compiler

def new (engine : Engine) (production : Bool) : Compiler :=
  ⟨engine, .ofProduction production, .empty, .empty⟩

def isNameStart (c : Char) : Bool := c.isAlpha || c == '_'

def isNamePart (c : Char) : Bool := c.isAlphanum || c == '_' || c == '-'

/-- Whether a text can name a variable: ASCII letters, digits, `_` and `-`, a letter or `_`
first. -/
def isVariableName (s : List Char) : Bool :=
  match s with
  | [] => false
  | c :: rest => isNameStart c && rest.all isNamePart

/-- A name without one leading `$`. -/
def bareName (name : String) : String :=
  match name.toList with
  | '$' :: rest => String.ofList rest
  | _ => name

/-- Entries under their bare names, later ones over earlier ones. -/
def checkVariables (checked : Dictionary String) :
    List (String × String) → Except Error (Dictionary String)
  | [] => .ok checked
  | (name, value) :: rest =>
    if isVariableName (bareName name).toList then
      checkVariables (checked.insert (bareName name) value) rest
    else .error (.invalidVariable name)

/-- Replaces all variables, or none when a name is not valid. -/
def setVariables (c : Compiler) (bindings : Dictionary String) : Except Error Compiler :=
  match checkVariables .empty bindings.entries with
  | .error e => .error e
  | .ok bindings => .ok { c with bindings }

def register (c : Compiler) (name : String) (callback : Substitution.Callback) :
    Except Error Compiler :=
  match c.functions.register name callback with
  | .error e => .error e
  | .ok functions => .ok { c with functions }

def unregister (c : Compiler) (name : String) : Compiler :=
  { c with functions := c.functions.unregister name }

/-- The line of a variable; a blank value is written as `null`. -/
def variableLine (name value : String) : String :=
  "$" ++ name ++ ": " ++ (if isAllBlank value.toList then "null" else value) ++ ";\n"

/-- The program for an import statement. -/
def program (c : Compiler) (statement : String) : String :=
  "".intercalate (c.bindings.entries.map fun e => variableLine e.1 e.2) ++ statement ++ ";\n"

/-- Compiles an entry, which is a token without extension. -/
def compile (c : Compiler) (importer : Importer) (entry : String) : Except Error CompiledCss :=
  if entry.toList.contains '"' || entry.toList.contains '\\' then
    .error (.invalidResourcePath entry)
  else
    let statement := entryStatement entry
    match importer.resolve (entry ++ sourceExtension) with
    | none => .ok (.unresolved statement)
    | some _ =>
      match c.engine.compile ⟨c.program statement, c.format.formatter, importer, c.functions⟩ with
      | .error e => .error e
      | .ok output =>
        -- an engine that cannot find the entry may show its import instead
        if startsWith statement.toList output.css.toList then .ok (.unresolved statement)
        else .ok ⟨output.css, output.sources, true⟩

/-- The compiler on one line. -/
def describe (c : Compiler) : String :=
  described "StylesheetCompiler"
    [("engine", quoted c.engine.name),
      ("format", c.format.name),
      ("variables", describedEntries c.bindings.entries),
      ("functions", c.functions.describe)]

end Compiler

end StyleBuild
