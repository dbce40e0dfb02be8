import StyleBuild.Text.Quoted

/-!
# Descriptions of values

A value is described on one line as `Name { field: value, … }`, texts quoted,
lists in brackets and dictionaries in braces.
-/

namespace StyleBuild.Text

def describedFields (fields : List (String × String)) : String :=
  ", ".intercalate (fields.map fun f => f.1 ++ ": " ++ f.2)

/-- A structure with the descriptions of its fields. -/
def described (name : String) (fields : List (String × String)) : String :=
  name ++ " \x7b " ++ describedFields fields ++ " \x7d"

/-- Texts under texts. -/
def describedEntries (entries : List (String × String)) : String :=
  "\x7b" ++ describedFields (entries.map fun e => (quoted e.1, quoted e.2)) ++ "\x7d"

def describedOption (value : Option String) : String :=
  match value with
  | none => "None"
  | some s => "Some(" ++ quoted s ++ ")"

def describedBool (b : Bool) : String := if b then "true" else "false"

end StyleBuild.Text
