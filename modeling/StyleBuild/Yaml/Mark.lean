/-!
# Marks

A mark is a place in a text: the number of lines above it and the number of
characters before it on its line. Messages count both from one.
-/

namespace StyleBuild.Yaml

structure Mark where
  line : Nat
  column : Nat
  deriving DecidableEq, Repr

namespace Mark

def start : Mark := ⟨0, 0⟩

def right (m : Mark) (n : Nat) : Mark := ⟨m.line, m.column + n⟩

def nextLine (m : Mark) : Mark := ⟨m.line + 1, 0⟩

/-- The text of a mark behind another text; nothing for the start of the text. -/
def suffix (m : Mark) : String :=
  if m = start then ""
  else " at line " ++ toString (m.line + 1) ++ " column " ++ toString (m.column + 1)

end Mark

end StyleBuild.Yaml
