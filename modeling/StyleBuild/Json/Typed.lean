import StyleBuild.Json.Number
import StyleBuild.Json.Skip

/-!
# Reading JSON values of a known kind

Each reader skips blanks, reads one value of its kind and stops with a wrong
type or value at the end of anything else. A list or an object that is not
wanted is not entered.
-/

namespace StyleBuild.Json

/-- The stop at a value that is not of the kind that is wanted. -/
def mismatch (wanted : Wanted) (s : List Char) : Stop :=
  let at' (found : Found) (rest : List Char) : Stop := stopAt (.wrongType found wanted) rest
  let word (w : List Char) (found : Found) (rest : List Char) : Stop :=
    match scanWord w rest with
    | .error e => e
    | .ok rest => at' found rest
  let number (positive : Bool) (rest : List Char) : Stop :=
    match scanNumber positive rest with
    | .error e => e
    | .ok (n, rest) => at' n.found rest
  match s with
  | [] => stopBehind .endInValue []
  | 'n' :: rest => word "ull".toList .null rest
  | 't' :: rest => word "rue".toList (.boolean true) rest
  | 'f' :: rest => word "alse".toList (.boolean false) rest
  | '-' :: rest => number false rest
  | '"' :: rest =>
    match scanString rest with
    | .error e => e
    | .ok (text, rest) => at' (.text (String.ofList text)) rest
  | '[' :: _ => at' .sequence s
  | '{' :: _ => at' .map s
  | c :: _ => if c.isDigit then number true s else stopBehind .expectedValue s

/-- Reads a string. -/
def readString (wanted : Wanted) (s : List Char) : Except Stop (List Char × List Char) :=
  match skipBlank s with
  | [] => .error (stopBehind .endInValue [])
  | '"' :: rest => scanString rest
  | rest => .error (mismatch wanted rest)

/-- Reads `true` or `false`. -/
def readBoolean (s : List Char) : Except Stop (Bool × List Char) :=
  match skipBlank s with
  | [] => .error (stopBehind .endInValue [])
  | 't' :: rest => (scanWord "rue".toList rest).map fun rest => (true, rest)
  | 'f' :: rest => (scanWord "alse".toList rest).map fun rest => (false, rest)
  | rest => .error (mismatch .boolean rest)

/-- The number as a natural number below a bound. -/
def natural (wanted : Wanted) (bound : Nat) (n : Number) (rest : List Char) :
    Except Stop (Nat × List Char) :=
  match n with
  | .natural n =>
    if n < bound then .ok (n, rest)
    else .error (stopAt (.wrongValue (.integer n) wanted) rest)
  | .negative _ => .error (stopAt (.wrongValue n.found wanted) rest)
  | .float _ => .error (stopAt (.wrongType n.found wanted) rest)

/-- Reads a natural number below a bound. -/
def readNatural (wanted : Wanted) (bound : Nat) (s : List Char) :
    Except Stop (Nat × List Char) :=
  match skipBlank s with
  | [] => .error (stopBehind .endInValue [])
  | '-' :: rest => do
    let (n, rest) ← scanNumber false rest
    natural wanted bound n rest
  | c :: rest =>
    if c.isDigit then do
      let (n, rest) ← scanNumber true (c :: rest)
      natural wanted bound n rest
    else .error (mismatch wanted (c :: rest))

/-- Looks for the next element of a list: `none` at its end, else what is left at the element. -/
def nextElement (first : Bool) (s : List Char) : Except Stop (Option (List Char)) :=
  match skipBlank s with
  | [] => .error (stopBehind .endInList [])
  | ']' :: _ => .ok none
  | ',' :: rest =>
    if first then .ok (some (',' :: rest))
    else
      match skipBlank rest with
      | [] => .error (stopBehind .endInValue [])
      | ']' :: rest => .error (stopBehind .trailingComma (']' :: rest))
      | rest => .ok (some rest)
  | rest => if first then .ok (some rest) else .error (stopBehind .expectedCommaInList rest)

/-- Reads the end of a list. -/
def endList (s : List Char) : Except Stop (List Char) :=
  match skipBlank s with
  | [] => .error (stopBehind .endInList [])
  | ']' :: rest => .ok rest
  | ',' :: rest =>
    match skipBlank rest with
    | ']' :: rest => .error (stopBehind .trailingComma (']' :: rest))
    | rest => .error (stopBehind .trailingCharacters rest)
  | rest => .error (stopBehind .trailingCharacters rest)

/-- Looks for the next key of an object: `none` at its end, else what is left behind the opening
quote of the key. -/
def nextKey (first : Bool) (s : List Char) : Except Stop (Option (List Char)) :=
  match skipBlank s with
  | [] => .error (stopBehind .endInObject [])
  | '}' :: _ => .ok none
  | ',' :: rest =>
    if first then .error (stopBehind .keyNotString (',' :: rest))
    else
      match skipBlank rest with
      | [] => .error (stopBehind .endInValue [])
      | '"' :: rest => .ok (some rest)
      | '}' :: rest => .error (stopBehind .trailingComma ('}' :: rest))
      | rest => .error (stopBehind .keyNotString rest)
  | '"' :: rest =>
    if first then .ok (some rest) else .error (stopBehind .expectedCommaInObject ('"' :: rest))
  | rest =>
    .error (stopBehind (if first then .keyNotString else .expectedCommaInObject) rest)

/-- Reads the colon behind a key. -/
def readColon (s : List Char) : Except Stop (List Char) :=
  match skipBlank s with
  | [] => .error (stopBehind .endInObject [])
  | ':' :: rest => .ok rest
  | rest => .error (stopBehind .expectedColon rest)

/-- Reads the end of an object. -/
def endObject (s : List Char) : Except Stop (List Char) :=
  match skipBlank s with
  | [] => .error (stopBehind .endInObject [])
  | '}' :: rest => .ok rest
  | ',' :: rest => .error (stopBehind .trailingComma (',' :: rest))
  | rest => .error (stopBehind .trailingCharacters rest)

/-- Reads the elements of a list of strings; `fuel` bounds their number. -/
def readElements (wanted : Wanted) : Nat → Bool → List Char →
    Except Stop (List (List Char) × List Char)
  | 0, _, s => .ok ([], s)
  | fuel + 1, first, s => do
    match ← nextElement first s with
    | none => return ([], s)
    | some rest =>
      let (x, rest) ← readString wanted rest
      let (xs, rest) ← readElements wanted fuel false rest
      return (x :: xs, rest)

/-- Reads a list of strings. -/
def readStrings (wanted : Wanted) (s : List Char) : Except Stop (List (List Char) × List Char) :=
  match skipBlank s with
  | [] => .error (stopBehind .endInValue [])
  | '[' :: rest => do
    let (xs, rest) ← readElements wanted (rest.length + 1) true rest
    let rest ← endList rest
    return (xs, rest)
  | rest => .error (mismatch .sequence rest)

/-- Reads the entries of an object with strings as values; `fuel` bounds their number. -/
def readEntries : Nat → Bool → List Char →
    Except Stop (List (List Char × List Char) × List Char)
  | 0, _, s => .ok ([], s)
  | fuel + 1, first, s => do
    match ← nextKey first s with
    | none => return ([], s)
    | some rest =>
      let (key, rest) ← scanString rest
      let rest ← readColon rest
      let (value, rest) ← readString .string rest
      let (more, rest) ← readEntries fuel false rest
      return ((key, value) :: more, rest)

/-- Reads an object with strings as values. -/
def readStringMap (s : List Char) : Except Stop (List (List Char × List Char) × List Char) :=
  match skipBlank s with
  | [] => .error (stopBehind .endInValue [])
  | '{' :: rest => do
    let (entries, rest) ← readEntries (rest.length + 1) true rest
    let rest ← endObject rest
    return (entries, rest)
  | rest => .error (mismatch .map rest)

end StyleBuild.Json
