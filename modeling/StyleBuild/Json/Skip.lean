import StyleBuild.Json.Scan

/-!
# Skipping a JSON value

A value that nobody asked for is read over. Its form is checked, the meaning of
its numbers and of the escapes in its strings is not.
-/

namespace StyleBuild.Json

/-- Reads over an escape behind its backslash. -/
def skipEscape (s : List Char) : Except Stop (List Char) :=
  match s with
  | [] => .error (stopAt .endInString [])
  | c :: rest =>
    match simpleEscape? c with
    | some _ => .ok rest
    | none =>
      if c = 'u' then (scanHex4 rest).map (·.2) else .error (stopBehind .invalidEscape s)

theorem skipEscape_lt {s rest : List Char} (h : skipEscape s = .ok rest) :
    rest.length < s.length := by
  unfold skipEscape at h
  split at h
  · cases h
  · next c t =>
    split at h
    · cases h; simp
    · split at h
      · cases ht : scanHex4 t with
        | error e => simp [ht, Except.map] at h
        | ok r =>
          obtain ⟨n, r⟩ := r
          simp only [ht, Except.map, Except.ok.injEq] at h
          subst h
          have := scanHex4_lt ht
          simp; omega
      · cases h

/-- Reads over a string behind its opening quote. -/
def skipString (s : List Char) : Except Stop (List Char) :=
  match s with
  | [] => .error (stopAt .endInString [])
  | c :: rest =>
    if c = '"' then .ok rest
    else if c = '\\' then
      match _h : skipEscape rest with
      | .error e => .error e
      | .ok rest' => skipString rest'
    else if c.toNat < 0x20 then .error (stopAt .controlCharacter s)
    else skipString rest
termination_by s.length
decreasing_by
  · have := skipEscape_lt _h; simp; omega
  · simp

def skipDigits (s : List Char) : List Char := s.dropWhile Char.isDigit

/-- Reads over an exponent behind its letter. -/
def skipExponent (s : List Char) : Except Stop (List Char) :=
  let s := match s with
    | '+' :: s => s
    | '-' :: s => s
    | s => s
  match s with
  | c :: _ => if c.isDigit then .ok (skipDigits s) else .error (stopBehind .invalidNumber s)
  | [] => .error (stopAt .invalidNumber s)

def skipNumberEnd (s : List Char) : Except Stop (List Char) :=
  match s with
  | 'e' :: rest => skipExponent rest
  | 'E' :: rest => skipExponent rest
  | _ => .ok s

def skipFraction (s : List Char) : Except Stop (List Char) :=
  match s with
  | c :: _ =>
    if c.isDigit then skipNumberEnd (skipDigits s) else .error (stopBehind .invalidNumber s)
  | [] => .error (stopBehind .invalidNumber s)

/-- Reads over a number behind its sign. -/
def skipNumber (s : List Char) : Except Stop (List Char) :=
  match s with
  | [] => .error (stopAt .invalidNumber s)
  | c :: rest =>
    if !c.isDigit then .error (stopBehind .invalidNumber s)
    else
      let after := if c = '0' then rest else skipDigits rest
      match after with
      | '.' :: rest => skipFraction rest
      | d :: _ =>
        if c = '0' ∧ d.isDigit then .error (stopBehind .invalidNumber after)
        else skipNumberEnd after
      | [] => .ok []

/-- What is open around a value that is read over. -/
inductive Frame where
  | list
  | object
  deriving DecidableEq, Repr

/-- Where reading over a value stands. -/
inductive SkipState where
  /-- A value is to follow. -/
  | value
  /-- An element or entry may follow, behind a comma when `comma` is set. -/
  | inside (comma : Bool)
  deriving DecidableEq, Repr

/-- Reads over the key of an entry and the colon. -/
def skipKey (s : List Char) : Except Stop (List Char) :=
  match skipBlank s with
  | [] => .error (stopBehind .endInObject [])
  | '"' :: rest => do
    let rest ← skipString rest
    match skipBlank rest with
    | [] => throw (stopBehind .endInObject [])
    | ':' :: rest => return rest
    | rest => throw (stopBehind .expectedColon rest)
  | rest => .error (stopBehind .keyNotString rest)

/-- What to do behind an opening, a value, or a closing. -/
def skipFrom : Nat → SkipState → List Frame → List Char → Except Stop (List Char)
  | 0, _, _, s => .ok s
  | fuel + 1, .value, frames, s => do
    let after (rest : List Char) : Except Stop (List Char) :=
      if frames.isEmpty then .ok rest else skipFrom fuel (.inside true) frames rest
    match skipBlank s with
    | [] => throw (stopBehind .endInValue [])
    | 'n' :: rest => after (← scanWord "ull".toList rest)
    | 't' :: rest => after (← scanWord "rue".toList rest)
    | 'f' :: rest => after (← scanWord "alse".toList rest)
    | '-' :: rest => after (← skipNumber rest)
    | '"' :: rest => after (← skipString rest)
    | '[' :: rest => skipFrom fuel (.inside false) (.list :: frames) rest
    | '{' :: rest => skipFrom fuel (.inside false) (.object :: frames) rest
    | c :: rest =>
      if c.isDigit then after (← skipNumber (c :: rest))
      else throw (stopBehind .expectedValue (c :: rest))
  | _ + 1, .inside _, [], s => .ok s
  | fuel + 1, .inside comma, frame :: frames, s =>
    let close (rest : List Char) : Except Stop (List Char) :=
      if frames.isEmpty then .ok rest else skipFrom fuel (.inside true) frames rest
    let next (rest : List Char) : Except Stop (List Char) :=
      match frame with
      | .list => skipFrom fuel .value (frame :: frames) rest
      | .object => do skipFrom fuel .value (frame :: frames) (← skipKey rest)
    match skipBlank s, frame with
    | [], .list => .error (stopBehind .endInList [])
    | [], .object => .error (stopBehind .endInObject [])
    | ']' :: rest, .list => close rest
    | '}' :: rest, .object => close rest
    | ',' :: rest, _ => if comma then next rest else next (',' :: rest)
    | rest, .list => if comma then .error (stopBehind .expectedCommaInList rest) else next rest
    | rest, .object => if comma then .error (stopBehind .expectedCommaInObject rest) else next rest

/-- Reads over one value. Each round reads a character or opens a value, so there are at most
two for each character. -/
def skipValue (s : List Char) : Except Stop (List Char) :=
  skipFrom (2 * s.length + 2) .value [] s

end StyleBuild.Json
