import StyleBuild.Digest.Hex
import StyleBuild.Json.Fault

/-!
# Scanning JSON texts

A scanner reads from the start of what is left of a text and answers what it
read and what is left then. It stops with a problem and the place of it, as a
number of characters that were left there and a number of bytes beyond; only
`Fault.ofStop` turns that into lines and columns.
-/

namespace StyleBuild.Json

structure Stop where
  problem : Problem
  /-- How many characters are left at the place. -/
  left : Nat
  /-- How many bytes further the place lies. -/
  ahead : Nat
  deriving DecidableEq, Repr

/-- Stops at the start of `s`. -/
def stopAt (problem : Problem) (s : List Char) : Stop := ⟨problem, s.length, 0⟩

/-- Stops behind the first byte of `s`. -/
def stopBehind (problem : Problem) (s : List Char) : Stop := ⟨problem, s.length, 1⟩

/-- The line and column, from 1 and from 0, after some bytes of a text. -/
def advance (line column bytes : Nat) : List Char → Nat × Nat
  | [] => (line, column)
  | c :: s =>
    if bytes < c.utf8Size then (line, column + bytes)
    else if c = '\n' then advance (line + 1) 0 (bytes - 1) s
    else advance line (column + c.utf8Size) (bytes - c.utf8Size) s

def utf8Length (s : List Char) : Nat := s.foldr (fun c n => c.utf8Size + n) 0

/-- A stop in a text, with its line and column. -/
def Fault.ofStop (text : List Char) (stop : Stop) : Fault :=
  let read := text.take (text.length - stop.left)
  let (line, column) := advance 1 0 (utf8Length read + stop.ahead) text
  ⟨stop.problem, line, column⟩

def isBlank (c : Char) : Bool := c == ' ' || c == '\n' || c == '\t' || c == '\r'

def skipBlank (s : List Char) : List Char := s.dropWhile isBlank

/-- Reads the rest of a word. -/
def scanWord : List Char → List Char → Except Stop (List Char)
  | [], s => .ok s
  | _ :: _, [] => .error (stopAt .endInValue [])
  | w :: ws, c :: s => if c = w then scanWord ws s else .error (stopBehind .expectedWord (c :: s))

/-- Reads four hexadecimal digits. -/
def scanHex4 (s : List Char) : Except Stop (Nat × List Char) :=
  if utf8Length (s.take 4) < 4 then .error (stopAt .endInString [])
  else
    match s with
    | a :: b :: c :: d :: rest =>
      match Digest.hexValue? a, Digest.hexValue? b, Digest.hexValue? c, Digest.hexValue? d with
      | some a, some b, some c, some d => .ok (((a * 16 + b) * 16 + c) * 16 + d, rest)
      | _, _, _, _ => .error ⟨.invalidEscape, s.length, 4⟩
    | _ => .error ⟨.invalidEscape, s.length, 4⟩

def isTrailing (n : Nat) : Bool := 0xDC00 ≤ n && n ≤ 0xDFFF

def isLeading (n : Nat) : Bool := 0xD800 ≤ n && n ≤ 0xDBFF

/-- Reads `c`, which a pair of surrogates has to go on with. -/
def scanHalf (c : Char) (s : List Char) : Except Stop (List Char) :=
  match s with
  | [] => .error (stopAt .endInString [])
  | d :: rest => if d = c then .ok rest else .error (stopBehind .halfSurrogatePair s)

/-- Reads the second half of a pair of surrogates, with its backslash. -/
def scanTrailing (first : Nat) (s : List Char) : Except Stop (Char × List Char) := do
  let rest ← scanHalf '\\' s
  let rest ← scanHalf 'u' rest
  let (second, rest) ← scanHex4 rest
  if isTrailing second then
    return (Char.ofNat ((first - 0xD800) * 0x400 + (second - 0xDC00) + 0x10000), rest)
  else throw (stopAt .loneSurrogate rest)

/-- The characters that a backslash and a letter stand for. -/
def simpleEscape? (c : Char) : Option Char :=
  if c = '"' then some '"'
  else if c = '\\' then some '\\'
  else if c = '/' then some '/'
  else if c = 'b' then some '\x08'
  else if c = 'f' then some '\x0c'
  else if c = 'n' then some '\n'
  else if c = 'r' then some '\r'
  else if c = 't' then some '\t'
  else none

/-- Reads an escape behind its backslash and the letter `u`. -/
def scanCodePoint (s : List Char) : Except Stop (Char × List Char) := do
  let (n, rest) ← scanHex4 s
  if isTrailing n then throw (stopAt .loneSurrogate rest)
  else if isLeading n then scanTrailing n rest
  else return (Char.ofNat n, rest)

/-- Reads an escape behind its backslash. -/
def scanEscape (s : List Char) : Except Stop (Char × List Char) :=
  match s with
  | [] => .error (stopAt .endInString [])
  | c :: rest =>
    match simpleEscape? c with
    | some d => .ok (d, rest)
    | none => if c = 'u' then scanCodePoint rest else .error (stopBehind .invalidEscape s)

theorem scanHex4_lt {s rest : List Char} {n : Nat} (h : scanHex4 s = .ok (n, rest)) :
    rest.length < s.length := by
  unfold scanHex4 at h
  split at h
  · cases h
  · split at h
    · split at h
      · cases h; simp; omega
      · cases h
    · cases h

theorem scanHalf_lt {c : Char} {s rest : List Char} (h : scanHalf c s = .ok rest) :
    rest.length < s.length := by
  unfold scanHalf at h
  split at h
  · cases h
  · split at h
    · cases h; simp
    · cases h

theorem scanTrailing_lt {first : Nat} {s rest : List Char} {c : Char}
    (h : scanTrailing first s = .ok (c, rest)) : rest.length < s.length := by
  simp only [scanTrailing, bind, Except.bind] at h
  split at h
  · cases h
  · next r₁ h₁ =>
    split at h
    · cases h
    · next r₂ h₂ =>
      split at h
      · cases h
      · next r₃ h₃ =>
        obtain ⟨n, r₃⟩ := r₃
        have := scanHalf_lt h₁
        have := scanHalf_lt h₂
        have := scanHex4_lt h₃
        split at h
        · simp only [pure, Except.pure, Except.ok.injEq, Prod.mk.injEq] at h
          obtain ⟨-, rfl⟩ := h
          omega
        · cases h

theorem scanCodePoint_lt {s rest : List Char} {c : Char}
    (h : scanCodePoint s = .ok (c, rest)) : rest.length < s.length := by
  simp only [scanCodePoint, bind, Except.bind] at h
  split at h
  · cases h
  · next r₁ h₁ =>
    obtain ⟨n, r₁⟩ := r₁
    have hlt := scanHex4_lt h₁
    split at h
    · cases h
    · split at h
      · have := scanTrailing_lt h
        simp only at this
        omega
      · simp only [pure, Except.pure, Except.ok.injEq, Prod.mk.injEq] at h
        obtain ⟨-, rfl⟩ := h
        exact hlt

theorem scanEscape_lt {s rest : List Char} {c : Char} (h : scanEscape s = .ok (c, rest)) :
    rest.length < s.length := by
  unfold scanEscape at h
  split at h
  · cases h
  · split at h
    · cases h; simp
    · split at h
      · have := scanCodePoint_lt h
        simp; omega
      · cases h

/-- Reads a string behind its opening quote. -/
def scanString (s : List Char) : Except Stop (List Char × List Char) :=
  match s with
  | [] => .error (stopAt .endInString [])
  | c :: rest =>
    if c = '"' then .ok ([], rest)
    else if c = '\\' then
      match _h : scanEscape rest with
      | .error e => .error e
      | .ok (d, rest') =>
        match scanString rest' with
        | .error e => .error e
        | .ok (text, rest'') => .ok (d :: text, rest'')
    else if c.toNat < 0x20 then .error (stopBehind .controlCharacter (c :: rest))
    else
      match scanString rest with
      | .error e => .error e
      | .ok (text, rest') => .ok (c :: text, rest')
termination_by s.length
decreasing_by
  · have := scanEscape_lt _h; simp; omega
  · simp

end StyleBuild.Json
