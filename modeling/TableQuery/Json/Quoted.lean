import TableQuery.Text.Hex

/-!
Strings in documents. Writing escapes the quote, the backslash and the control
characters below the blank, and nothing else. Reading also takes the other
escapes of the format, where a character beyond the first plane is spelled as a
pair of surrogates, and refuses raw control characters and surrogates that are
not paired.
-/

namespace TableQuery.Json

open Text

def ofShortEscape? : Char → Option Char
  | '"' => some '"'
  | '\\' => some '\\'
  | '/' => some '/'
  | 'b' => some '\x08'
  | 'f' => some '\x0c'
  | 'n' => some '\n'
  | 'r' => some '\r'
  | 't' => some '\t'
  | _ => none

def escape (c : Char) : List Char :=
  match c with
  | '"' => ['\\', '"']
  | '\\' => ['\\', '\\']
  | '\x08' => ['\\', 'b']
  | '\x0c' => ['\\', 'f']
  | '\n' => ['\\', 'n']
  | '\r' => ['\\', 'r']
  | '\t' => ['\\', 't']
  | c =>
    if c.toNat < 0x20 then
      ['\\', 'u', '0', '0', Nat.digitChar (c.toNat / 16), Nat.digitChar (c.toNat % 16)]
    else
      [c]

def quote (text : List Char) : List Char :=
  '"' :: (text.flatMap escape ++ ['"'])

def readUnit? : List Char → Option (Nat × List Char)
  | a :: b :: c :: d :: rest => do
    let a ← hexDigit? a
    let b ← hexDigit? b
    let c ← hexDigit? c
    let d ← hexDigit? d
    some (a * 0x1000 + b * 0x100 + c * 0x10 + d, rest)
  | _ => none

/-- The second half of a pair of surrogates, given the first. -/
def readLowSurrogate? (high : Nat) : List Char → Option (Char × List Char)
  | '\\' :: 'u' :: rest =>
    (readUnit? rest).bind fun (low, rest) =>
      if 0xDC00 ≤ low ∧ low ≤ 0xDFFF then
        some (Char.ofNat (0x10000 + (high - 0xD800) * 0x400 + (low - 0xDC00)), rest)
      else
        none
  | _ => none

def readEscape? : List Char → Option (Char × List Char)
  | 'u' :: rest =>
    (readUnit? rest).bind fun (unit, rest) =>
      if 0xD800 ≤ unit ∧ unit ≤ 0xDBFF then readLowSurrogate? unit rest
      else if 0xDC00 ≤ unit ∧ unit ≤ 0xDFFF then none
      else some (Char.ofNat unit, rest)
  | c :: rest => (ofShortEscape? c).map (·, rest)
  | [] => none

theorem length_readUnit? {text rest : List Char} {unit : Nat}
    (h : readUnit? text = some (unit, rest)) : rest.length < text.length := by
  match text with
  | a :: b :: c :: d :: tail =>
    simp only [readUnit?, Option.bind_eq_bind, Option.bind_eq_some_iff, Option.some.injEq,
      Prod.mk.injEq] at h
    obtain ⟨_, _, _, _, _, _, _, _, _, rfl⟩ := h
    simp only [List.length_cons]
    omega
  | [] | [_] | [_, _] | [_, _, _] => simp [readUnit?] at h

theorem length_readLowSurrogate? {text rest : List Char} {high : Nat} {c : Char}
    (h : readLowSurrogate? high text = some (c, rest)) : rest.length < text.length := by
  unfold readLowSurrogate? at h
  split at h
  · simp only [Option.bind_eq_some_iff, Prod.exists] at h
    obtain ⟨low, tail, hunit, h⟩ := h
    have := length_readUnit? hunit
    split at h
    · simp only [Option.some.injEq, Prod.mk.injEq] at h
      simp only [List.length_cons, ← h.2]
      omega
    · simp at h
  · simp at h

theorem length_readEscape? {text rest : List Char} {c : Char}
    (h : readEscape? text = some (c, rest)) : rest.length < text.length := by
  unfold readEscape? at h
  split at h
  · simp only [Option.bind_eq_some_iff, Prod.exists] at h
    obtain ⟨unit, tail, hunit, h⟩ := h
    have := length_readUnit? hunit
    simp only [List.length_cons]
    split at h
    · have := length_readLowSurrogate? h
      omega
    · split at h
      · simp at h
      · simp only [Option.some.injEq, Prod.mk.injEq] at h
        rw [← h.2]
        omega
  · simp only [Option.map_eq_some_iff, Prod.mk.injEq] at h
    obtain ⟨_, _, _, rfl⟩ := h
    simp
  · simp at h

/-- The contents of a string after its opening quote, and the text after its
closing quote. -/
def readQuoted? : List Char → Option (List Char × List Char)
  | [] => none
  | '"' :: rest => some ([], rest)
  | '\\' :: text =>
    match h : readEscape? text with
    | some (c, rest) =>
      have := length_readEscape? h
      (readQuoted? rest).map fun (contents, rest) => (c :: contents, rest)
    | none => none
  | c :: rest =>
    if c.toNat < 0x20 then none
    else (readQuoted? rest).map fun (contents, rest) => (c :: contents, rest)
termination_by text => text.length

end TableQuery.Json
