import TableQuery.Json.Quoted

/-!
The texts of strings in documents. Most characters may be written as they are,
some have short escapes, and every character can be spelled by its code, with a
pair of surrogates for one that does not fit into four hexadecimal digits. All of
these spellings are read, and writing picks one of them for each character.
-/

namespace TableQuery.Json

open Text

/-- The spellings of a character inside a string. -/
inductive Escaped : Char → List Char → Prop
  | plain {c : Char} : 0x20 ≤ c.toNat → c ≠ '"' → c ≠ '\\' → Escaped c [c]
  | short {c mark : Char} : ofShortEscape? mark = some c → Escaped c ['\\', mark]
  | unit {digits : List Char} {unit : Nat} :
      readUnit? digits = some (unit, []) → ¬(0xD800 ≤ unit ∧ unit ≤ 0xDFFF) →
      Escaped (Char.ofNat unit) ('\\' :: 'u' :: digits)
  | pair {digits digits' : List Char} {high low : Nat} :
      readUnit? digits = some (high, []) → 0xD800 ≤ high ∧ high ≤ 0xDBFF →
      readUnit? digits' = some (low, []) → 0xDC00 ≤ low ∧ low ≤ 0xDFFF →
      Escaped (Char.ofNat (0x10000 + (high - 0xD800) * 0x400 + (low - 0xDC00)))
        ('\\' :: 'u' :: (digits ++ '\\' :: 'u' :: digits'))

inductive StringBody : List Char → List Char → Prop
  | nil : StringBody [] []
  | cons {c : Char} {contents s body : List Char} :
      Escaped c s → StringBody contents body → StringBody (c :: contents) (s ++ body)

def StringText (contents : String) (s : List Char) : Prop :=
  ∃ body, StringBody contents.toList body ∧ s = '"' :: (body ++ ['"'])

variable {rest : List Char}

theorem readUnit?_append {digits : List Char} {unit : Nat}
    (h : readUnit? digits = some (unit, [])) (rest : List Char) :
    readUnit? (digits ++ rest) = some (unit, rest) := by
  match digits with
  | a :: b :: c :: d :: tail =>
      simp only [readUnit?, Option.bind_eq_bind, Option.bind_eq_some_iff, Option.some.injEq,
        Prod.mk.injEq] at h
      obtain ⟨x, hx, y, hy, z, hz, w, hw, rfl, rfl⟩ := h
      simp [readUnit?, hx, hy, hz, hw]
  | [] | [_] | [_, _] | [_, _, _] => simp [readUnit?] at h

theorem readEscape?_unit {digits : List Char} {unit : Nat}
    (h : readUnit? digits = some (unit, [])) (hunit : ¬(0xD800 ≤ unit ∧ unit ≤ 0xDFFF))
    (rest : List Char) :
    readEscape? ('u' :: (digits ++ rest)) = some (Char.ofNat unit, rest) := by
  rw [readEscape?, readUnit?_append h, Option.bind_some]
  simp only
  rw [if_neg (by omega), if_neg (by omega)]

theorem readEscape?_pair {digits digits' : List Char} {high low : Nat}
    (h : readUnit? digits = some (high, [])) (hhigh : 0xD800 ≤ high ∧ high ≤ 0xDBFF)
    (h' : readUnit? digits' = some (low, [])) (hlow : 0xDC00 ≤ low ∧ low ≤ 0xDFFF)
    (rest : List Char) :
    readEscape? ('u' :: (digits ++ '\\' :: 'u' :: (digits' ++ rest))) =
      some (Char.ofNat (0x10000 + (high - 0xD800) * 0x400 + (low - 0xDC00)), rest) := by
  rw [readEscape?, readUnit?_append h, Option.bind_some]
  simp only
  rw [if_pos hhigh, readLowSurrogate?, readUnit?_append h', Option.bind_some]
  simp only
  rw [if_pos hlow]

theorem readEscape?_short {c mark : Char} (h : ofShortEscape? mark = some c) (rest : List Char) :
    readEscape? (mark :: rest) = some (c, rest) := by
  have hmark : mark ≠ 'u' := by
    rintro rfl
    simp [ofShortEscape?] at h
  rw [readEscape?, h, Option.map_some]
  exact hmark

theorem readQuoted?_backslash {c : Char} {text rest : List Char}
    (h : readEscape? text = some (c, rest)) :
    readQuoted? ('\\' :: text) =
      (readQuoted? rest).map fun (contents, rest) => (c :: contents, rest) := by
  rw [readQuoted?]
  split
  · rename_i heq
    rw [h] at heq
    obtain ⟨rfl, rfl⟩ := Prod.mk.inj (Option.some.inj heq)
    rfl
  · rename_i heq
    rw [h] at heq
    simp at heq

theorem readQuoted?_escaped {c : Char} {s : List Char} (h : Escaped c s) (rest : List Char) :
    readQuoted? (s ++ rest) =
      (readQuoted? rest).map fun (contents, rest) => (c :: contents, rest) := by
  cases h with
  | plain hcontrol hquote hbackslash =>
      rw [List.singleton_append, readQuoted?.eq_def]
      split
      · simp_all
      · simp_all
      · simp_all
      · rename_i heq
        obtain ⟨rfl, rfl⟩ := List.cons.inj heq
        rw [if_neg (by omega)]
  | short hmark => exact readQuoted?_backslash (readEscape?_short hmark rest)
  | unit hread hunit => exact readQuoted?_backslash (readEscape?_unit hread hunit rest)
  | pair hread hhigh hread' hlow =>
      simp only [List.cons_append, List.append_assoc]
      exact readQuoted?_backslash (readEscape?_pair hread hhigh hread' hlow rest)

theorem readQuoted?_of_stringBody {contents body : List Char} (h : StringBody contents body)
    (rest : List Char) : readQuoted? (body ++ '"' :: rest) = some (contents, rest) := by
  induction h with
  | nil => rw [List.nil_append, readQuoted?]
  | cons hescaped _ ih => rw [List.append_assoc, readQuoted?_escaped hescaped, ih, Option.map_some]

theorem hexDigit?_digitChar : ∀ d < 16, hexDigit? (Nat.digitChar d) = some d := by decide

theorem readUnit?_code {code : Nat} (h : code < 0x100) :
    readUnit? ['0', '0', Nat.digitChar (code / 16), Nat.digitChar (code % 16)] =
      some (code, []) := by
  have hhigh := hexDigit?_digitChar (code / 16) (by omega)
  have hlow := hexDigit?_digitChar (code % 16) (by omega)
  have hzero : hexDigit? '0' = some 0 := by decide
  have hcode : code / 16 * 16 + code % 16 = code := by omega
  simp [readUnit?, hhigh, hlow, hzero, hcode]

theorem escaped_escape (c : Char) : Escaped c (escape c) := by
  unfold escape
  split
  · exact .short rfl
  · exact .short rfl
  · exact .short rfl
  · exact .short rfl
  · exact .short rfl
  · exact .short rfl
  · exact .short rfl
  · rename_i hquote hbackslash _ _ _ _ _
    split
    · rename_i hcontrol
      have hunit := Escaped.unit (readUnit?_code (by omega : c.toNat < 0x100)) (by omega)
      rwa [Char.ofNat_toNat] at hunit
    · exact .plain (by omega) hquote hbackslash

theorem stringBody_escape (contents : List Char) :
    StringBody contents (contents.flatMap escape) := by
  induction contents with
  | nil => exact .nil
  | cons c contents ih => exact .cons (escaped_escape c) ih

theorem stringText_quote (contents : String) : StringText contents (quote contents.toList) :=
  ⟨_, stringBody_escape contents.toList, rfl⟩

end TableQuery.Json
