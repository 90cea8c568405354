import TableQuery.Proofs.Dialect.Numerals

/-!
How far a number goes, counted in bytes. A scan of the bytes of a text passes a sign,
the digits after it, and a point only if a digit follows. It never stops inside a
character, since no byte of a character outside ASCII is taken for one of these. What
it has passed is the longest numeral in front of the text, except for a point at the
end of that, which makes no difference to the value.
-/

namespace TableQuery.Dialect

open Text

def isDigitByte (b : UInt8) : Bool :=
  '0'.toUInt8 ≤ b && b ≤ '9'.toUInt8

def countDigits (bytes : List UInt8) : Nat :=
  (bytes.takeWhile isDigitByte).length

def countFraction (bytes : List UInt8) : Nat :=
  if bytes.head? = some '.'.toUInt8 then countDigits (bytes.drop 1) else 0

structure Extent where
  stop : Nat
  digits : Nat
deriving DecidableEq, Repr

def scan (bytes : List UInt8) : Extent :=
  let sign := if bytes.head? = some '-'.toUInt8 then 1 else 0
  let whole := countDigits (bytes.drop sign)
  let fraction := countFraction (bytes.drop (sign + whole))
  ⟨sign + whole + if 0 < fraction then 1 + fraction else 0, whole + fraction⟩

/-! ### Bytes of characters -/

def bytes (text : List Char) : List UInt8 :=
  text.flatMap String.utf8EncodeChar

theorem toList_toByteArray (text : String) : text.toByteArray.data.toList = bytes text.toList := by
  conv => lhs; rw [← String.ofList_toList (s := text)]
  rw [String.toByteArray_ofList, List.utf8Encode, List.data_toByteArray, bytes]

section Bytes

variable {a c : Char} {s rest : List Char}

theorem toNat_toUInt8 (hc : c.toNat < 128) : c.toUInt8.toNat = c.toNat :=
  Nat.mod_eq_of_lt (show c.toNat < 256 by omega)

theorem utf8EncodeChar_of_lt (hc : c.toNat < 128) : String.utf8EncodeChar c = [c.toUInt8] :=
  if_pos (Nat.le_of_lt_succ hc)

theorem exists_lead_of_ge (hc : 128 ≤ c.toNat) :
    ∃ b tail, String.utf8EncodeChar c = b :: tail ∧ 128 ≤ b.toNat := by
  have hlead (n offset : Nat) (hoffset : 128 ≤ offset) (hsum : n + offset < 256) :
      128 ≤ (UInt8.ofNat (n + offset)).toNat := by
    rw [UInt8.toNat_ofNat', Nat.mod_eq_of_lt hsum]
    omega
  have hc' : ¬c.val.toNat ≤ 127 := Nat.not_le.mpr hc
  simp only [String.utf8EncodeChar, if_neg hc']
  split
  · exact ⟨_, _, rfl, hlead _ 192 (by omega) (by omega)⟩
  · split
    · exact ⟨_, _, rfl, hlead _ 224 (by omega) (by omega)⟩
    · exact ⟨_, _, rfl, hlead _ 240 (by omega) (by omega)⟩

/-- The first byte of a text tells which ASCII character stands there, if one does. -/
theorem bytes_cons (c : Char) (rest : List Char) :
    c.toNat < 128 ∧ bytes (c :: rest) = c.toUInt8 :: bytes rest ∨
      128 ≤ c.toNat ∧ ∃ b tail, bytes (c :: rest) = b :: tail ∧ 128 ≤ b.toNat := by
  rw [bytes, List.flatMap_cons]
  rcases Nat.lt_or_ge c.toNat 128 with hc | hc
  · rw [utf8EncodeChar_of_lt hc]
    exact .inl ⟨hc, rfl⟩
  · obtain ⟨b, tail, hencode, hb⟩ := exists_lead_of_ge hc
    rw [hencode]
    exact .inr ⟨hc, b, _, rfl, hb⟩

theorem drop_bytes_append (hs : ∀ c ∈ s, c.toNat < 128) (rest : List Char) :
    (bytes (s ++ rest)).drop s.length = bytes rest := by
  induction s with
  | nil => rfl
  | cons c s ih =>
      obtain ⟨hc, hs⟩ := List.forall_mem_cons.mp hs
      rcases bytes_cons c (s ++ rest) with ⟨-, hbytes⟩ | ⟨hlarge, -⟩
      · rw [List.cons_append, hbytes, List.length_cons, List.drop_succ_cons, ih hs]
      · omega

theorem head?_bytes_eq_some_iff (ha : a.toNat < 128) :
    (bytes s).head? = some a.toUInt8 ↔ s.head? = some a := by
  obtain _ | ⟨c, rest⟩ := s
  · simp [bytes]
  · rw [List.head?_cons, Option.some.injEq]
    rcases bytes_cons c rest with ⟨hc, hbytes⟩ | ⟨hc, b, tail, hbytes, hb⟩
    · rw [hbytes, List.head?_cons, Option.some.injEq, ← UInt8.toNat_inj, toNat_toUInt8 hc,
        toNat_toUInt8 ha, ← Char.toNat_inj]
    · rw [hbytes, List.head?_cons, Option.some.injEq, ← UInt8.toNat_inj, toNat_toUInt8 ha,
        ← Char.toNat_inj]
      omega

theorem isDigitByte_iff {b : UInt8} : isDigitByte b = true ↔ 48 ≤ b.toNat ∧ b.toNat ≤ 57 := by
  rw [isDigitByte, Bool.and_eq_true, decide_eq_true_eq, decide_eq_true_eq, UInt8.le_iff_toNat_le,
    UInt8.le_iff_toNat_le]
  rfl

theorem countDigits_bytes (s : List Char) :
    countDigits (bytes s) = (s.takeWhile Char.isDigit).length := by
  rw [countDigits]
  induction s with
  | nil => rfl
  | cons c s ih =>
      rcases bytes_cons c s with ⟨hc, hbytes⟩ | ⟨hc, b, tail, hbytes, hb⟩
      · have hdigit : isDigitByte c.toUInt8 = c.isDigit := by
          rw [Bool.eq_iff_iff, isDigitByte_iff, isDigit_iff, toNat_toUInt8 hc]
        rw [hbytes, List.takeWhile_cons, List.takeWhile_cons, hdigit]
        split
        · rw [List.length_cons, List.length_cons, ih]
        · rfl
      · have hbyte : ¬isDigitByte b = true := by
          rw [isDigitByte_iff]
          omega
        have hchar : ¬c.isDigit = true := by
          rw [isDigit_iff]
          omega
        rw [hbytes, List.takeWhile_cons_of_neg hbyte, List.takeWhile_cons_of_neg hchar]
        rfl

end Bytes

namespace Numeral

variable {numeral : Numeral} {s : List Char} {negative : Bool} {n : Binary64}

theorem toNat_lt_of_isDigit {c : Char} (hc : c.isDigit = true) : c.toNat < 128 := by
  have := isDigit_iff.mp hc
  omega

theorem utf8Size_of_startsNumber {c : Char} (hc : startsNumber c = true) : c.utf8Size = 1 := by
  rw [Char.utf8Size_eq_one_iff, UInt32.le_iff_toNat_le]
  simp only [startsNumber, Bool.or_eq_true, decide_eq_true_eq] at hc
  rcases hc with (hc | rfl) | rfl
  · exact Nat.le_of_lt_succ (toNat_lt_of_isDigit hc)
  · decide
  · decide

theorem getD_filter_isEmpty (fraction : Option (List Char)) :
    (fraction.filter (!·.isEmpty)).getD [] = fraction.getD [] := by
  obtain _ | _ | ⟨d, fraction⟩ := fraction <;> rfl

theorem toNat_lt_of_mem_signText {c : Char} (hc : c ∈ signText negative) : c.toNat < 128 := by
  cases negative with
  | false => simp [signText] at hc
  | true =>
      obtain rfl := List.mem_singleton.mp hc
      decide

theorem countFraction_bytes (s : List Char) :
    countFraction (bytes (s.dropWhile Char.isDigit)) = ((fraction? s).getD []).length := by
  simp only [countFraction, head?_bytes_eq_some_iff (show ('.' : Char).toNat < 128 by decide)]
  rw [fraction?]
  split
  · rename_i hhead
    obtain ⟨rest, hrest⟩ := List.head?_eq_some_iff.mp hhead
    have hpoint : ∀ c ∈ ['.'], c.toNat < 128 := List.forall_mem_singleton.mpr (by decide)
    have hskip : (bytes ('.' :: rest)).drop 1 = bytes rest := drop_bytes_append hpoint rest
    rw [hrest, hskip, countDigits_bytes]
    rfl
  · rename_i hhead
    split
    · rename_i rest hrest
      exact absurd (by rw [hrest]; rfl) hhead
    · rfl

theorem scan_bytes (hs : negative = false → s.head? ≠ some '-') :
    scan (bytes (signText negative ++ s)) =
      let point := (signText negative).length + (s.takeWhile Char.isDigit).length
      let fraction := ((fraction? s).getD []).length
      ⟨point + if 0 < fraction then 1 + fraction else 0,
        (s.takeWhile Char.isDigit).length + fraction⟩ := by
  have hsign : (if (bytes (signText negative ++ s)).head? = some '-'.toUInt8 then 1 else 0) =
      (signText negative).length := by
    simp only [head?_bytes_eq_some_iff (show ('-' : Char).toNat < 128 by decide)]
    cases negative with
    | true => rfl
    | false => exact if_neg (hs rfl)
  have hdrop : (bytes (signText negative ++ s)).drop (signText negative).length = bytes s :=
    drop_bytes_append (fun _ => toNat_lt_of_mem_signText) s
  have hpoint : (bytes s).drop (s.takeWhile Char.isDigit).length =
      bytes (s.dropWhile Char.isDigit) := by
    have h := drop_bytes_append
      (fun c hc => toNat_lt_of_isDigit (all_takeWhile Char.isDigit s c hc))
      (s.dropWhile Char.isDigit)
    rwa [List.takeWhile_append_dropWhile] at h
  simp only [scan, hsign, ← List.drop_drop, hdrop, countDigits_bytes, hpoint, countFraction_bytes]

/-- The numeral without a point that no digit follows. -/
def bare (numeral : Numeral) : Numeral where
  negative := numeral.negative
  whole := numeral.whole
  fraction := numeral.fraction.filter (!·.isEmpty)
  isDigit_digits := by
    rw [getD_filter_isEmpty]
    exact numeral.isDigit_digits
  digits_ne_nil := by
    rw [getD_filter_isEmpty]
    exact numeral.digits_ne_nil

theorem toBinary64_bare (numeral : Numeral) : numeral.bare.toBinary64 = numeral.toBinary64 := by
  simp only [toBinary64, digits, places, bare, getD_filter_isEmpty]

theorem text_bare_prefix (numeral : Numeral) : numeral.bare.text <+: numeral.text := by
  obtain ⟨negative, whole, _ | _ | ⟨d, fraction⟩, _, _⟩ := numeral
  · exact List.prefix_rfl
  · refine (List.prefix_append_right_inj _).mpr ((List.prefix_append_right_inj _).mpr ?_)
    exact List.nil_prefix
  · exact List.prefix_rfl

theorem length_text_bare (numeral : Numeral) :
    numeral.bare.text.length = (signText numeral.negative).length + numeral.whole.length +
      if 0 < (numeral.fraction.getD []).length then 1 + (numeral.fraction.getD []).length
      else 0 := by
  obtain ⟨negative, whole, _ | _ | ⟨d, fraction⟩, _, _⟩ := numeral
  · simp [text, unsignedText, bare]
  · simp [text, unsignedText, bare, Option.filter]
  · have hdigits : 0 < (d :: fraction).length := Nat.succ_pos _
    rw [Option.getD_some, if_pos hdigits]
    change (signText negative ++ (whole ++ '.' :: d :: fraction)).length = _
    rw [List.length_append, List.length_append, List.length_cons, Nat.add_assoc, Nat.add_comm 1]

theorem exists_leading?_eq (s : List Char) :
    ∃ negative t, s = signText negative ++ t ∧ (negative = false → t.head? ≠ some '-') ∧
      leading? s = leadingUnsigned? negative t := by
  by_cases h : s.head? = some '-'
  · obtain ⟨t, rfl⟩ := List.head?_eq_some_iff.mp h
    exact ⟨true, t, rfl, by simp, rfl⟩
  · refine ⟨false, s, rfl, fun _ => h, ?_⟩
    obtain _ | ⟨c, rest⟩ := s
    · rfl
    · exact leading?_of_ne_minus (by simpa using h)

theorem digits_scan_of_none (h : leading? s = none) : (scan (bytes s)).digits = 0 := by
  obtain ⟨negative, t, rfl, hsign, hleading⟩ := exists_leading?_eq s
  rw [hleading, leadingUnsigned?] at h
  split at h
  · rename_i hnil
    rw [scan_bytes hsign]
    simpa [← List.length_eq_zero_iff] using hnil
  · simp at h

theorem scan_of_some (h : leading? s = some numeral) :
    scan (bytes s) = ⟨numeral.bare.text.length, numeral.digits.length⟩ := by
  obtain ⟨negative, t, rfl, hsign, hleading⟩ := exists_leading?_eq s
  rw [hleading, leadingUnsigned?] at h
  split at h
  · simp at h
  · obtain rfl := Option.some.inj h
    rw [scan_bytes hsign, length_text_bare, digits, List.length_append]

/-- The value of a text that is a numeral from its beginning to its end. -/
def decimal? (text : List Char) : Option Binary64 :=
  (leading? text).bind fun numeral => if numeral.text = text then some numeral.toBinary64 else none

theorem decimal?_eq_some_iff :
    decimal? s = some n ↔ ∃ numeral : Numeral, numeral.text = s ∧ numeral.Denotes n := by
  simp only [decimal?, Option.bind_eq_some_iff, Option.ite_none_right_eq_some, Option.some.injEq,
    denotes_iff]
  constructor
  · rintro ⟨numeral, -, htext, rfl⟩
    exact ⟨numeral, htext, rfl⟩
  · rintro ⟨numeral, rfl, rfl⟩
    have hlongest : numeral.IsLongest numeral.text :=
      ⟨List.prefix_rfl, fun _ hfront => hfront.length_le⟩
    exact ⟨numeral, leading?_eq_some_iff.mpr hlongest, rfl, rfl⟩

theorem byteLength_text (numeral : Numeral) : byteLength numeral.text = numeral.text.length := by
  have hbyte {s : List Char} (hs : ∀ c ∈ s, startsNumber c = true) : byteLength s = s.length := by
    induction s with
    | nil => rfl
    | cons c s ih =>
        obtain ⟨hc, hs⟩ := List.forall_mem_cons.mp hs
        rw [byteLength, ih hs, utf8Size_of_startsNumber hc, List.length_cons, Nat.add_comm]
  exact hbyte fun c => startsNumber_of_mem_text

/-- The scan stops at the end of a numeral, which has the value of the longest one. -/
theorem exists_slice_of_leading? (h : leading? s = some numeral) :
    ∃ slice rest, s = slice ++ rest ∧ byteLength slice = (scan (bytes s)).stop ∧
      decimal? slice = some numeral.toBinary64 := by
  obtain ⟨rest, hrest⟩ := numeral.text_bare_prefix.trans (prefix_of_leading? h)
  refine ⟨numeral.bare.text, rest, hrest.symm, ?_, ?_⟩
  · rw [scan_of_some h, byteLength_text]
  · rw [decimal?_eq_some_iff]
    exact ⟨numeral.bare, rfl, denotes_iff.mpr numeral.toBinary64_bare.symm⟩

end Numeral

/-- A text has a numeric value just in case its numeric characters begin with a
numeral, and it is the number nearest to the longest one. The scan of its bytes finds
no digit if there is no value, and otherwise stops between two characters, behind a
numeral that has this value. -/
theorem numericPrefix?_of_longest_numeral (text : String) :
    let run := text.toList.takeWhile startsNumber
    let value? := numericPrefix? text.toList
    let extent := scan text.toByteArray.data.toList
    (value? = none ↔ ∀ numeral : Numeral, ¬numeral.text <+: run) ∧
    (∀ n, value? = some n ↔ ∃ numeral : Numeral, numeral.IsLongest run ∧ numeral.Denotes n) ∧
    value? ≠ some .nan ∧
    (extent.digits = 0 ∧ value? = none ∨
      extent.digits ≠ 0 ∧ ∃ slice rest n, text = slice ++ rest ∧
        slice.utf8ByteSize = extent.stop ∧ Numeral.decimal? slice.toList = some n ∧
        value? = some n) := by
  intro run value? extent
  have hvalue : value? = (Numeral.leading? run).map Numeral.toBinary64 := by
    rw [Numeral.leading?_takeWhile]
    exact numericPrefix?_eq_map_leading? text.toList
  refine ⟨?_, fun n => ?_, fun h => ne_nan_of_numericPrefix? h rfl, ?_⟩
  · rw [hvalue, Option.map_eq_none_iff, Numeral.leading?_eq_none_iff]
  · simp only [hvalue, Option.map_eq_some_iff, Numeral.leading?_eq_some_iff, Numeral.denotes_iff,
      eq_comm (a := n)]
  · rw [Numeral.leading?_takeWhile] at hvalue
    have hextent : extent = scan (bytes text.toList) := by rw [← toList_toByteArray]
    cases hleading : Numeral.leading? text.toList with
    | none =>
        left
        rw [hvalue, hleading, hextent]
        exact ⟨Numeral.digits_scan_of_none hleading, rfl⟩
    | some numeral =>
        right
        obtain ⟨slice, rest, htext, hstop, hslice⟩ := Numeral.exists_slice_of_leading? hleading
        constructor
        · rw [hextent, Numeral.scan_of_some hleading]
          exact List.length_eq_zero_iff.not.mpr numeral.digits_ne_nil
        · refine ⟨.ofList slice, .ofList rest, numeral.toBinary64, ?_, ?_, ?_, ?_⟩
          · rw [← String.ofList_append, ← htext, String.ofList_toList]
          · rw [← byteLength_toList, String.toList_ofList, hstop, hextent]
          · rwa [String.toList_ofList]
          · rw [hvalue, hleading, Option.map_some]

example : scan "-7.\u00e9".toByteArray.data.toList = ⟨2, 1⟩ := by decide +kernel

end TableQuery.Dialect
