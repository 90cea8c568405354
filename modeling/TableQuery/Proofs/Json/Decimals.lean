import TableQuery.Proofs.Binary64.Scaling
import TableQuery.Proofs.Json.Printing

/-!
What the digits of a printed number say. The text of a number writes a decimal, and an
exact reader takes the nearest number to it. Every finite number is printed as a decimal
that is nearest to it, so an exact reader finds it again. The reader of documents takes
the same digits but scales them in floating point: it never fails on a printed number,
but it finds the number itself only if its digits and their point are close together.
-/

namespace TableQuery

namespace Json

open Text (Stops stops_nil)

variable {text tail rest digits : List Char} {d : Decimal}

/-- The decimal that a text without a sign writes. -/
def readDecimal? (text : List Char) : Option (Decimal × List Char) := do
  let (whole, text) ← readWhole? text
  let (fraction, text) ← readFraction? text
  let (exponent, text) ← readExponent? text
  some (⟨Nat.ofDigitChars 10 (whole ++ fraction) 0, exponent - fraction.length⟩, text)

/-- Reads a number to the one that is nearest to what is written. -/
def readNearest? : List Char → Option (Binary64 × List Char)
  | '-' :: rest => (readDecimal? rest).map fun (d, rest) =>
    (Binary64.ofDecimal true d.coefficient d.exponent, rest)
  | text => (readDecimal? text).map fun (d, rest) =>
    (Binary64.ofDecimal false d.coefficient d.exponent, rest)

theorem readDecimal?_eq_some :
    readDecimal? text = some (d, tail) ↔
      ∃ whole s fraction t exponent, readWhole? text = some (whole, s) ∧
        readFraction? s = some (fraction, t) ∧ readExponent? t = some (exponent, tail) ∧
        d = ⟨Nat.ofDigitChars 10 (whole ++ fraction) 0, exponent - fraction.length⟩ := by
  simp only [readDecimal?, Option.bind_eq_bind, Option.bind_eq_some_iff, Prod.exists,
    Option.some.injEq, Prod.mk.injEq]
  constructor
  · rintro ⟨whole, s, hwhole, fraction, t, hfraction, exponent, u, hexponent, rfl, rfl⟩
    exact ⟨whole, s, fraction, t, exponent, hwhole, hfraction, hexponent, rfl⟩
  · rintro ⟨whole, s, fraction, t, exponent, hwhole, hfraction, hexponent, rfl⟩
    exact ⟨whole, s, hwhole, fraction, t, hfraction, exponent, tail, hexponent, rfl, rfl⟩

theorem readDecimal?_append (h : readDecimal? text = some (d, tail))
    (hrest : Stops isNumeral rest) : readDecimal? (text ++ rest) = some (d, tail ++ rest) := by
  obtain ⟨whole, s, fraction, t, exponent, hwhole, hfraction, hexponent, hd⟩ :=
    readDecimal?_eq_some.mp h
  exact readDecimal?_eq_some.mpr ⟨whole, s ++ rest, fraction, t ++ rest, exponent,
    readWhole?_append hwhole hrest, readFraction?_append hfraction hrest,
    readExponent?_append hexponent hrest, hd⟩

theorem readDecimal?_minus (rest : List Char) : readDecimal? ('-' :: rest) = none := by
  simp [readDecimal?, readWhole?, readDigits?]

/-- As long as all digits fit into sixty-four bits, the reader of documents scales the
decimal that is written. -/
theorem readMagnitude?_of_readDecimal? {negative : Bool}
    (h : readDecimal? text = some (d, tail)) (hdigits : d.coefficient < 2 ^ 64)
    (hfinite : (Binary64.ofScaled negative d.coefficient d.exponent).isFinite = true) :
    readMagnitude? negative text =
      some (Binary64.ofScaled negative d.coefficient d.exponent, tail) := by
  obtain ⟨whole, s, fraction, t, exponent, hwhole, hfraction, hexponent, rfl⟩ :=
    readDecimal?_eq_some.mp h
  dsimp only at hdigits hfinite ⊢
  have hnumber : ofDigits negative whole fraction exponent =
      Binary64.ofScaled negative (Nat.ofDigitChars 10 (whole ++ fraction) 0)
        (exponent - fraction.length) := by
    rw [Nat.ofDigitChars_append] at hdigits ⊢
    have hle : Nat.ofDigitChars 10 whole 0 < 2 ^ 64 := by
      rw [Nat.ofDigitChars_eq_ofDigitChars_zero] at hdigits
      have hfactor := Nat.le_mul_of_pos_left (Nat.ofDigitChars 10 whole 0)
        (Nat.pow_pos (n := fraction.length) (show 0 < 10 by decide))
      omega
    have hexponent : exponent + ([] : List Char).length + ([] : List Char).length -
        fraction.length = exponent - fraction.length := by simp
    simp only [ofDigits, takeDigits_of_lt hle, takeDigits_of_lt hdigits, hexponent]
  exact readMagnitude?_eq_some.mpr ⟨whole, s, fraction, t, exponent, hwhole, hfraction, hexponent,
    hnumber, hfinite⟩

def signed (negative : Bool) (text : List Char) : List Char :=
  (if negative then ['-'] else []) ++ text

theorem readNearest?_signed (negative : Bool) (h : readDecimal? text = some (d, tail)) :
    readNearest? (signed negative text) =
      some (Binary64.ofDecimal negative d.coefficient d.exponent, tail) := by
  cases negative with
  | true => simp [signed, readNearest?, h]
  | false =>
      rw [signed, if_neg (by decide), List.nil_append, readNearest?, h, Option.map_some]
      rintro rest rfl
      rw [readDecimal?_minus] at h
      simp at h

theorem readNumber?_signed (negative : Bool) (h : readDecimal? text = some (d, tail))
    (hdigits : d.coefficient < 2 ^ 64)
    (hfinite : (Binary64.ofScaled negative d.coefficient d.exponent).isFinite = true) :
    readNumber? (signed negative text) =
      some (Binary64.ofScaled negative d.coefficient d.exponent, tail) := by
  have hread := readMagnitude?_of_readDecimal? h hdigits hfinite
  cases negative with
  | true => simpa [signed, readNumber?] using hread
  | false =>
      rw [signed, if_neg (by decide), List.nil_append, readNumber?]
      · exact hread
      · rintro rest rfl
        rw [readDecimal?_minus] at h
        simp at h

/-! ### Printed decimals -/

theorem readDigits?_of_digits (hne : digits ≠ []) (hdigits : ∀ c ∈ digits, c.isDigit = true)
    (hrest : Stops Char.isDigit rest) : readDigits? (digits ++ rest) = some (digits, rest) :=
  readDigits?_eq_some.mpr
    ⟨hne, Text.takeWhile_append hdigits hrest, Text.dropWhile_append hdigits hrest⟩

theorem readWhole?_of_digits (hne : digits ≠ []) (hzero : ∀ s, digits ≠ '0' :: s)
    (hdigits : ∀ c ∈ digits, c.isDigit = true) (hrest : Stops Char.isDigit rest) :
    readWhole? (digits ++ rest) = some (digits, rest) := by
  rw [readWhole?]
  · exact readDigits?_of_digits hne hdigits hrest
  · intro s heq
    cases digits with
    | nil => exact hne rfl
    | cons c digits =>
        rw [List.cons_append] at heq
        exact hzero digits (by rw [(List.cons.inj heq).1])

theorem readFraction?_of_digits (hne : digits ≠ []) (hdigits : ∀ c ∈ digits, c.isDigit = true)
    (hrest : Stops Char.isDigit rest) :
    readFraction? ('.' :: (digits ++ rest)) = some (digits, rest) :=
  readDigits?_of_digits hne hdigits hrest

theorem isDigit_of_mem_digits {c : Char} (h : c ∈ d.digits) : c.isDigit = true :=
  Nat.isDigit_of_mem_toDigits (by decide) (by decide) h

theorem digits_length_pos (d : Decimal) : 0 < d.digits.length :=
  List.length_pos_iff.mpr Nat.toDigits_ne_nil

theorem readWhole?_take {n : Nat} (hd : d.coefficient ≠ 0) (hn : 0 < n)
    (hrest : Stops Char.isDigit rest) :
    readWhole? (d.digits.take n ++ rest) = some (d.digits.take n, rest) := by
  have hlength := digits_length_pos d
  refine readWhole?_of_digits ?_ ?_ (fun c hc => isDigit_of_mem_digits (List.mem_of_mem_take hc))
    hrest
  · rw [← List.length_pos_iff, List.length_take]
    omega
  · intro s heq
    refine toDigits_ne_zero_cons (Nat.pos_of_ne_zero hd) (s ++ d.digits.drop n) ?_
    rw [← List.cons_append, ← heq, List.take_append_drop]
    rfl

theorem readExponent?_sign (e : Int) :
    readExponent? ('e' :: (if 0 ≤ e then '+' else '-') :: Nat.toDigits 10 e.natAbs) =
      some (e, []) := by
  by_cases h : 0 ≤ e
  · rw [if_pos h]
    simp only [readExponent?, readDigits?_toDigits, Option.map_some, Nat.ofDigitChars_ten_toDigits,
      Int.natAbs_of_nonneg h, true_or, if_true]
  · have hneg : -(e.natAbs : Int) = e := by omega
    rw [if_neg h]
    simp only [readExponent?, readDigits?_toDigits, Option.map_some, Nat.ofDigitChars_ten_toDigits,
      hneg, true_or, if_true]

theorem readFraction?_scientific (hdigits : ∀ c ∈ digits, c.isDigit = true)
    (exponent : List Char) :
    readFraction? ((if digits.isEmpty then [] else '.' :: digits) ++ 'e' :: exponent) =
      some (digits, 'e' :: exponent) := by
  cases digits with
  | nil => rfl
  | cons c digits => exact readFraction?_of_digits (List.cons_ne_nil c digits) hdigits rfl

theorem readDecimal?_scientific (hd : d.coefficient ≠ 0) :
    readDecimal? d.scientific = some (d, []) := by
  have hlength := digits_length_pos d
  have hfraction : ∀ c ∈ d.digits.drop 1, c.isDigit = true :=
    fun c hc => isDigit_of_mem_digits (List.mem_of_mem_drop hc)
  have hvalue : Nat.ofDigitChars 10 (d.digits.take 1 ++ d.digits.drop 1) 0 = d.coefficient := by
    rw [List.take_append_drop]
    exact Nat.ofDigitChars_ten_toDigits
  have hexponent : d.point - 1 - (d.digits.drop 1).length = d.exponent := by
    rw [List.length_drop, Decimal.point]
    omega
  refine readDecimal?_eq_some.mpr ⟨d.digits.take 1, _, d.digits.drop 1, _, d.point - 1, ?_,
    readFraction?_scientific hfraction _, readExponent?_sign _, ?_⟩
  · rw [Decimal.scientific, List.append_assoc]
    refine readWhole?_take hd Nat.one_pos ?_
    split
    · rfl
    · rfl
  · rw [hvalue, hexponent]

/-- The decimal with the zeros before its point written out. -/
def expanded (d : Decimal) : Decimal :=
  if 0 ≤ d.exponent then ⟨d.coefficient * 10 ^ d.exponent.toNat, 0⟩ else d

theorem ofDigitChars_digits (d : Decimal) : Nat.ofDigitChars 10 d.digits 0 = d.coefficient :=
  Nat.ofDigitChars_ten_toDigits

theorem readDecimal?_trailing (hd : d.coefficient ≠ 0) (zeros : Nat) :
    readDecimal? (d.digits ++ List.replicate zeros '0') =
      some (⟨d.coefficient * 10 ^ zeros, 0⟩, []) := by
  have hdigits : ∀ c ∈ d.digits ++ List.replicate zeros '0', c.isDigit = true := by
    intro c hc
    rcases List.mem_append.mp hc with hc | hc
    · exact isDigit_of_mem_digits hc
    · rw [List.eq_of_mem_replicate hc]
      rfl
  have hzero : ∀ s, d.digits ++ List.replicate zeros '0' ≠ '0' :: s := by
    intro s heq
    cases hfirst : d.digits with
    | nil => exact Nat.toDigits_ne_nil hfirst
    | cons c digits =>
        rw [hfirst, List.cons_append] at heq
        obtain ⟨rfl, -⟩ := List.cons.inj heq
        exact toDigits_ne_zero_cons (Nat.pos_of_ne_zero hd) digits hfirst
  have hwhole := readWhole?_of_digits (by simp [Decimal.digits, Nat.toDigits_ne_nil]) hzero hdigits
    stops_nil
  rw [List.append_nil] at hwhole
  refine readDecimal?_eq_some.mpr ⟨_, [], [], [], 0, hwhole, rfl, rfl, ?_⟩
  rw [List.append_nil, Nat.ofDigitChars_append, Nat.ofDigitChars_replicate_zero,
    ofDigitChars_digits, Nat.mul_comm]
  rfl

theorem readDecimal?_split (hd : d.coefficient ≠ 0) {n : Nat} (hn : 0 < n)
    (hlt : n < d.digits.length) :
    readDecimal? (d.digits.take n ++ '.' :: d.digits.drop n) =
      some (⟨d.coefficient, n - d.digits.length⟩, []) := by
  have hdrop : d.digits.drop n ≠ [] := by
    rw [← List.length_pos_iff, List.length_drop]
    omega
  have hfraction := readFraction?_of_digits hdrop
    (fun c hc => isDigit_of_mem_digits (List.mem_of_mem_drop hc)) stops_nil
  rw [List.append_nil] at hfraction
  refine readDecimal?_eq_some.mpr ⟨d.digits.take n, _, d.digits.drop n, [], 0,
    readWhole?_take hd hn rfl, hfraction, rfl, ?_⟩
  have hexponent : (0 : Int) - (d.digits.drop n).length = n - d.digits.length := by
    rw [List.length_drop]
    omega
  rw [List.take_append_drop, ofDigitChars_digits, hexponent]

theorem readDecimal?_leading (d : Decimal) (zeros : Nat) :
    readDecimal? ('0' :: '.' :: (List.replicate zeros '0' ++ d.digits)) =
      some (⟨d.coefficient, -(zeros + d.digits.length : Nat)⟩, []) := by
  have hdigits : ∀ c ∈ List.replicate zeros '0' ++ d.digits, c.isDigit = true := by
    intro c hc
    rcases List.mem_append.mp hc with hc | hc
    · rw [List.eq_of_mem_replicate hc]
      rfl
    · exact isDigit_of_mem_digits hc
  have hfraction := readFraction?_of_digits (by simp [Decimal.digits, Nat.toDigits_ne_nil]) hdigits
    stops_nil
  rw [List.append_nil] at hfraction
  refine readDecimal?_eq_some.mpr ⟨['0'], _, _, [], 0, rfl, hfraction, rfl, ?_⟩
  rw [List.singleton_append, Nat.ofDigitChars_cons, Nat.ofDigitChars_append,
    Nat.ofDigitChars_replicate_zero, List.length_append, List.length_replicate, Int.zero_sub]
  rw [← ofDigitChars_digits d]
  rfl

theorem readDecimal?_positional (hd : d.coefficient ≠ 0) :
    readDecimal? d.positional = some (expanded d, []) := by
  have hlength : d.point = d.digits.length + d.exponent := rfl
  rw [Decimal.positional, expanded]
  split
  · exact readDecimal?_trailing hd d.exponent.toNat
  · split
    · rename_i hpoint
      have hexponent : (d.point.toNat : Int) - d.digits.length = d.exponent := by omega
      rw [readDecimal?_split hd (by omega) (by omega), hexponent]
    · have hexponent : -(((-d.point).toNat + d.digits.length : Nat) : Int) = d.exponent := by omega
      rw [readDecimal?_leading, hexponent]

def written (d : Decimal) : Decimal :=
  if -5 < d.point ∧ d.point ≤ 16 then expanded d else d

theorem readDecimal?_decimalText (hd : d.coefficient ≠ 0) :
    readDecimal? (decimalText d) = some (written d, []) := by
  rw [decimalText, written]
  split
  · exact readDecimal?_positional hd
  · exact readDecimal?_scientific hd

theorem written_cases (hd : d.coefficient ≠ 0) :
    written d = d ∨ ∃ n : Nat, d.exponent = n ∧ written d = ⟨d.coefficient * 10 ^ n, 0⟩ ∧
      d.coefficient * 10 ^ n < 2 ^ 64 := by
  rw [written, expanded]
  split
  · rename_i hpoint
    split
    · rename_i hexponent
      refine .inr ⟨d.exponent.toNat, by omega, rfl, ?_⟩
      have hlength : d.point = (Nat.toDigits 10 d.coefficient).length + d.exponent := rfl
      calc
        d.coefficient * 10 ^ d.exponent.toNat
            < 10 ^ (Nat.toDigits 10 d.coefficient).length * 10 ^ d.exponent.toNat :=
          Nat.mul_lt_mul_of_pos_right (Binary64.toDigits_bounds hd).2 (Nat.pow_pos (by decide))
        _ = 10 ^ ((Nat.toDigits 10 d.coefficient).length + d.exponent.toNat) :=
          (Nat.pow_add ..).symm
        _ ≤ 10 ^ 16 := Nat.pow_le_pow_right (by decide) (by omega)
        _ < 2 ^ 64 := by decide
    · exact .inl rfl
  · exact .inl rfl

theorem ofDecimal_written (negative : Bool) (hd : d.coefficient ≠ 0) :
    Binary64.ofDecimal negative (written d).coefficient (written d).exponent =
      Binary64.ofDecimal negative d.coefficient d.exponent := by
  rcases written_cases hd with hsame | ⟨n, hexponent, hwhole, -⟩
  · rw [hsame]
  · rw [hwhole, Binary64.ofDecimal_eq_ofQuotient, Binary64.ofDecimal_eq_ofQuotient, hexponent]
    simp

/-! ### Printed numbers -/

open Binary64 (shortest)

variable {x : Binary64} {negative : Bool} {code : Fin (infinityCode + 1)}

theorem shortestText_signed (h : code.val < infinityCode) :
    shortestText (.signed negative code) =
      signed negative (decimalText (shortest .toEven code)) := by
  rw [shortestText, if_pos h, signed]

theorem code_ne_zero_of_not_integer (h : ¬(Binary64.signed negative code).HasIntegerText) :
    code.val ≠ 0 :=
  fun hcode => h ⟨0, Binary64.toInt?_of_code_zero negative hcode, by decide⟩

/-- What is needed of a text to read a number off it, exactly or not. -/
structure Writes (x : Binary64) (negative : Bool) (text : List Char) (d : Decimal) : Prop where
  reads : readDecimal? text = some (d, [])
  digits : d.coefficient < 2 ^ 64
  nearest : Binary64.ofDecimal negative d.coefficient d.exponent = x
  finite : (Binary64.ofScaled negative d.coefficient d.exponent).isFinite = true

theorem writes_integer {n : Int} (h : n.natAbs < 2 ^ 64) :
    Writes (.ofInt n) (n < 0) (Nat.toDigits 10 n.natAbs) ⟨n.natAbs, 0⟩ where
  reads := by
    refine readDecimal?_eq_some.mpr ⟨_, [], [], [], 0, readWhole?_toDigits _, rfl, rfl, ?_⟩
    rw [List.append_nil, Nat.ofDigitChars_ten_toDigits]
    rfl
  digits := h
  nearest := by
    rw [Binary64.ofDecimal_eq_ofQuotient, Binary64.ofInt]
    simp
  finite := Binary64.isFinite_ofScaled_of_nonpos _ h (Int.le_refl 0)

theorem writes_shortest (hfinite : code.val < infinityCode) (hcode : code.val ≠ 0) :
    Writes (.signed negative code) negative (decimalText (shortest .toEven code))
      (written (shortest .toEven code)) := by
  have hd := Binary64.shortest_coefficient_ne_zero .toEven hcode
  have hdigits := Binary64.shortest_coefficient_le .toEven code.val
  refine ⟨readDecimal?_decimalText hd, ?_, ?_, ?_⟩
  · rcases written_cases hd with hsame | ⟨n, -, hwhole, hlt⟩
    · rw [hsame]
      exact hdigits.trans_lt (by decide)
    · rwa [hwhole]
  · rw [ofDecimal_written _ hd, Binary64.ofDecimal_shortest .toEven negative hfinite]
  · rcases written_cases hd with hsame | ⟨n, -, hwhole, hlt⟩
    · rw [hsame]
      exact Binary64.isFinite_ofScaled_shortest .toEven negative hfinite
    · rw [hwhole]
      exact Binary64.isFinite_ofScaled_of_nonpos negative hlt (Int.le_refl 0)

/-- Every finite number is printed as a decimal that is nearest to it, apart from the sign of
zero. -/
theorem exists_writes (h : x.isFinite = true) :
    ∃ negative text d, numberText x = signed negative text ∧
      Writes x.mergeZeros negative text d := by
  by_cases hinteger : x.HasIntegerText
  · obtain ⟨n, hx, hn⟩ := hinteger
    refine ⟨n < 0, Nat.toDigits 10 n.natAbs, ⟨n.natAbs, 0⟩, ?_, ?_⟩
    · rw [numberText_of_integer hx hn, integerText, signed]
      simp
    · rw [← Binary64.ofInt_of_toInt? hx]
      exact writes_integer (by omega)
  · cases x with
    | nan => exact absurd h (by decide)
    | signed negative code =>
        have hcode := code_ne_zero_of_not_integer hinteger
        have hfinite := (Binary64.isFinite_signed negative).mp h
        rw [numberText_of_not_integer hinteger, shortestText_signed hfinite,
          mergeZeros_of_not_integer hinteger]
        exact ⟨negative, _, _, rfl, writes_shortest hfinite hcode⟩

/-- An exact reader finds every finite number, apart from the sign of zero. -/
theorem readNearest?_numberText (h : x.isFinite = true) (hrest : Stops isNumeral rest) :
    readNearest? (numberText x ++ rest) = some (x.mergeZeros, rest) := by
  obtain ⟨negative, text, d, htext, hwrites⟩ := exists_writes h
  have hread := readNearest?_signed negative (readDecimal?_append hwrites.reads hrest)
  rw [hwrites.nearest] at hread
  rw [htext]
  simpa [signed] using hread

theorem exists_readNumber?_numberText (h : x.isFinite = true) :
    ∃ y : Binary64, y.isFinite = true ∧ readNumber? (numberText x) = some (y, []) := by
  obtain ⟨negative, text, d, htext, hwrites⟩ := exists_writes h
  rw [htext]
  exact ⟨_, hwrites.finite, readNumber?_signed negative hwrites.reads hwrites.digits hwrites.finite⟩

end Json

namespace Binary64

/-- The shortest digits of the number form a whole number below 2⁵³, and the point is
at most 22 places away from the last of them. -/
def HasFewDigits : Binary64 → Prop
  | nan => False
  | signed _ code => (shortest .toEven code).coefficient < 2 ^ 53 ∧
    (shortest .toEven code).exponent.natAbs ≤ 22

open Json (written) in
/-- Few digits are scaled back to their number. -/
theorem HasFewDigits.readsBack {x : Binary64} (h : x.HasFewDigits) : x.ReadsBack := by
  intro hfinite hinteger
  cases x with
  | nan => exact h.elim
  | signed negative code =>
      obtain ⟨hcoefficient, hexponent⟩ := h
      have hcode := Json.code_ne_zero_of_not_integer hinteger
      have hfinite := (isFinite_signed negative).mp hfinite
      have hwrites : Json.Writes (signed negative code) _ _ _ := Json.writes_shortest hfinite hcode
      have hread := Json.readNumber?_signed negative hwrites.reads hwrites.digits hwrites.finite
      have hscaled : ofScaled negative (written (shortest .toEven code)).coefficient
          (written (shortest .toEven code)).exponent = signed negative code := by
        rw [← hwrites.nearest]
        rcases Json.written_cases (shortest_coefficient_ne_zero .toEven hcode) with
          hsame | ⟨n, -, hwhole, -⟩
        · rw [hsame, ofScaled_eq_ofDecimal negative hcoefficient hexponent]
        · rw [hwhole, ofScaled_zero]
      rw [Json.shortestText_signed hfinite, hread, hscaled]

end Binary64

end TableQuery
