import TableQuery.Json.Number
import TableQuery.Proofs.Binary64.Nearest
import TableQuery.Proofs.Text.Runs

/-!
The texts of numbers in documents. A number ends where no character follows that
could go on with it, so what is read off a text alone is also read off it in
front of such a rest. Integers of at most sixty-four bits keep all their digits,
so they are rounded once, to the nearest number.
-/

namespace TableQuery.Json

open Text (Stops stops_nil takeWhile_append_of_stops dropWhile_append_of_stops)

/-- The characters that a complete number can go on with. -/
def isNumeral (c : Char) : Bool :=
  c.isDigit || c = '.' || c = 'e' || c = 'E'

section Append

variable {text tail rest digits : List Char}

theorem stops_isDigit (h : Stops isNumeral rest) : Stops Char.isDigit rest := by
  cases rest with
  | nil => trivial
  | cons c rest =>
      rw [Text.stops_cons, isNumeral] at h
      simp_all

theorem readDigits?_eq_some :
    readDigits? text = some (digits, tail) ↔
      digits ≠ [] ∧ text.takeWhile Char.isDigit = digits ∧ text.dropWhile Char.isDigit = tail := by
  unfold readDigits?
  split
  · rename_i h
    simp only [h, reduceCtorEq, false_iff]
    rintro ⟨hne, rfl, -⟩
    exact hne rfl
  · rename_i h
    simp only [Option.some.injEq, Prod.mk.injEq]
    constructor
    · rintro ⟨rfl, rfl⟩
      exact ⟨h, rfl, rfl⟩
    · rintro ⟨-, rfl, rfl⟩
      exact ⟨rfl, rfl⟩

theorem readDigits?_append (h : readDigits? text = some (digits, tail))
    (hrest : Stops isNumeral rest) : readDigits? (text ++ rest) = some (digits, tail ++ rest) := by
  obtain ⟨hne, rfl, rfl⟩ := readDigits?_eq_some.mp h
  refine readDigits?_eq_some.mpr ⟨hne, ?_, ?_⟩
  · exact takeWhile_append_of_stops text (stops_isDigit hrest)
  · exact dropWhile_append_of_stops text (stops_isDigit hrest)

theorem map_readDigits?_append {α : Type} (f : List Char → α) {value : α}
    (h : (readDigits? text).map (fun read => (f read.1, read.2)) = some (value, tail))
    (hrest : Stops isNumeral rest) :
    (readDigits? (text ++ rest)).map (fun read => (f read.1, read.2)) =
      some (value, tail ++ rest) := by
  obtain ⟨⟨digits, t⟩, hread, heq⟩ := Option.map_eq_some_iff.mp h
  obtain ⟨rfl, rfl⟩ := Prod.mk.inj heq
  rw [readDigits?_append hread hrest, Option.map_some]

theorem readWhole?_append (h : readWhole? text = some (digits, tail))
    (hrest : Stops isNumeral rest) : readWhole? (text ++ rest) = some (digits, tail ++ rest) := by
  unfold readWhole? at h
  split at h
  · obtain ⟨rfl, rfl⟩ := Prod.mk.inj (Option.some.inj h)
    rfl
  · rename_i hzero
    cases text with
    | nil => simp [readDigits?] at h
    | cons c text =>
        rw [List.cons_append, readWhole?, ← List.cons_append]
        · exact readDigits?_append h hrest
        · rintro s heq
          exact hzero text (by rw [(List.cons.inj heq).1])

theorem readFraction?_append (h : readFraction? text = some (digits, tail))
    (hrest : Stops isNumeral rest) :
    readFraction? (text ++ rest) = some (digits, tail ++ rest) := by
  unfold readFraction? at h
  split at h
  · exact readDigits?_append h hrest
  · rename_i hpoint
    obtain ⟨rfl, rfl⟩ := Prod.mk.inj (Option.some.inj h)
    unfold readFraction?
    split
    · rename_i heq
      cases text with
      | nil =>
          rw [List.nil_append] at heq
          rw [heq] at hrest
          simp [isNumeral] at hrest
      | cons c text =>
          obtain ⟨rfl, -⟩ := List.cons.inj heq
          exact absurd rfl (hpoint text)
    · rfl

theorem readExponent?_append {exponent : Int} (h : readExponent? text = some (exponent, tail))
    (hrest : Stops isNumeral rest) :
    readExponent? (text ++ rest) = some (exponent, tail ++ rest) := by
  cases text with
  | nil =>
      obtain ⟨rfl, rfl⟩ := Prod.mk.inj (Option.some.inj h)
      cases rest with
      | nil => rfl
      | cons c rest =>
          have hmark : ¬(c = 'e' ∨ c = 'E') := by
            rintro (rfl | rfl) <;> simp [isNumeral] at hrest
          unfold readExponent?
          exact if_neg hmark
  | cons mark text =>
      unfold readExponent? at h ⊢
      simp only [List.cons_append] at h ⊢
      by_cases hmark : mark = 'e' ∨ mark = 'E'
      · rw [if_pos hmark] at h ⊢
        cases text with
        | nil => simp [readDigits?] at h
        | cons c text =>
            rw [List.cons_append]
            split at h
            · rename_i heq
              obtain ⟨rfl, rfl⟩ := List.cons.inj heq
              exact map_readDigits?_append (fun digits => -(Nat.ofDigitChars 10 digits 0 : Int))
                h hrest
            · rename_i heq
              obtain ⟨rfl, rfl⟩ := List.cons.inj heq
              exact map_readDigits?_append (fun digits => (Nat.ofDigitChars 10 digits 0 : Int))
                h hrest
            · split
              · simp_all
              · simp_all
              · exact map_readDigits?_append
                  (fun digits => (Nat.ofDigitChars 10 digits 0 : Int)) h hrest
      · rw [if_neg hmark] at h ⊢
        obtain ⟨rfl, rfl⟩ := Prod.mk.inj (Option.some.inj h)
        rfl

theorem readMagnitude?_eq_some {negative : Bool} {x : Binary64} :
    readMagnitude? negative text = some (x, tail) ↔
      ∃ whole s fraction t exponent, readWhole? text = some (whole, s) ∧
        readFraction? s = some (fraction, t) ∧ readExponent? t = some (exponent, tail) ∧
        ofDigits negative whole fraction exponent = x ∧ x.isFinite = true := by
  simp only [readMagnitude?, Option.bind_eq_bind, Option.bind_eq_some_iff, Prod.exists]
  constructor
  · rintro ⟨whole, s, hwhole, fraction, t, hfraction, exponent, u, hexponent, h⟩
    split at h
    · rename_i hfinite
      obtain ⟨rfl, rfl⟩ := Prod.mk.inj (Option.some.inj h)
      exact ⟨whole, s, fraction, t, exponent, hwhole, hfraction, hexponent, rfl, hfinite⟩
    · simp at h
  · rintro ⟨whole, s, fraction, t, exponent, hwhole, hfraction, hexponent, rfl, hfinite⟩
    exact ⟨whole, s, hwhole, fraction, t, hfraction, exponent, tail, hexponent, if_pos hfinite⟩

theorem readMagnitude?_append {negative : Bool} {x : Binary64}
    (h : readMagnitude? negative text = some (x, tail)) (hrest : Stops isNumeral rest) :
    readMagnitude? negative (text ++ rest) = some (x, tail ++ rest) := by
  obtain ⟨whole, s, fraction, t, exponent, hwhole, hfraction, hexponent, hx⟩ :=
    readMagnitude?_eq_some.mp h
  exact readMagnitude?_eq_some.mpr ⟨whole, s ++ rest, fraction, t ++ rest, exponent,
    readWhole?_append hwhole hrest, readFraction?_append hfraction hrest,
    readExponent?_append hexponent hrest, hx⟩

theorem readNumber?_append {x : Binary64} (h : readNumber? text = some (x, tail))
    (hrest : Stops isNumeral rest) : readNumber? (text ++ rest) = some (x, tail ++ rest) := by
  unfold readNumber? at h
  split at h
  · exact readMagnitude?_append h hrest
  · rename_i hminus
    cases text with
    | nil => simp [readMagnitude?, readWhole?, readDigits?] at h
    | cons c text =>
        rw [List.cons_append, readNumber?, ← List.cons_append]
        · exact readMagnitude?_append h hrest
        · rintro s heq
          exact hminus text (by rw [(List.cons.inj heq).1])

theorem head_of_readNumber? {x : Binary64} (h : readNumber? text = some (x, tail)) :
    ∃ c s, text = c :: s ∧ (c = '-' ∨ c.isDigit = true) := by
  have hmagnitude {negative : Bool} {text : List Char}
      (h : readMagnitude? negative text = some (x, tail)) :
      ∃ c s, text = c :: s ∧ c.isDigit = true := by
    obtain ⟨whole, s, -, -, -, hwhole, -⟩ := readMagnitude?_eq_some.mp h
    unfold readWhole? at hwhole
    split at hwhole
    · exact ⟨_, _, rfl, by decide⟩
    · obtain ⟨hne, hdigits, -⟩ := readDigits?_eq_some.mp hwhole
      cases text with
      | nil => exact absurd hdigits.symm hne
      | cons c text =>
          refine ⟨c, text, rfl, Decidable.byContradiction fun hc => hne ?_⟩
          rw [← hdigits, List.takeWhile_cons_of_neg hc]
  unfold readNumber? at h
  split at h
  · exact ⟨_, _, rfl, .inl rfl⟩
  · obtain ⟨c, s, heq, hc⟩ := hmagnitude h
    exact ⟨c, s, heq, .inr hc⟩

end Append

/-! ### Integers -/

theorem toDigits_ne_zero_cons {n : Nat} (h : 0 < n) (rest : List Char) :
    Nat.toDigits 10 n ≠ '0' :: rest := by
  induction n using Nat.strongRecOn generalizing rest with
  | ind n ih =>
      by_cases hn : n < 10
      · have hdigit : ∀ d < 10, 0 < d → Nat.digitChar d ≠ '0' := by decide
        rw [Nat.toDigits_of_lt_base hn]
        exact fun heq => hdigit n hn h (List.cons.inj heq).1
      · rw [Nat.toDigits_of_base_le (by decide) (by omega)]
        cases hhigh : Nat.toDigits 10 (n / 10) with
        | nil => exact absurd hhigh Nat.toDigits_ne_nil
        | cons c digits =>
            intro heq
            obtain ⟨rfl, -⟩ := List.cons.inj heq
            exact ih (n / 10) (by omega) (by omega) digits hhigh

theorem readDigits?_toDigits (n : Nat) :
    readDigits? (Nat.toDigits 10 n) = some (Nat.toDigits 10 n, []) := by
  have hdigits : ∀ c ∈ Nat.toDigits 10 n, c.isDigit = true :=
    fun c hc => Nat.isDigit_of_mem_toDigits (by decide) (by decide) hc
  refine readDigits?_eq_some.mpr ⟨Nat.toDigits_ne_nil, ?_, ?_⟩
  · simpa using Text.takeWhile_append hdigits stops_nil
  · simpa using Text.dropWhile_append hdigits stops_nil

theorem readWhole?_toDigits (n : Nat) :
    readWhole? (Nat.toDigits 10 n) = some (Nat.toDigits 10 n, []) := by
  rcases Nat.eq_zero_or_pos n with rfl | hn
  · rfl
  · rw [readWhole?]
    · exact readDigits?_toDigits n
    · exact toDigits_ne_zero_cons hn

theorem takeDigits_of_lt {digits : List Char} {n : Nat}
    (h : Nat.ofDigitChars 10 digits n < 2 ^ 64) :
    takeDigits n digits = (Nat.ofDigitChars 10 digits n, []) := by
  induction digits generalizing n with
  | nil => rfl
  | cons c digits ih =>
      rw [Nat.ofDigitChars_cons] at h ⊢
      have hle (next : Nat) : next ≤ Nat.ofDigitChars 10 digits next := by
        rw [Nat.ofDigitChars_eq_ofDigitChars_zero]
        exact Nat.le_trans (Nat.le_mul_of_pos_left next (Nat.pow_pos (by decide)))
          (Nat.le_add_right _ _)
      simp only [takeDigits, Nat.pow_eq]
      rw [if_pos (Nat.lt_of_le_of_lt (hle _) h), ih h]

section Magnitude

variable {n : Nat} {code : Fin (infinityCode + 1)}

theorem ofDigits_toDigits (negative : Bool) (h : n < 2 ^ 64) (hcode : Binary64.codeOfNat n = code) :
    ofDigits negative (Nat.toDigits 10 n) [] 0 = Binary64.signed negative code := by
  have htake : takeDigits 0 (Nat.toDigits 10 n) = (n, []) := by
    rw [takeDigits_of_lt (by rwa [Nat.ofDigitChars_ten_toDigits]), Nat.ofDigitChars_ten_toDigits]
  have hscaled : Binary64.ofScaled negative n (0 : Nat) = Binary64.signed negative code := by
    have hmin : min infinityCode code.val = code := Nat.min_eq_right (Nat.lt_succ_iff.mp code.isLt)
    simp only [Binary64.ofScaled, Int.toNat_natCast, Binary64.scaleUp_zero, Int.natCast_nonneg,
      if_true, hcode, hmin]
  have hexponent : (0 : Int) + ([] : List Char).length + ([] : List Char).length -
      ([] : List Char).length = (0 : Nat) := rfl
  rw [← hscaled]
  simp only [ofDigits, htake, takeDigits, hexponent]

theorem readMagnitude?_toDigits (negative : Bool) (h : n < 2 ^ 64)
    (hcode : Binary64.codeOfNat n = code) :
    readMagnitude? negative (Nat.toDigits 10 n) = some (Binary64.signed negative code, []) := by
  have hlt : code.val < infinityCode := by
    rw [← hcode]
    exact Binary64.codeOfNat_lt_infinityCode h
  exact readMagnitude?_eq_some.mpr ⟨Nat.toDigits 10 n, [], [], [], 0, readWhole?_toDigits n, rfl,
    rfl, ofDigits_toDigits negative h hcode, (Binary64.isFinite_signed negative).mpr hlt⟩

end Magnitude

theorem readNumber?_integerText {n : Int} (h : n.natAbs < 2 ^ 64) :
    readNumber? (integerText n) = some (Binary64.ofInt n, []) := by
  rw [integerText, Binary64.ofInt_eq h]
  by_cases hneg : n < 0
  · rw [if_pos hneg, decide_eq_true hneg, List.singleton_append, readNumber?]
    exact readMagnitude?_toDigits true h rfl
  · rw [if_neg hneg, decide_eq_false hneg, List.nil_append, readNumber?]
    · exact readMagnitude?_toDigits false h rfl
    · intro rest heq
      have hminus : '-' ∈ Nat.toDigits 10 n.natAbs := heq ▸ List.mem_cons_self
      have hdigit := Nat.isDigit_of_mem_toDigits (by decide) (by decide) hminus
      simp at hdigit

end TableQuery.Json
