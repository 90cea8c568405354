import TableQuery.Proofs.Binary64.Decimals
import TableQuery.Proofs.Dialect.Literals
import TableQuery.Proofs.Pattern.Remainders

/-!
The numbers that texts begin with. A numeral is a number in plain decimal notation, and
a text may begin with several of them, one inside the other; the longest one is found
by taking what can be taken. Its exact value is rounded once. A text of which no
beginning is a numeral has no numeric value. The rule for numbers goes by this value,
but the token it takes can be longer than the characters of numerals.
-/

namespace TableQuery.Dialect

open Text Pattern

/-- A number as it is written: a sign or none, then digits, digits and a point, digits
around a point, or a point and digits. -/
@[ext] structure Numeral where
  negative : Bool
  whole : List Char
  fraction : Option (List Char)
  isDigit_digits : ∀ c ∈ whole ++ fraction.getD [], c.isDigit = true
  digits_ne_nil : whole ++ fraction.getD [] ≠ []

namespace Numeral

variable {numeral other : Numeral} {s rest : List Char} {negative : Bool} {n : Binary64}

def digits (numeral : Numeral) : List Char :=
  numeral.whole ++ numeral.fraction.getD []

def places (numeral : Numeral) : Nat :=
  (numeral.fraction.getD []).length

def signText (negative : Bool) : List Char :=
  if negative then ['-'] else []

def unsignedText (numeral : Numeral) : List Char :=
  numeral.whole ++ numeral.fraction.elim [] ('.' :: ·)

def text (numeral : Numeral) : List Char :=
  signText numeral.negative ++ numeral.unsignedText

def exact (numeral : Numeral) : ℚ :=
  Binary64.withSign numeral.negative
    (Nat.ofDigitChars 10 numeral.digits 0 / 10 ^ numeral.places)

/-- The number is nearest to the exact value, or infinite if that is too large, and has
the sign that is written. -/
def Denotes (numeral : Numeral) (n : Binary64) : Prop :=
  Binary64.RoundsTo numeral.exact n ∧ n.sign? = some numeral.negative

def toBinary64 (numeral : Numeral) : Binary64 :=
  .ofDecimal numeral.negative (Nat.ofDigitChars 10 numeral.digits 0) (-numeral.places)

theorem denotes_toBinary64 (numeral : Numeral) : numeral.Denotes numeral.toBinary64 := by
  refine ⟨?_, Binary64.sign?_ofDecimal ..⟩
  have h := Binary64.roundsTo_ofDecimal numeral.negative (Nat.ofDigitChars 10 numeral.digits 0)
    (-numeral.places)
  rwa [zpow_neg, zpow_natCast, ← div_eq_mul_inv] at h

theorem denotes_iff : numeral.Denotes n ↔ n = numeral.toBinary64 := by
  constructor
  · intro h
    have hvalue := numeral.denotes_toBinary64
    exact h.1.unique hvalue.1 (h.2.trans hvalue.2.symm)
  · rintro rfl
    exact numeral.denotes_toBinary64

theorem startsNumber_of_mem_text {c : Char} (h : c ∈ numeral.text) : startsNumber c = true := by
  have hdigit (c : Char) (hc : c ∈ numeral.digits) : startsNumber c = true := by
    rw [startsNumber, numeral.isDigit_digits c hc]
    rfl
  rw [text, unsignedText, List.mem_append, List.mem_append] at h
  rcases h with hsign | hwhole | hfraction
  · obtain ⟨_ | _, _, _, _, _⟩ := numeral
    · simp [signText] at hsign
    · obtain rfl := List.mem_singleton.mp hsign
      decide
  · exact hdigit c (List.mem_append_left _ hwhole)
  · cases hpoint : numeral.fraction with
    | none => simp [hpoint] at hfraction
    | some fraction =>
        rw [hpoint, Option.elim_some, List.mem_cons] at hfraction
        rcases hfraction with rfl | hfraction
        · decide
        · refine hdigit c (List.mem_append_right _ ?_)
          rwa [hpoint, Option.getD_some]

/-! ### Taking what can be taken -/

/-- The digits after the digits and a point that a text begins with. -/
def fraction? (text : List Char) : Option (List Char) :=
  match text.dropWhile Char.isDigit with
  | '.' :: rest => some (rest.takeWhile Char.isDigit)
  | _ => none

theorem isDigit_takeWhile_fraction? (text : List Char) :
    ∀ c ∈ text.takeWhile Char.isDigit ++ (fraction? text).getD [], c.isDigit = true := by
  intro c hc
  rcases List.mem_append.mp hc with hc | hc
  · exact all_takeWhile _ _ c hc
  · rw [fraction?] at hc
    split at hc
    · exact all_takeWhile _ _ c hc
    · simp at hc

/-- The numeral that a text begins with after its sign. -/
def leadingUnsigned? (negative : Bool) (text : List Char) : Option Numeral :=
  if h : text.takeWhile Char.isDigit ++ (fraction? text).getD [] = [] then none
  else some ⟨negative, text.takeWhile Char.isDigit, fraction? text,
    isDigit_takeWhile_fraction? text, h⟩

def leading? : List Char → Option Numeral
  | '-' :: text => leadingUnsigned? true text
  | text => leadingUnsigned? false text

theorem map_leadingUnsigned? (negative : Bool) (s : List Char) :
    (leadingUnsigned? negative s).map toBinary64 =
      match s.takeWhile Char.isDigit ++ (fraction? s).getD [] with
      | [] => none
      | digits => some (.ofDecimal negative (Nat.ofDigitChars 10 digits 0)
          (-((fraction? s).getD []).length)) := by
  rw [leadingUnsigned?]
  split
  · rename_i hnil
    rw [hnil]
    rfl
  · rename_i hne
    split
    · contradiction
    · rfl

theorem prefix_of_leadingUnsigned? (h : leadingUnsigned? negative s = some numeral) :
    numeral.negative = negative ∧ numeral.unsignedText <+: s := by
  rw [leadingUnsigned?] at h
  split at h
  · simp at h
  · obtain rfl := Option.some.inj h
    refine ⟨rfl, ?_⟩
    have hs := List.takeWhile_append_dropWhile (p := Char.isDigit) (l := s)
    change s.takeWhile Char.isDigit ++ (fraction? s).elim [] ('.' :: ·) <+: s
    rw [fraction?]
    split
    · rename_i rest hpoint
      refine ⟨rest.dropWhile Char.isDigit, ?_⟩
      rw [hpoint] at hs
      simp [hs]
    · exact ⟨s.dropWhile Char.isDigit, by rwa [Option.elim_none, List.append_nil]⟩

/-- A numeral at the beginning of a text is a part of the one that is found. -/
theorem exists_leadingUnsigned? (negative : Bool) (h : numeral.unsignedText <+: s) :
    ∃ found, leadingUnsigned? negative s = some found ∧
      numeral.unsignedText <+: found.unsignedText := by
  obtain ⟨rest, rfl⟩ := h
  obtain ⟨_, whole, fraction, hdigits, hne⟩ := numeral
  simp only [List.forall_mem_append] at hdigits
  obtain ⟨hwhole, hfraction⟩ := hdigits
  simp only [unsignedText] at *
  cases fraction with
  | none =>
      simp only [Option.elim_none, Option.getD_none, List.append_nil] at *
      have htake : (whole ++ rest).takeWhile Char.isDigit = whole ++ rest.takeWhile Char.isDigit :=
        List.takeWhile_append_of_pos hwhole
      refine ⟨_, dif_neg ?_, ?_⟩
      · simp [htake, hne]
      · simp [htake]
  | some fraction =>
      simp only [Option.elim_some, Option.getD_some, List.append_assoc, List.cons_append] at *
      have hstop : Stops Char.isDigit ('.' :: (fraction ++ rest)) := stops_cons.mpr (by decide)
      have htake := takeWhile_append hwhole hstop
      have hdrop := dropWhile_append hwhole hstop
      have hpoint : fraction? (whole ++ '.' :: (fraction ++ rest)) =
          some (fraction ++ rest.takeWhile Char.isDigit) := by
        rw [fraction?, hdrop]
        exact congrArg some (List.takeWhile_append_of_pos hfraction)
      refine ⟨_, dif_neg ?_, ?_⟩
      · rw [htake, hpoint]
        intro hnil
        rw [Option.getD_some, List.append_eq_nil_iff, List.append_eq_nil_iff] at hnil
        exact hne (List.append_eq_nil_iff.mpr ⟨hnil.1, hnil.2.1⟩)
      · simp [htake, hpoint]

theorem exists_head_unsignedText (numeral : Numeral) :
    ∃ c tail, numeral.unsignedText = c :: tail ∧ c ≠ '-' := by
  obtain ⟨_, whole, fraction, hdigits, hne⟩ := numeral
  obtain _ | ⟨c, whole⟩ := whole
  · cases fraction with
    | none => exact absurd rfl hne
    | some fraction => exact ⟨'.', fraction, rfl, by decide⟩
  · exact ⟨c, _, rfl, ne_of_class (hdigits c (by simp)) (by decide)⟩

theorem leading?_of_ne_minus {c : Char} (hc : c ≠ '-') :
    leading? (c :: rest) = leadingUnsigned? false (c :: rest) := by
  rw [leading?]
  rintro text ⟨⟩
  exact hc rfl

theorem text_true (h : numeral.negative = true) : numeral.text = '-' :: numeral.unsignedText := by
  rw [text, h]
  rfl

theorem text_false (h : numeral.negative = false) : numeral.text = numeral.unsignedText := by
  rw [text, h]
  rfl

theorem prefix_of_leading? (h : leading? s = some numeral) : numeral.text <+: s := by
  unfold leading? at h
  split at h
  · obtain ⟨hsign, hfront⟩ := prefix_of_leadingUnsigned? h
    rw [text_true hsign]
    exact (List.prefix_cons_inj _).mpr hfront
  · obtain ⟨hsign, hfront⟩ := prefix_of_leadingUnsigned? h
    rwa [text_false hsign]

theorem exists_leading? (h : numeral.text <+: s) :
    ∃ found, leading? s = some found ∧ numeral.text <+: found.text := by
  cases hsign : numeral.negative with
  | true =>
      rw [text_true hsign] at h ⊢
      obtain ⟨rest, rfl⟩ := h
      obtain ⟨found, hfound, hfront⟩ :=
        exists_leadingUnsigned? true (List.prefix_append numeral.unsignedText rest)
      refine ⟨found, hfound, ?_⟩
      rw [text_true (prefix_of_leadingUnsigned? hfound).1]
      exact (List.prefix_cons_inj _).mpr hfront
  | false =>
      rw [text_false hsign] at h ⊢
      obtain ⟨found, hfound, hfront⟩ := exists_leadingUnsigned? false h
      obtain ⟨c, tail, hhead, hc⟩ := numeral.exists_head_unsignedText
      obtain ⟨rest, rfl⟩ := h
      refine ⟨found, ?_, ?_⟩
      · rw [hhead, List.cons_append] at hfound ⊢
        rwa [leading?_of_ne_minus hc]
      · rwa [text_false (prefix_of_leadingUnsigned? hfound).1]

/-- The numeral stands at the beginning of the text, and no longer one does. -/
def IsLongest (numeral : Numeral) (s : List Char) : Prop :=
  numeral.text <+: s ∧ ∀ other : Numeral, other.text <+: s → other.text.length ≤ numeral.text.length

theorem unsignedText_injective (h : numeral.unsignedText = other.unsignedText) :
    numeral.whole = other.whole ∧ numeral.fraction = other.fraction := by
  have hwhole (n : Numeral) : ∀ c ∈ n.whole, c.isDigit = true :=
    fun c hc => n.isDigit_digits c (List.mem_append_left _ hc)
  have hpoint (n : Numeral) : Stops Char.isDigit (n.fraction.elim [] ('.' :: ·)) := by
    cases n.fraction with
    | none => trivial
    | some fraction => exact stops_cons.mpr (by decide)
  obtain ⟨heq, hrest⟩ :=
    run_unique (hwhole numeral) (hpoint numeral) (hwhole other) (hpoint other) h
  refine ⟨heq, ?_⟩
  cases hn : numeral.fraction <;> cases ho : other.fraction <;> simp_all

theorem text_injective (h : numeral.text = other.text) : numeral = other := by
  obtain ⟨c, tail, hhead, hc⟩ := numeral.exists_head_unsignedText
  obtain ⟨d, tail', hhead', hd⟩ := other.exists_head_unsignedText
  have hsign : numeral.negative = other.negative ∧ numeral.unsignedText = other.unsignedText := by
    cases hn : numeral.negative <;> cases ho : other.negative
    · rw [text_false hn, text_false ho] at h
      exact ⟨rfl, h⟩
    · rw [text_false hn, text_true ho, hhead] at h
      exact absurd (List.cons.inj h).1 hc
    · rw [text_true hn, text_false ho, hhead'] at h
      exact absurd (List.cons.inj h).1.symm hd
    · rw [text_true hn, text_true ho] at h
      exact ⟨rfl, (List.cons.inj h).2⟩
  obtain ⟨hwhole, hfraction⟩ := unsignedText_injective hsign.2
  exact Numeral.ext hsign.1 hwhole hfraction

theorem leading?_eq_some_iff : leading? s = some numeral ↔ numeral.IsLongest s := by
  constructor
  · intro h
    refine ⟨prefix_of_leading? h, fun other hother => ?_⟩
    obtain ⟨found, hfound, hfront⟩ := exists_leading? hother
    obtain rfl := Option.some.inj (h.symm.trans hfound)
    exact hfront.length_le
  · rintro ⟨hfront, hlongest⟩
    obtain ⟨found, hfound, hle⟩ := exists_leading? hfront
    have hsame := hle.eq_of_length_le (hlongest found (prefix_of_leading? hfound))
    rw [hfound, text_injective hsame]

theorem leading?_eq_none_iff : leading? s = none ↔ ∀ numeral : Numeral, ¬numeral.text <+: s := by
  constructor
  · intro h numeral hfront
    obtain ⟨found, hfound, -⟩ := exists_leading? hfront
    rw [h] at hfound
    simp at hfound
  · intro h
    refine Option.eq_none_iff_forall_ne_some.mpr fun numeral hfound => ?_
    exact h numeral (prefix_of_leading? hfound)

/-- Only the characters of numerals matter, up to the first other one. -/
theorem text_prefix_takeWhile_iff :
    numeral.text <+: s.takeWhile startsNumber ↔ numeral.text <+: s := by
  constructor
  · exact fun h => h.trans (List.takeWhile_prefix _)
  · rintro ⟨rest, rfl⟩
    rw [List.takeWhile_append_of_pos fun c => startsNumber_of_mem_text]
    exact List.prefix_append ..

theorem isLongest_takeWhile_iff :
    numeral.IsLongest (s.takeWhile startsNumber) ↔ numeral.IsLongest s := by
  simp only [IsLongest, text_prefix_takeWhile_iff]

theorem leading?_takeWhile (s : List Char) : leading? (s.takeWhile startsNumber) = leading? s := by
  ext numeral
  rw [leading?_eq_some_iff, leading?_eq_some_iff, isLongest_takeWhile_iff]

end Numeral

theorem numericPrefix?_eq_map_leading? (text : List Char) :
    numericPrefix? text = (Numeral.leading? text).map Numeral.toBinary64 := by
  have hfraction (s : List Char) : (match s.dropWhile Char.isDigit with
      | '.' :: rest => rest.takeWhile Char.isDigit
      | _ => []) = (Numeral.fraction? s).getD [] := by
    rw [Numeral.fraction?]
    split <;> rfl
  obtain _ | ⟨c, rest⟩ := text
  · rfl
  · by_cases hc : c = '-'
    · subst hc
      rw [Numeral.leading?, Numeral.map_leadingUnsigned?, ← hfraction]
      rfl
    · rw [Numeral.leading?_of_ne_minus hc, Numeral.map_leadingUnsigned?, ← hfraction]
      exact numericPrefix?.eq_2 (c :: rest) fun _ h => hc (List.cons.inj h).1

theorem numericPrefix?_takeWhile (text : List Char) :
    numericPrefix? (text.takeWhile startsNumber) = numericPrefix? text := by
  rw [numericPrefix?_eq_map_leading?, numericPrefix?_eq_map_leading?, Numeral.leading?_takeWhile]

/-! ### The rule for numbers -/

theorem stops_startsNumber {rest : List Char} (h : Stops isNumberChar rest) :
    Stops startsNumber rest := by
  obtain _ | ⟨c, rest⟩ := rest
  · trivial
  · rw [stops_cons] at h ⊢
    exact Bool.eq_false_iff.mpr fun hc => by simp [isNumberChar_of_startsNumber hc] at h

theorem stops_isNumberChar_iff {rest : List Char} (h : Stops startsNumber rest) :
    Stops isNumberChar rest ↔ Stops isDigit rest := by
  obtain _ | ⟨c, rest⟩ := rest
  · simp
  · simp only [stops_cons, startsNumber, isNumberChar, Bool.or_eq_false_iff] at h ⊢
    simp [h]

theorem run_number (text : List Char) :
    number.run text = (numericPrefix? (text.takeWhile startsNumber)).map fun n =>
      (.literal (.number n), text.dropWhile isNumberChar) := by
  have hstart : numericPrefix? (text.takeWhile startsNumber) =
      numericPrefix? (text.takeWhile isNumberChar) := by
    have hrest := stops_startsNumber (stops_dropWhile isNumberChar text)
    rw [← numericPrefix?_takeWhile (text.takeWhile isNumberChar),
      ← takeWhile_append_of_stops (text.takeWhile isNumberChar) hrest,
      List.takeWhile_append_dropWhile]
  rw [hstart]
  ext ⟨v, rest⟩
  rw [run_number_eq_some_iff, Option.map_eq_some_iff]
  constructor
  · rintro ⟨n, s, ⟨-, hs, hn⟩, hrest, rfl, rfl⟩
    refine ⟨n, ?_, ?_⟩
    · rwa [takeWhile_append hs hrest]
    · rw [dropWhile_append hs hrest]
  · rintro ⟨n, hn, h⟩
    obtain ⟨rfl, rfl⟩ := Prod.mk.inj h
    refine ⟨n, text.takeWhile isNumberChar, ⟨?_, all_takeWhile _ _, hn⟩, stops_dropWhile ..,
      List.takeWhile_append_dropWhile.symm, rfl⟩
    rintro hnil
    rw [hnil] at hn
    simp [numericPrefix?] at hn

/-- The rule for numbers takes every digit, point and sign at a place, digits outside
ASCII among them, if the ASCII characters in front have a numeric value. That is the
value, and what is taken is the ASCII characters alone just in case no other digit
follows them. -/
theorem number_matches_run (input : String) (position : Nat) :
    (number.matchAt? input position = (dropBytes? position input.toList).bind fun rest =>
      (numericPrefix? (rest.takeWhile startsNumber)).map fun n =>
        ⟨.literal (.number n), position + byteLength (rest.takeWhile isNumberChar)⟩) ∧
    ∀ rest n, dropBytes? position input.toList = some rest →
      numericPrefix? (rest.takeWhile startsNumber) = some n →
        (number.matchAt? input position =
            some ⟨.literal (.number n), position + byteLength (rest.takeWhile startsNumber)⟩ ↔
          Stops isDigit (rest.dropWhile startsNumber)) := by
  have hmatch {rest : List Char} (hrest : dropBytes? position input.toList = some rest) :
      number.matchAt? input position = (numericPrefix? (rest.takeWhile startsNumber)).map fun n =>
        ⟨.literal (.number n), position + byteLength (rest.takeWhile isNumberChar)⟩ := by
    have hlength : byteLength rest =
        byteLength (rest.takeWhile isNumberChar) + byteLength (rest.dropWhile isNumberChar) := by
      rw [← byteLength_append, List.takeWhile_append_dropWhile]
    rw [matchAt?_eq_map_run number hrest, run_number, Option.map_map]
    congr 1
    funext n
    simp only [Function.comp_apply, hlength, ← Nat.add_assoc, Nat.add_sub_cancel]
  constructor
  · cases hrest : dropBytes? position input.toList with
    | none => exact matchAt?_eq_none_of_dropBytes? hrest number
    | some rest => exact hmatch hrest
  · intro rest n hrest hn
    have hsplit : rest.takeWhile isNumberChar = rest.takeWhile startsNumber ++
        (rest.dropWhile startsNumber).takeWhile isNumberChar := by
      rw [← List.takeWhile_append_of_pos fun c hc =>
        isNumberChar_of_startsNumber (all_takeWhile _ _ c hc), List.takeWhile_append_dropWhile]
    rw [← stops_isNumberChar_iff (stops_dropWhile startsNumber rest), hmatch hrest, hn,
      Option.map_some, hsplit, byteLength_append]
    constructor
    · intro h
      have hstop := congrArg Match.stop (Option.some.inj h)
      have hnil := byteLength_eq_zero.mp (by simpa using hstop)
      have hdrop := stops_dropWhile isNumberChar (rest.dropWhile startsNumber)
      rwa [← List.takeWhile_append_dropWhile (p := isNumberChar)
        (l := rest.dropWhile startsNumber), hnil, List.nil_append]
    · intro h
      rw [takeWhile_of_stops h]
      rfl

/-- A run of five characters, from the middle of a text, of which three are the number. -/
theorem number_matches_run_loose :
    let input := "= 1.5-3 x"
    let rest := "1.5-3 x".toList
    let n : Binary64 := .signed false ⟨4609434218613702656, by decide⟩
    dropBytes? 2 input.toList = some rest ∧ numericPrefix? (rest.takeWhile startsNumber) = some n ∧
      number.matchAt? input 2 =
        some ⟨.literal (.number n), 2 + byteLength (rest.takeWhile startsNumber)⟩ := by
  intro input rest n
  have hrest : dropBytes? 2 input.toList = some rest := by decide
  have hn : numericPrefix? (rest.takeWhile startsNumber) = some n := by decide +kernel
  have hstop : Stops isDigit (' ' :: "x".toList) := stops_cons.mpr (by decide)
  exact ⟨hrest, hn, ((number_matches_run input 2).2 rest n hrest hn).mpr hstop⟩

/-- A digit of another script after the one that is the number is taken with it. -/
theorem number_matches_foreign_digit :
    ("1\u0663".toList.takeWhile startsNumber = ['1']) ∧
      ((number.matchAt? "1\u0663" 0).map Match.stop = some 3) := by
  decide +kernel

end TableQuery.Dialect
