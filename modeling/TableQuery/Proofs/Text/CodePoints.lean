import TableQuery.Proofs.Dialect.Scanning

/-!
Strings are ordered as their bytes are. The order of strings goes by the code points of
their characters, from the first character on. A character is written as the digits of its
code point to base 64, the highest first, and the mark on its first byte, which tells how
many bytes follow, grows with the code point. So the first byte in which two texts differ
decides as the first character does.
-/

namespace TableQuery.Text

open Dialect (bytes toList_toByteArray)

theorem compare_char (c d : Char) : compare c d = compare c.toNat d.toNat := by
  have hlt : c < d ↔ c.toNat < d.toNat := UInt32.lt_iff_toNat_lt
  change compareOfLessAndEq c d = compareOfLessAndEq c.toNat d.toNat
  simp only [compareOfLessAndEq, hlt, Char.toNat_inj]

theorem compare_ofNat {m n : Nat} (hm : m < 256) (hn : n < 256) :
    compare (UInt8.ofNat m) (UInt8.ofNat n) = compare m n := by
  change compareOfLessAndEq (UInt8.ofNat m) (UInt8.ofNat n) = compareOfLessAndEq m n
  simp only [compareOfLessAndEq, UInt8.lt_iff_toNat_lt, ← UInt8.toNat_inj, UInt8.toNat_ofNat',
    Nat.mod_eq_of_lt hm, Nat.mod_eq_of_lt hn]

theorem compare_add (m n mark : Nat) : compare (m + mark) (n + mark) = compare m n := by
  simp only [Nat.compare_eq_ite_lt, Nat.add_lt_add_iff_right]

/-- Bytes above the same mark compare as what they are above it. -/
theorem compare_cons {m n mark : Nat} (hm : m + mark < 256) (hn : n + mark < 256)
    (s t : List UInt8) :
    compare (UInt8.ofNat (m + mark) :: s) (UInt8.ofNat (n + mark) :: t) =
      (compare m n).then (compare s t) := by
  rw [List.compare_cons_cons, compare_ofNat hm hn, compare_add]

/-- The last digit to base 64 counts where the others are equal. -/
theorem compare_div_mod (m n : Nat) :
    (compare (m / 64) (n / 64)).then (compare (m % 64) (n % 64)) = compare m n := by
  rcases Nat.lt_trichotomy (m / 64) (n / 64) with h | h | h
  · rw [Nat.compare_eq_lt.mpr h, Nat.compare_eq_lt.mpr (Nat.lt_of_div_lt_div h)]
    rfl
  · rw [Nat.compare_eq_eq.mpr h, Ordering.eq_then, ← compare_add _ _ (64 * (m / 64)),
      Nat.mod_add_div, h, Nat.mod_add_div]
  · rw [Nat.compare_eq_gt.mpr h, Nat.compare_eq_gt.mpr (Nat.lt_of_div_lt_div h)]
    rfl

/-- The last digits of a number to base 64, each in a byte with the mark of those that
do not come first. -/
def digitBytes : Nat → Nat → List UInt8
  | 0, _ => []
  | count + 1, n => digitBytes count (n / 64) ++ [UInt8.ofNat (n % 64 + 128)]

/-- The digits in front, the last ones in their bytes, and what follows: compared in this
order they are the whole numbers, and what follows. -/
theorem compare_digitBytes (count m n : Nat) (s t : List UInt8) :
    (compare (m / 64 ^ count) (n / 64 ^ count)).then
        (compare (digitBytes count m ++ s) (digitBytes count n ++ t)) =
      (compare m n).then (compare s t) := by
  induction count generalizing m n s t with
  | zero => rw [Nat.pow_zero, Nat.div_one, Nat.div_one]; rfl
  | succ count ih =>
      have hdiv (k : Nat) : k / 64 ^ (count + 1) = k / 64 / 64 ^ count := by
        rw [Nat.div_div_eq_div_mul, Nat.pow_succ']
      rw [hdiv, hdiv, digitBytes, digitBytes, List.append_assoc, List.append_assoc,
        ih, List.singleton_append, List.singleton_append, compare_cons (by omega) (by omega),
        ← Ordering.then_assoc, compare_div_mod]

/-- How many bytes follow the first one of a code point, and the mark on the first. -/
inductive Encoding : Nat → Nat → Nat → Prop
  | one {n : Nat} : n < 0x80 → Encoding n 0 0
  | two {n : Nat} : 0x80 ≤ n → n < 0x800 → Encoding n 1 0xC0
  | three {n : Nat} : 0x800 ≤ n → n < 0x10000 → Encoding n 2 0xE0
  | four {n : Nat} : 0x10000 ≤ n → n < 0x110000 → Encoding n 3 0xF0

theorem exists_encoding (c : Char) :
    ∃ count mark, Encoding c.toNat count mark ∧
      String.utf8EncodeChar c =
        UInt8.ofNat (c.toNat / 64 ^ count + mark) :: digitBytes count c.toNat := by
  have hc : c.toNat < 0x110000 := by
    rcases c.valid with h | ⟨-, h⟩
    · exact Nat.lt_trans h (by decide)
    · exact h
  simp only [String.utf8EncodeChar, Char.toNat_val]
  generalize c.toNat = n at hc ⊢
  split
  · exact ⟨0, 0, .one (by omega), by simp [digitBytes]⟩
  · split
    · have hfirst : n / 64 % 32 = n / 64 := by omega
      exact ⟨1, 0xC0, .two (by omega) (by omega), by simp [digitBytes, hfirst]⟩
    · split
      · have hfirst : n / 4096 % 16 = n / 4096 := by omega
        exact ⟨2, 0xE0, .three (by omega) (by omega), by simp [digitBytes, hfirst]⟩
      · have hfirst : n / 262144 % 8 = n / 262144 := by omega
        refine ⟨3, 0xF0, .four (by omega) (by omega), ?_⟩
        simp [digitBytes, hfirst, Nat.div_div_eq_div_mul]

variable {m n : Nat}

theorem Encoding.first_lt {count mark : Nat} (h : Encoding n count mark) :
    n / 64 ^ count + mark < 256 := by
  cases h <;> omega

/-- Code points of one form keep their order in the digits, and those of a longer form
have the greater first byte. -/
theorem Encoding.eq_or_first_lt {count mark count' mark' : Nat} (hm : Encoding m count mark)
    (hn : Encoding n count' mark') (h : m < n) :
    count = count' ∧ mark = mark' ∨ m / 64 ^ count + mark < n / 64 ^ count' + mark' := by
  cases hm <;> cases hn <;> omega

/-- The bytes of two characters differ before either of them ends. -/
theorem compare_encode_of_lt {c d : Char} (h : c.toNat < d.toNat) (s t : List UInt8) :
    compare (String.utf8EncodeChar c ++ s) (String.utf8EncodeChar d ++ t) = .lt := by
  obtain ⟨count, mark, hc, hencode⟩ := exists_encoding c
  obtain ⟨count', mark', hd, hencode'⟩ := exists_encoding d
  rw [hencode, hencode', List.cons_append, List.cons_append]
  rcases hc.eq_or_first_lt hd h with ⟨rfl, rfl⟩ | hfirst
  · rw [compare_cons hc.first_lt hd.first_lt, compare_digitBytes, Nat.compare_eq_lt.mpr h]
    rfl
  · rw [List.compare_cons_cons, compare_ofNat hc.first_lt hd.first_lt,
      Nat.compare_eq_lt.mpr hfirst]
    rfl

theorem compare_append_left (text s t : List UInt8) :
    compare (text ++ s) (text ++ t) = compare s t := by
  induction text with
  | nil => rfl
  | cons b text ih =>
      rw [List.cons_append, List.cons_append, List.compare_cons_cons, Std.compare_self,
        Ordering.eq_then, ih]

theorem compare_encode (c d : Char) (s t : List UInt8) :
    compare (String.utf8EncodeChar c ++ s) (String.utf8EncodeChar d ++ t) =
      (compare c d).then (compare s t) := by
  rcases Nat.lt_trichotomy c.toNat d.toNat with h | h | h
  · rw [compare_encode_of_lt h, compare_char, Nat.compare_eq_lt.mpr h]
    rfl
  · obtain rfl := Char.toNat_inj.mp h
    rw [compare_append_left, Std.compare_self, Ordering.eq_then]
  · have hswap : compare (String.utf8EncodeChar c ++ s) (String.utf8EncodeChar d ++ t) =
        (compare (String.utf8EncodeChar d ++ t) (String.utf8EncodeChar c ++ s)).swap :=
      Std.OrientedCmp.eq_swap
    rw [hswap, compare_encode_of_lt h, compare_char, Nat.compare_eq_gt.mpr h]
    rfl

def codePoints (text : String) : List Nat :=
  text.toList.map Char.toNat

theorem compare_codePoints (s t : List Char) :
    compare (s.map Char.toNat) (t.map Char.toNat) = compare s t := by
  induction s generalizing t with
  | nil => cases t <;> rfl
  | cons c s ih =>
      cases t with
      | nil => rfl
      | cons d t =>
          rw [List.map_cons, List.map_cons, List.compare_cons_cons, List.compare_cons_cons,
            compare_char, ih]

theorem compare_bytes (s t : List Char) : compare (bytes s) (bytes t) = compare s t := by
  have hbytes (c : Char) (rest : List Char) :
      ∃ b tail, bytes (c :: rest) = b :: tail := by
    obtain ⟨count, mark, -, hencode⟩ := exists_encoding c
    rw [bytes, List.flatMap_cons, hencode]
    exact ⟨_, _, rfl⟩
  induction s generalizing t with
  | nil =>
      cases t with
      | nil => rfl
      | cons d t =>
          obtain ⟨b, tail, hd⟩ := hbytes d t
          rw [hd]
          rfl
  | cons c s ih =>
      cases t with
      | nil =>
          obtain ⟨b, tail, hc⟩ := hbytes c s
          rw [hc]
          rfl
      | cons d t =>
          rw [bytes, bytes, List.flatMap_cons, List.flatMap_cons, compare_encode,
            List.compare_cons_cons]
          exact congrArg _ (ih t)

theorem compare_eq_lt_iff {s t : List Char} : compare s t = .lt ↔ s < t := by
  induction s generalizing t with
  | nil => cases t <;> simp
  | cons c s ih =>
      cases t with
      | nil => simp
      | cons d t =>
          have hlt : compare c d = .lt ↔ c < d := compareOfLessAndEq_eq_lt
          rw [List.compare_cons_cons, Ordering.then_eq_lt, List.cons_lt_cons_iff, hlt,
            Std.compare_eq_iff_eq, ih]

theorem compare_toList (s t : String) : compare s.toList t.toList = compare s t := by
  have hlt {s t : String} (h : s < t) : compare s.toList t.toList = compare s t := by
    have hstrings : compare s t = .lt := compareOfLessAndEq_eq_lt.mpr h
    rw [hstrings, compare_eq_lt_iff, ← String.lt_iff]
    exact h
  rcases Std.lt_trichotomy s t with h | rfl | h
  · exact hlt h
  · rw [Std.compare_self, Std.compare_self]
  · calc
      compare s.toList t.toList = (compare t.toList s.toList).swap := Std.OrientedCmp.eq_swap
      _ = (compare t s).swap := congrArg Ordering.swap (hlt h)
      _ = compare s t := Std.OrientedCmp.eq_swap.symm

theorem compare_string (s t : String) :
    compare s t = compare (codePoints s) (codePoints t) ∧
      compare s t = compare s.toByteArray.data.toList t.toByteArray.data.toList := by
  rw [codePoints, codePoints, compare_codePoints, toList_toByteArray, toList_toByteArray,
    compare_bytes, compare_toList]
  exact ⟨rfl, rfl⟩

/-- The first string comes first in the order of the bytes. -/
def BytesBefore (s t : String) : Prop :=
  compare s.toByteArray.data.toList t.toByteArray.data.toList = .lt

theorem bytesBefore_iff {s t : String} : BytesBefore s t ↔ s < t := by
  rw [BytesBefore, ← (compare_string s t).2]
  exact compareOfLessAndEq_eq_lt

end TableQuery.Text
