import Mathlib.Algebra.Order.Ring.Int
import Mathlib.Data.List.Basic
import Mathlib.Data.List.Induction
import Mathlib.Data.List.TakeWhile
import Mathlib.Tactic.IntervalCases
import Mathlib.Tactic.Ring

/-!
# Numerals in byte strings

`decimal` prints an integer in base ten, as `%d` and `%ld` do, and `parse`
reads one back, as `strtol` does: it skips white space, takes a sign and a
prefix of digits, and says what is left of the string.

`parse_take_decimal` is the fact about cutting a printed number off: what is
read back is the number if and only if nothing was cut off.
-/

namespace Numeral

/-! ## Reading -/

/-- The value of a character as a digit, or 36 if it is none. -/
def digitValue (b : UInt8) : ℕ :=
  if 0x30 ≤ b ∧ b ≤ 0x39 then b.toNat - 0x30
  else if 0x41 ≤ b ∧ b ≤ 0x5a then b.toNat - 0x41 + 10
  else if 0x61 ≤ b ∧ b ≤ 0x7a then b.toNat - 0x61 + 10
  else 36

/-- The digits at the head of a string. -/
def digits (base : ℕ) (bs : List UInt8) : List UInt8 :=
  bs.takeWhile fun b => decide (digitValue b < base)

/-- The number that a string of digits stands for. -/
def value (base : ℕ) (bs : List UInt8) : ℕ :=
  bs.foldl (fun v b => v * base + digitValue b) 0

/-- White space, as `isspace` has it. -/
def isSpace (b : UInt8) : Bool := b = 0x20 ∨ (0x09 ≤ b ∧ b ≤ 0x0d)

/-- Whether there is a minus sign, and the string after the sign. -/
def readSign (bs : List UInt8) : Bool × List UInt8 :=
  if bs.head? = some 0x2d then (true, bs.tail)
  else if bs.head? = some 0x2b then (false, bs.tail)
  else (false, bs)

/-- The string begins with `0x` and a hexadecimal digit. -/
def hexPrefixed (bs : List UInt8) : Bool :=
  bs.head? = some 0x30 ∧ (bs[1]? = some 0x78 ∨ bs[1]? = some 0x58) ∧
    (bs[2]?).any fun b => digitValue b < 16

/-- The base that a numeral is in, and the numeral without its prefix. -/
def readBase (base : ℕ) (bs : List UInt8) : ℕ × List UInt8 :=
  if (base = 0 ∨ base = 16) ∧ hexPrefixed bs then (16, bs.drop 2)
  else if base = 0 then (if bs.head? = some 0x30 then 8 else 10, bs)
  else (base, bs)

/-- A number, and the string after it. -/
structure Parsed where
  number : ℤ
  rest : List UInt8
  deriving DecidableEq

/-- `strtol`, before the number is brought into the range of its type. -/
def parse (base : ℕ) (bs : List UInt8) : Parsed :=
  let signed := readSign (bs.dropWhile isSpace)
  let based := readBase base signed.2
  let ds := digits based.1 based.2
  if ds = [] then ⟨0, bs⟩
  else ⟨if signed.1 then -value based.1 ds else value based.1 ds, based.2.drop ds.length⟩

/-- `LONG_MIN` and `LONG_MAX`. -/
def longMin : ℤ := -2 ^ 63
def longMax : ℤ := 2 ^ 63 - 1

/-- The number that `strtol` returns. -/
def strtol (base : ℕ) (bs : List UInt8) : ℤ :=
  max longMin (min longMax (parse base bs).number)

/-! ## Printing -/

/-- The digits of a number. -/
def natDigits (n : ℕ) : List UInt8 :=
  (Nat.toDigits 10 n).map fun c => UInt8.ofNat c.toNat

/-- What `%d` and `%ld` print. -/
def decimal (n : ℤ) : List UInt8 :=
  (toString n).toList.map fun c => UInt8.ofNat c.toNat

theorem decimal_of_nonneg {n : ℤ} (h : 0 ≤ n) : decimal n = natDigits n.toNat := by
  rw [decimal, Int.toString_eq_repr, Int.repr_eq_if, if_pos h, Nat.toList_repr, natDigits]

theorem decimal_of_neg {n : ℤ} (h : n < 0) :
    decimal n = 0x2d :: natDigits (-n).toNat := by
  have hnot : ¬ 0 ≤ n := by omega
  rw [decimal, Int.toString_eq_repr, Int.repr_eq_if, if_neg hnot, String.toList_append,
    Nat.toList_repr, List.map_append, natDigits]
  rfl

theorem natDigits_of_lt {n : ℕ} (h : n < 10) : natDigits n = [UInt8.ofNat (48 + n)] := by
  rw [natDigits, Nat.toDigits_of_lt_base h, List.map_singleton,
    Nat.toNat_digitChar_of_lt_ten h]

theorem natDigits_of_le {n : ℕ} (h : 10 ≤ n) :
    natDigits n = natDigits (n / 10) ++ natDigits (n % 10) := by
  have hmod : n % 10 < 10 := Nat.mod_lt n (by decide)
  rw [natDigits, Nat.toDigits_of_base_le (by decide) h, List.map_append, natDigits, natDigits,
    Nat.toDigits_of_lt_base hmod]

/-- `n` printed ends in the digits of `n`'s parts: the induction over the
digits of a number. -/
theorem natDigits_induction {P : ℕ → Prop} (hdigit : ∀ n < 10, P n)
    (happend : ∀ n, 10 ≤ n → P (n / 10) → P n) (n : ℕ) : P n := by
  induction n using Nat.strong_induction_on with
  | _ n ih =>
    by_cases h : n < 10
    · exact hdigit n h
    · exact happend n (by omega) (ih (n / 10) (by omega))

theorem digitValue_ofNat {n : ℕ} (h : n < 10) : digitValue (UInt8.ofNat (48 + n)) = n := by
  interval_cases n <;> rfl

theorem le_of_digitValue_lt {b : UInt8} (h : digitValue b < 10) : 0x30 ≤ b ∧ b ≤ 0x39 := by
  rw [digitValue] at h
  split_ifs at h with hten hupper hlower
  · exact hten
  · omega
  · omega
  · omega

theorem digitValue_lt_of_mem {n : ℕ} : ∀ b ∈ natDigits n, digitValue b < 10 := by
  induction n using natDigits_induction with
  | hdigit n h =>
    intro b hb
    rw [natDigits_of_lt h, List.mem_singleton] at hb
    rw [hb, digitValue_ofNat h]
    exact h
  | happend n h ih =>
    have hmod : n % 10 < 10 := Nat.mod_lt n (by decide)
    intro b hb
    rw [natDigits_of_le h, List.mem_append, natDigits_of_lt hmod, List.mem_singleton] at hb
    rcases hb with hb | rfl
    · exact ih b hb
    · rwa [digitValue_ofNat hmod]

theorem length_natDigits_le_iff {n k : ℕ} (hk : 0 < k) :
    (natDigits n).length ≤ k ↔ n < 10 ^ k := by
  rw [natDigits, List.length_map, Nat.length_toDigits_le_iff (by decide) hk]

theorem natDigits_ne_nil (n : ℕ) : natDigits n ≠ [] := by
  simp [natDigits]

theorem length_natDigits_pos (n : ℕ) : 0 < (natDigits n).length :=
  List.length_pos_iff.mpr (natDigits_ne_nil n)

theorem zero_notMem_natDigits (n : ℕ) : 0 ∉ natDigits n := fun h =>
  absurd (digitValue_lt_of_mem 0 h) (by decide)

theorem zero_notMem_decimal (n : ℤ) : 0 ∉ decimal n := by
  by_cases h : 0 ≤ n
  · rw [decimal_of_nonneg h]
    exact zero_notMem_natDigits n.toNat
  · rw [decimal_of_neg (by omega), List.mem_cons, not_or]
    exact ⟨by decide, zero_notMem_natDigits (-n).toNat⟩

/-! ## Values -/

theorem value_append (base : ℕ) (xs ys : List UInt8) :
    value base (xs ++ ys) = value base xs * base ^ ys.length + value base ys := by
  induction ys using List.reverseRecOn generalizing xs with
  | nil => simp [value]
  | append_singleton ys y ih =>
    have hstep (zs : List UInt8) :
        value base (zs ++ [y]) = value base zs * base + digitValue y := by
      simp only [value, List.foldl_append, List.foldl_cons, List.foldl_nil]
    rw [← List.append_assoc, hstep, ih, hstep, List.length_append, List.length_singleton, pow_succ]
    ring

theorem value_natDigits (n : ℕ) : value 10 (natDigits n) = n := by
  have hdigit {m : ℕ} (h : m < 10) : value 10 (natDigits m) = m := by
    rw [natDigits_of_lt h, value, List.foldl_cons, List.foldl_nil, digitValue_ofNat h]
    omega
  induction n using natDigits_induction with
  | hdigit n h => exact hdigit h
  | happend n h ih =>
    have hmod : n % 10 < 10 := Nat.mod_lt n (by decide)
    rw [natDigits_of_le h, value_append, ih, hdigit hmod, natDigits_of_lt hmod,
      List.length_singleton, pow_one]
    omega

theorem value_lt {base : ℕ} {bs : List UInt8} (h : ∀ b ∈ bs, digitValue b < base) :
    value base bs < base ^ bs.length := by
  induction bs using List.reverseRecOn with
  | nil => simp [value]
  | append_singleton bs b ih =>
    have hlast : digitValue b < base := h b (by simp)
    have hinit := ih fun c hc => h c (List.mem_append_left _ hc)
    have hone : value base [b] = digitValue b := by simp [value]
    rw [value_append, List.length_append, List.length_singleton, pow_one, hone, pow_succ]
    calc value base bs * base + digitValue b < value base bs * base + base := by omega
      _ = (value base bs + 1) * base := by ring
      _ ≤ base ^ bs.length * base := Nat.mul_le_mul_right base hinit

theorem digits_of_all {base : ℕ} {bs : List UInt8} (h : ∀ b ∈ bs, digitValue b < base) :
    digits base bs = bs := by
  rw [digits, List.takeWhile_eq_self_iff]
  exact fun b hb => decide_eq_true (h b hb)

/-! ## Reading back what was printed -/

/-- A digit is no white space and no sign. -/
theorem isSpace_of_digit {b : UInt8} (h : digitValue b < 10) :
    isSpace b = false ∧ b ≠ 0x2d ∧ b ≠ 0x2b := by
  obtain ⟨hlo, hhi⟩ := le_of_digitValue_lt h
  rw [UInt8.le_iff_toNat_le] at hlo hhi
  simp only [isSpace, decide_eq_false_iff_not, not_or, not_and, UInt8.le_iff_toNat_le,
    ne_eq, ← UInt8.toNat_inj]
  simp only [UInt8.reduceToNat] at hlo hhi ⊢
  omega

theorem readBase_ten (bs : List UInt8) : readBase 10 bs = (10, bs) := by
  simp [readBase]

/-- A string of digits is read to its end. -/
theorem parse_of_digits {base : ℕ} {bs : List UInt8} (hne : bs ≠ [])
    (hbase : readBase base bs = (10, bs)) (h : ∀ b ∈ bs, digitValue b < 10) :
    parse base bs = ⟨value 10 bs, []⟩ := by
  obtain ⟨b, bs, rfl⟩ := List.exists_cons_of_ne_nil hne
  obtain ⟨hspace, hminus, hplus⟩ := isSpace_of_digit (h b List.mem_cons_self)
  have hskip : (b :: bs).dropWhile isSpace = b :: bs := by
    rw [List.dropWhile_cons, hspace, if_neg Bool.false_ne_true]
  have hsign : readSign (b :: bs) = (false, b :: bs) := by
    simp [readSign, hminus, hplus]
  simp only [parse, hskip, hsign, hbase, digits_of_all h]
  simp

/-- A string of digits after a minus sign is read to its end. -/
theorem parse_of_minus_digits {base : ℕ} {bs : List UInt8} (hne : bs ≠ [])
    (hbase : readBase base bs = (10, bs)) (h : ∀ b ∈ bs, digitValue b < 10) :
    parse base (0x2d :: bs) = ⟨-value 10 bs, []⟩ := by
  have hskip : (0x2d :: bs).dropWhile isSpace = 0x2d :: bs := rfl
  have hsign : readSign (0x2d :: bs) = (true, bs) := rfl
  simp only [parse, hskip, hsign, hbase, digits_of_all h]
  simp [hne]

/-- Reading a string of digits. -/
theorem parse_digits {bs : List UInt8} (h : ∀ b ∈ bs, digitValue b < 10) :
    (parse 10 bs).number = value 10 bs := by
  cases bs with
  | nil => rfl
  | cons b bs => rw [parse_of_digits (List.cons_ne_nil b bs) (readBase_ten _) h]

/-- Reading a string of digits after a minus sign. -/
theorem parse_minus_digits {bs : List UInt8} (h : ∀ b ∈ bs, digitValue b < 10) :
    (parse 10 (0x2d :: bs)).number = -value 10 bs := by
  cases bs with
  | nil => rfl
  | cons b bs => rw [parse_of_minus_digits (List.cons_ne_nil b bs) (readBase_ten _) h]

/-- A number that is not zero does not begin with a zero. -/
theorem head_natDigits {n : ℕ} (h : 0 < n) : (natDigits n).head? ≠ some 0x30 := by
  induction n using natDigits_induction with
  | hdigit n hlt =>
    rw [natDigits_of_lt hlt]
    interval_cases n <;> decide
  | happend n hle ih =>
    rw [natDigits_of_le hle, List.head?_append_of_ne_nil _ (natDigits_ne_nil _)]
    exact ih (by omega)

/-- The base of such a number is read off its digits. -/
theorem readBase_zero_of_head {bs : List UInt8} (h : bs.head? ≠ some 0x30) :
    readBase 0 bs = (10, bs) := by
  simp [readBase, hexPrefixed, h]

/-- A printed number other than zero is read back with any base that is read
off. -/
theorem parse_zero_decimal {n : ℤ} (h : n ≠ 0) : parse 0 (decimal n) = ⟨n, []⟩ := by
  rcases lt_or_gt_of_ne h with hneg | hpos
  · have hbase := readBase_zero_of_head (head_natDigits (n := (-n).toNat) (by omega))
    rw [decimal_of_neg hneg,
      parse_of_minus_digits (natDigits_ne_nil _) hbase digitValue_lt_of_mem, value_natDigits]
    congr 1
    omega
  · have hbase := readBase_zero_of_head (head_natDigits (n := n.toNat) (by omega))
    rw [decimal_of_nonneg hpos.le,
      parse_of_digits (natDigits_ne_nil _) hbase digitValue_lt_of_mem, value_natDigits]
    congr 1
    omega

/-- Cutting off digits leaves a number. -/
theorem exists_take_natDigits {n : ℕ} (h : 0 < n) (k : ℕ) :
    ∃ m, 0 < m ∧ (natDigits n).take (k + 1) = natDigits m := by
  induction n using natDigits_induction with
  | hdigit n hlt =>
    refine ⟨n, h, List.take_of_length_le ?_⟩
    rw [natDigits_of_lt hlt, List.length_singleton]
    omega
  | happend n hle ih =>
    by_cases hshort : (natDigits n).length ≤ k + 1
    · exact ⟨n, h, List.take_of_length_le hshort⟩
    · obtain ⟨m, hm, htake⟩ := ih (by omega)
      refine ⟨m, hm, ?_⟩
      have hlast : n % 10 < 10 := Nat.mod_lt n (by decide)
      rw [natDigits_of_le hle, natDigits_of_lt hlast] at hshort ⊢
      rw [List.length_append, List.length_singleton] at hshort
      rw [List.take_append_of_le_length (by omega), htake]

/-- Cutting off all but a digit at least of a printed number leaves a number. -/
theorem exists_take_decimal {n : ℤ} (h : n ≠ 0) (k : ℕ) :
    ∃ m, m ≠ 0 ∧ (decimal n).take (k + 2) = decimal m := by
  rcases lt_or_gt_of_ne h with hneg | hpos
  · obtain ⟨m, hm, htake⟩ := exists_take_natDigits (n := (-n).toNat) (by omega) k
    refine ⟨-m, by omega, ?_⟩
    rw [decimal_of_neg hneg, List.take_succ_cons, htake, decimal_of_neg (by omega), neg_neg,
      Int.toNat_natCast]
  · obtain ⟨m, hm, htake⟩ := exists_take_natDigits (n := n.toNat) (by omega) (k + 1)
    refine ⟨m, by omega, ?_⟩
    rw [decimal_of_nonneg hpos.le, htake, decimal_of_nonneg (Int.natCast_nonneg m),
      Int.toNat_natCast]

theorem length_decimal_le_iff {n : ℤ} {k : ℕ} :
    (decimal n).length ≤ k + 1 ↔ -10 ^ k < n ∧ n < 10 ^ (k + 1) := by
  by_cases h : 0 ≤ n
  · have hcast : n < 10 ^ (k + 1) ↔ n.toNat < 10 ^ (k + 1) := by
      rw [Int.toNat_lt h]
      norm_cast
    have hpow : (0 : ℤ) < 10 ^ k := by positivity
    rw [decimal_of_nonneg h, length_natDigits_le_iff k.succ_pos, hcast]
    constructor
    · intro hlt
      exact ⟨by omega, hlt⟩
    · exact And.right
  · have hneg : n < 0 := by omega
    have hpow : (0 : ℤ) < 10 ^ (k + 1) := by positivity
    rw [decimal_of_neg hneg, List.length_cons, Nat.add_le_add_iff_right]
    cases k with
    | zero =>
      have hpos := length_natDigits_pos (-n).toNat
      constructor
      · intro hle
        omega
      · rintro ⟨hlo, -⟩
        omega
    | succ k =>
      have hcast : -10 ^ (k + 1) < n ↔ (-n).toNat < 10 ^ (k + 1) := by
        rw [Int.toNat_lt (by omega), neg_lt]
        norm_cast
      rw [length_natDigits_le_iff k.succ_pos, ← hcast]
      constructor
      · intro hlo
        exact ⟨hlo, by omega⟩
      · exact And.left

/-- The number that is read from the first `k + 1` characters of a printed
number is that number exactly if there are no more than these. -/
theorem parse_take_decimal {n : ℤ} {k : ℕ} :
    (parse 10 ((decimal n).take (k + 1))).number = n ↔ (decimal n).length ≤ k + 1 := by
  by_cases h : 0 ≤ n
  · have hdigits : ∀ b ∈ (natDigits n.toNat).take (k + 1), digitValue b < 10 :=
      fun b hb => digitValue_lt_of_mem b (List.mem_of_mem_take hb)
    rw [decimal_of_nonneg h, parse_digits hdigits]
    constructor
    · intro heq
      have hlt := value_lt hdigits
      have hle : 10 ^ ((natDigits n.toNat).take (k + 1)).length ≤ 10 ^ (k + 1) :=
        Nat.pow_le_pow_right (by decide) (List.length_take_le _ _)
      rw [length_natDigits_le_iff k.succ_pos]
      omega
    · intro hle
      rw [List.take_of_length_le hle, value_natDigits]
      omega
  · have hneg : n < 0 := by omega
    have hdigits : ∀ b ∈ (natDigits (-n).toNat).take k, digitValue b < 10 :=
      fun b hb => digitValue_lt_of_mem b (List.mem_of_mem_take hb)
    rw [decimal_of_neg hneg, List.take_succ_cons, parse_minus_digits hdigits, List.length_cons,
      Nat.add_le_add_iff_right]
    constructor
    · intro heq
      have hlt := value_lt hdigits
      have hle : 10 ^ ((natDigits (-n).toNat).take k).length ≤ 10 ^ k :=
        Nat.pow_le_pow_right (by decide) (List.length_take_le _ _)
      have hpos : 0 < k := by
        rcases Nat.eq_zero_or_pos k with rfl | hpos
        · simp [value] at heq
          omega
        · exact hpos
      rw [length_natDigits_le_iff hpos]
      omega
    · intro hle
      rw [List.take_of_length_le hle, value_natDigits]
      omega

/-- A string of digits stands for a number with no more digits. -/
theorem natAbs_parse_lt (bs : List UInt8) : (parse 10 bs).number.natAbs < 10 ^ bs.length := by
  have hdigits (xs : List UInt8) : value 10 (digits 10 xs) < 10 ^ xs.length := by
    have hall : ∀ b ∈ digits 10 xs, digitValue b < 10 := by
      intro b hb
      simpa using List.mem_takeWhile_imp hb
    exact lt_of_lt_of_le (value_lt hall)
      (Nat.pow_le_pow_right (by decide) (List.takeWhile_prefix _).length_le)
  have hshort : (readSign (bs.dropWhile isSpace)).2.length ≤ bs.length := by
    have hskip := List.length_dropWhile_le isSpace bs
    rw [readSign]
    split_ifs
    · exact (List.tail_sublist _).length_le.trans hskip
    · exact (List.tail_sublist _).length_le.trans hskip
    · exact hskip
  have hlt := lt_of_lt_of_le (hdigits (readSign (bs.dropWhile isSpace)).2)
    (Nat.pow_le_pow_right (by decide) hshort)
  simp only [parse, readBase_ten]
  split_ifs
  · exact Nat.pow_pos (by decide)
  · rwa [Int.natAbs_neg, Int.natAbs_natCast]
  · rwa [Int.natAbs_natCast]

/-- The number in a string of at most 18 characters is in the range of `long`. -/
theorem strtol_of_length_le {bs : List UInt8} (h : bs.length ≤ 18) :
    strtol 10 bs = (parse 10 bs).number := by
  have hlt := natAbs_parse_lt bs
  have hle : 10 ^ bs.length ≤ 10 ^ 18 := Nat.pow_le_pow_right (by decide) h
  rw [strtol, longMin, longMax]
  omega

/-- A printed number of at most 18 characters is read back. -/
theorem strtol_decimal {n : ℤ} (h : (decimal n).length ≤ 18) : strtol 10 (decimal n) = n := by
  have htake : (decimal n).take (17 + 1) = decimal n := List.take_of_length_le h
  rw [strtol_of_length_le h, ← htake, parse_take_decimal]
  exact h

theorem strtol_take_decimal {n : ℤ} {k : ℕ} (hk : k < 18) :
    strtol 10 ((decimal n).take (k + 1)) = n ↔ -10 ^ k < n ∧ n < 10 ^ (k + 1) := by
  have hlength : ((decimal n).take (k + 1)).length ≤ 18 :=
    (List.length_take_le _ _).trans hk
  rw [strtol_of_length_le hlength, parse_take_decimal, length_decimal_le_iff]

/-! ## Strings that begin with an integer -/

/-- The string begins with an integer: white space, a sign and at least one digit,
of which the first two may be absent. -/
def BeginsWithInt (bs : List UInt8) : Prop :=
  ∃ blanks sign ds rest, bs = blanks ++ (sign ++ (ds ++ rest)) ∧
    (∀ b ∈ blanks, isSpace b = true) ∧ (sign = [] ∨ sign = [0x2b] ∨ sign = [0x2d]) ∧
    ds ≠ [] ∧ ∀ b ∈ ds, digitValue b < 10

theorem readSign_eq (bs : List UInt8) :
    ∃ sign, bs = sign ++ (readSign bs).2 ∧ (sign = [] ∨ sign = [0x2b] ∨ sign = [0x2d]) := by
  rw [readSign]
  split_ifs with hminus hplus
  · exact ⟨[0x2d], List.eq_cons_of_mem_head? hminus, .inr (.inr rfl)⟩
  · exact ⟨[0x2b], List.eq_cons_of_mem_head? hplus, .inr (.inl rfl)⟩
  · exact ⟨[], rfl, .inl rfl⟩

/-- A number is read from the strings that begin with an integer. -/
theorem beginsWithInt_iff (bs : List UInt8) :
    BeginsWithInt bs ↔ digits 10 (readSign (bs.dropWhile isSpace)).2 ≠ [] := by
  constructor
  · rintro ⟨blanks, sign, ds, rest, rfl, hblanks, hsign, hne, hds⟩
    obtain ⟨d, ds, rfl⟩ := List.exists_cons_of_ne_nil hne
    have hd : digitValue d < 10 := hds d List.mem_cons_self
    obtain ⟨hspace, hminus, hplus⟩ := isSpace_of_digit hd
    have hread : (readSign ((blanks ++ (sign ++ (d :: ds ++ rest))).dropWhile isSpace)).2 =
        d :: ds ++ rest := by
      rw [List.dropWhile_append_of_pos hblanks]
      rcases hsign with rfl | rfl | rfl
      · simp [hspace, readSign, hminus, hplus]
      · simp [isSpace, readSign]
      · simp [isSpace, readSign]
    rw [hread, List.cons_append, digits, List.takeWhile_cons, if_pos (decide_eq_true hd)]
    exact List.cons_ne_nil _ _
  · intro hne
    obtain ⟨sign, hsigned, hsign⟩ := readSign_eq (bs.dropWhile isSpace)
    refine ⟨bs.takeWhile isSpace, sign, digits 10 (readSign (bs.dropWhile isSpace)).2,
      (readSign (bs.dropWhile isSpace)).2.dropWhile fun b => decide (digitValue b < 10), ?_,
      fun b hb => List.mem_takeWhile_imp hb, hsign, hne, fun b hb => ?_⟩
    · rw [digits, List.takeWhile_append_dropWhile, ← hsigned, List.takeWhile_append_dropWhile]
    · exact of_decide_eq_true
        (List.mem_takeWhile_imp (p := fun b => decide (digitValue b < 10)) hb)

end Numeral
