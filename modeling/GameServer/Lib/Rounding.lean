/-
Module: GameServer.Lib.Rounding
Purpose: Arithmetic whose results are rounded: exact arithmetic, and that of doubles; and numbers as text.
Trusted boundary: results are rounded to the nearest number of the format, and in a tie to the even one; they neither
  overflow nor underflow
Main exports: Rounding, Rounding.exact, Rounding.Keeps, Rounding.foldl_add, roundEven, roundTo, roundTo_intCast,
  Rounding.binary64, Arithmetic, Numbers, Numbers.binary64
-/
import Mathlib.Data.Int.Log
import Mathlib.Data.Rat.Floor
import Mathlib.Tactic.Linarith

namespace GameServer.Lib

/-! ## Arithmetic

An operation on numbers gives the exact result, rounded to a number of the format.  What follows of that alone is
proved of any rounding; whole numbers of up to 53 bits are in every format that is considered here.
-/

/-- How results are rounded.  Signs are kept, and so are the whole numbers up to 2^53. -/
structure Rounding where
  round : ℚ → ℚ
  nonneg : ∀ q, 0 ≤ q → 0 ≤ round q
  intCast : ∀ n : ℤ, n.natAbs ≤ 2 ^ 53 → round n = n

namespace Rounding

variable (r : Rounding)

def add (a b : ℚ) : ℚ := r.round (a + b)

def sub (a b : ℚ) : ℚ := r.round (a - b)

def mul (a b : ℚ) : ℚ := r.round (a * b)

def div (a b : ℚ) : ℚ := r.round (a / b)

/-- Numbers are kept as they are. -/
def exact : Rounding where
  round q := q
  nonneg _ nonneg := nonneg
  intCast _ _ := rfl

@[simp]
theorem add_exact (a b : ℚ) : exact.add a b = a + b := rfl

@[simp]
theorem sub_exact (a b : ℚ) : exact.sub a b = a - b := rfl

@[simp]
theorem mul_exact (a b : ℚ) : exact.mul a b = a * b := rfl

@[simp]
theorem div_exact (a b : ℚ) : exact.div a b = a / b := rfl

@[simp]
theorem round_exact (a : ℚ) : exact.round a = a := rfl

/-- Zero is kept. -/
theorem round_zero : r.round 0 = 0 := by
  have zero := r.intCast 0 (Nat.zero_le _)
  rwa [Int.cast_zero] at zero

/-- A number of the format, which an operation that gives it need not round. -/
def Keeps (q : ℚ) : Prop := r.round q = q

instance (q : ℚ) : Decidable (r.Keeps q) := inferInstanceAs (Decidable (_ = _))

theorem keeps_exact (q : ℚ) : exact.Keeps q := rfl

theorem keeps_natCast {n : ℕ} (short : n ≤ 2 ^ 53) : r.Keeps n := r.intCast n short

/-- Adding from the left gives the sum, when each of the sums on the way is a number of the format. -/
theorem foldl_add {l : List ℚ} (keeps : ∀ k, r.Keeps (l.take k).sum) : l.foldl r.add 0 = l.sum := by
  have gathered : ∀ (l : List ℚ) (acc : ℚ), (∀ k, r.Keeps (acc + (l.take k).sum)) →
      l.foldl r.add acc = acc + l.sum := by
    intro l
    induction l with
    | nil =>
        intro acc _
        exact (add_zero acc).symm
    | cons x l ih =>
        intro acc kept
        have first : r.add acc x = acc + x := by simpa [Keeps, add] using kept 1
        rw [List.foldl_cons, first, ih, List.sum_cons, add_assoc]
        intro k
        simpa [add_assoc] using kept (k + 1)
  simpa using gathered l 0 (by simpa using keeps)

end Rounding

/-! ## Digits

A number is rounded to a number of digits, bits for a double, from its first one on.
-/

/-- The nearest whole number, and of two nearest ones the even one. -/
def roundEven (q : ℚ) : ℤ :=
  if q - ⌊q⌋ < 1 / 2 then ⌊q⌋
  else if 1 / 2 < q - ⌊q⌋ then ⌊q⌋ + 1
  else if ⌊q⌋ % 2 = 0 then ⌊q⌋
  else ⌊q⌋ + 1

/-- Whole numbers are their own neighbours. -/
theorem roundEven_intCast (n : ℤ) : roundEven n = n := by
  rw [roundEven, Int.floor_intCast, sub_self]
  exact if_pos (by norm_num)

theorem roundEven_nonneg {q : ℚ} (nonneg : 0 ≤ q) : 0 ≤ roundEven q := by
  have floor : 0 ≤ ⌊q⌋ := Int.floor_nonneg.mpr nonneg
  unfold roundEven
  split
  · exact floor
  · split
    · omega
    · split <;> omega

/-- The distance is at most one half. -/
theorem abs_roundEven_sub_le (q : ℚ) : |roundEven q - q| ≤ 1 / 2 := by
  have below := Int.floor_le q
  have above := Int.lt_floor_add_one q
  rw [abs_le]
  unfold roundEven
  split
  · constructor <;> linarith
  · split
    · push_cast
      constructor <;> linarith
    · split
      · constructor <;> linarith
      · push_cast
        constructor <;> linarith

section Digits

variable (b p : ℕ)

/-- The last of the `p` digits of a number to the base `b` stands for this power of it. -/
def lastDigit (q : ℚ) : ℤ := Int.log b |q| + 1 - p

/-- The number with its first `p` digits to the base `b`. -/
def roundTo (q : ℚ) : ℚ := roundEven (q / b ^ lastDigit b p q) * b ^ lastDigit b p q

theorem roundTo_nonneg {q : ℚ} (nonneg : 0 ≤ q) : 0 ≤ roundTo b p q := by
  have unit : (0 : ℚ) ≤ b ^ lastDigit b p q := zpow_nonneg (Nat.cast_nonneg b) _
  have whole : 0 ≤ roundEven (q / b ^ lastDigit b p q) := roundEven_nonneg (div_nonneg nonneg unit)
  exact mul_nonneg (by exact_mod_cast whole) unit

variable {b p}

/-- Rounding changes a number by half of its last digit at most. -/
theorem abs_roundTo_sub_le (base : 1 < b) {q : ℚ} : |roundTo b p q - q| ≤ b ^ lastDigit b p q / 2 := by
  have unit : (0 : ℚ) < b ^ lastDigit b p q := zpow_pos (by exact_mod_cast zero_lt_one.trans base) _
  have scaled : roundTo b p q - q =
      (roundEven (q / b ^ lastDigit b p q) - q / b ^ lastDigit b p q) * b ^ lastDigit b p q := by
    rw [roundTo, sub_mul, div_mul_cancel₀ _ unit.ne']
  rw [scaled, abs_mul, abs_of_pos unit]
  have half := mul_le_mul_of_nonneg_right (abs_roundEven_sub_le (q / b ^ lastDigit b p q)) unit.le
  linarith

/-- Below a power of the base the last digit is known. -/
theorem abs_roundTo_sub_le_of_lt (base : 1 < b) {q : ℚ} {k : ℤ} (nonneg : 0 ≤ q) (small : q < b ^ k) :
    |roundTo b p q - q| ≤ b ^ (k - p) / 2 := by
  have oneLe : (1 : ℚ) ≤ b := by exact_mod_cast base.le
  rcases nonneg.eq_or_lt with rfl | positive
  · have kept : roundTo b p 0 = 0 := by
      have zero : roundEven 0 = 0 := by exact_mod_cast roundEven_intCast 0
      rw [roundTo, zero_div, zero, Int.cast_zero, zero_mul]
    rw [kept, sub_zero, abs_zero]
    exact div_nonneg (zpow_nonneg (Nat.cast_nonneg b) _) zero_le_two
  · have digits : Int.log b q < k := (Int.lt_zpow_iff_log_lt base positive).mp small
    have last : lastDigit b p q ≤ k - p := by
      rw [lastDigit, abs_of_pos positive]
      omega
    have power : (b : ℚ) ^ lastDigit b p q ≤ b ^ (k - p) := zpow_le_zpow_right₀ oneLe last
    have error := abs_roundTo_sub_le (p := p) base (q := q)
    linarith

/-- A multiple of the last digit is kept. -/
theorem roundTo_of_multiple (base : 1 < b) {q : ℚ} {k : ℤ} (multiple : q / b ^ lastDigit b p q = k) :
    roundTo b p q = q := by
  have nonzero : (b : ℚ) ^ lastDigit b p q ≠ 0 := zpow_ne_zero _ (by exact_mod_cast (zero_lt_one.trans base).ne')
  rw [roundTo, multiple, roundEven_intCast, ← multiple, div_mul_cancel₀ _ nonzero]

/-- A whole number up to `b ^ p` has at most `p` digits, or it is `b ^ p`, whose last digit is a zero. -/
theorem lastDigit_intCast (base : 1 < b) {n : ℤ} (nonzero : n ≠ 0) (short : n.natAbs ≤ b ^ p) :
    lastDigit b p n ≤ 0 ∨ lastDigit b p n = 1 ∧ n.natAbs = b ^ p := by
  have positive : (0 : ℚ) < |(n : ℚ)| := by
    rw [abs_pos]
    exact_mod_cast nonzero
  have size : |(n : ℚ)| = (n.natAbs : ℚ) := by
    rw [← Int.cast_abs, Int.abs_eq_natAbs, Int.cast_natCast]
  have below : (b : ℚ) ^ Int.log b |(n : ℚ)| ≤ n.natAbs := by
    rw [← size]
    exact_mod_cast Int.zpow_log_le_self base positive
  have most : (n.natAbs : ℚ) ≤ (b : ℚ) ^ (p : ℤ) := by
    rw [zpow_natCast]
    exact_mod_cast short
  have exponent : Int.log b |(n : ℚ)| ≤ p :=
    (zpow_le_zpow_iff_right₀ (by exact_mod_cast base)).mp (below.trans most)
  unfold lastDigit
  rcases lt_or_eq_of_le exponent with less | last
  · exact Or.inl (by omega)
  · refine Or.inr ⟨by omega, le_antisymm short ?_⟩
    rw [last, zpow_natCast] at below
    exact_mod_cast below

/-- Whole numbers of at most `p` digits are kept. -/
theorem roundTo_intCast (base : 1 < b) (digit : 0 < p) (n : ℤ) (short : n.natAbs ≤ b ^ p) : roundTo b p n = n := by
  by_cases zero : n = 0
  · rw [zero, Int.cast_zero, roundTo, zero_div]
    have none : roundEven 0 = 0 := by exact_mod_cast roundEven_intCast 0
    rw [none, Int.cast_zero, zero_mul]
  · rcases lastDigit_intCast base zero short with small | ⟨one, large⟩
    · obtain ⟨k, isDigit⟩ := Int.eq_ofNat_of_zero_le (Int.neg_nonneg_of_nonpos small)
      have multiple : (n : ℚ) / b ^ lastDigit b p (n : ℚ) = ((n * b ^ k : ℤ) : ℚ) := by
        have power : lastDigit b p (n : ℚ) = -(k : ℤ) := by omega
        rw [power, zpow_neg, div_inv_eq_mul, zpow_natCast]
        push_cast
        rfl
      exact roundTo_of_multiple base multiple
    · have part : ∃ k : ℤ, n = b * k := by
        have power : b ^ p = b * b ^ (p - 1) := by rw [← pow_succ', Nat.sub_add_cancel digit]
        rcases Int.natAbs_eq n with same | same
        · exact ⟨b ^ (p - 1), by rw [same, large, power]; push_cast; rfl⟩
        · exact ⟨-b ^ (p - 1), by rw [same, large, power]; push_cast; ring⟩
      obtain ⟨k, isMultiple⟩ := part
      have multiple : (n : ℚ) / b ^ lastDigit b p (n : ℚ) = (k : ℚ) := by
        rw [one, zpow_one, isMultiple]
        push_cast
        exact mul_div_cancel_left₀ _ (by exact_mod_cast (zero_lt_one.trans base).ne')
      exact roundTo_of_multiple base multiple

end Digits

/-- The arithmetic of doubles, which have 53 bits. -/
def Rounding.binary64 : Rounding where
  round := roundTo 2 53
  nonneg _ := roundTo_nonneg 2 53
  intCast := roundTo_intCast one_lt_two (by decide)

/-- 0.1 is not a tenth. -/
example : Rounding.binary64.round (1 / 10) = 3602879701896397 / 36028797018963968 := by decide +kernel

/-! ## The arithmetic of a program

A program is written once, over the rounding that all its operations pass through; what is proved of it holds in every
arithmetic, or in the one whose name is opened.
-/

/-- The arithmetic a program runs in. -/
class Arithmetic where
  rounding : Rounding

namespace ExactArithmetic

scoped instance exact : Arithmetic := ⟨.exact⟩

@[simp]
theorem rounding_eq : Arithmetic.rounding = Rounding.exact := rfl

end ExactArithmetic

namespace DoubleArithmetic

scoped instance binary64 : Arithmetic := ⟨.binary64⟩

end DoubleArithmetic

/-! ## Numbers as text

A number is written with a limited number of decimal digits, so a text does not give every number back.
-/

/-- An arithmetic, with the number that is read where the text of a number was written. -/
structure Numbers extends Rounding where
  text : ℚ → ℚ
  text_intCast : ∀ n : ℤ, n.natAbs ≤ 10 ^ 14 → text n = n

/-- Doubles, written with 14 digits. -/
def Numbers.binary64 : Numbers where
  toRounding := .binary64
  text q := roundTo 2 53 (roundTo 10 14 q)
  text_intCast n short := by
    rw [roundTo_intCast (by decide) (by decide) n short]
    exact roundTo_intCast one_lt_two (by decide) n (short.trans (by decide))

/-- A sum of tenths loses its last digits. -/
example : Numbers.binary64.text (Rounding.binary64.add (Rounding.binary64.round (1 / 10))
    (Rounding.binary64.round (1 / 5))) = Rounding.binary64.round (3 / 10) := by
  decide +kernel

end GameServer.Lib
