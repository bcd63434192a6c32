/-
Module: GameServer.Lib.LuaNumber
Purpose: Lua numbers: exact where they are finite, with the two infinities and NaN.
Trusted boundary: no rounding, and one zero
Main exports: LuaNumber, LuaNumber.lt, LuaNumber.eq, LuaNumber.floor, LuaNumber.add, LuaNumber.sub,
  LuaNumber.le, LuaNumber.mul, range_or_nan, IsWhole
-/
import Mathlib.Data.Rat.Floor
import Mathlib.Tactic.Linarith

namespace GameServer.Lib

inductive LuaNumber where
  | finite (q : ℚ)
  | posInf
  | negInf
  | nan
deriving DecidableEq

namespace LuaNumber

instance (n : Nat) : OfNat LuaNumber n where
  ofNat := .finite n

@[simp] theorem ofNat_eq (n : Nat) : (OfNat.ofNat n : LuaNumber) = .finite n := rfl

/-- `<`, which is false when a side is NaN. -/
def lt : LuaNumber → LuaNumber → Bool
  | .finite a, .finite b => a < b
  | .finite _, .posInf => true
  | .negInf, .finite _ => true
  | .negInf, .posInf => true
  | _, _ => false

/-- `==`: NaN is not even equal to itself. -/
def eq : LuaNumber → LuaNumber → Bool
  | .finite a, .finite b => a = b
  | .posInf, .posInf => true
  | .negInf, .negInf => true
  | _, _ => false

/-- `<=`, which is false when a side is NaN. -/
def le (a b : LuaNumber) : Bool := a.lt b || a.eq b

/-- `math.floor`. -/
def floor : LuaNumber → LuaNumber
  | .finite q => .finite ⌊q⌋
  | n => n

def neg : LuaNumber → LuaNumber
  | .finite q => .finite (-q)
  | .posInf => .negInf
  | .negInf => .posInf
  | .nan => .nan

def add : LuaNumber → LuaNumber → LuaNumber
  | .finite a, .finite b => .finite (a + b)
  | .nan, _ => .nan
  | _, .nan => .nan
  | .posInf, .negInf => .nan
  | .negInf, .posInf => .nan
  | .posInf, _ => .posInf
  | _, .posInf => .posInf
  | .negInf, _ => .negInf
  | _, .negInf => .negInf

def sub (a b : LuaNumber) : LuaNumber := add a (neg b)

/-- The product of positive infinity and a finite number. -/
def infTimes (q : ℚ) : LuaNumber := if q > 0 then .posInf else if q < 0 then .negInf else .nan

def mul : LuaNumber → LuaNumber → LuaNumber
  | .finite a, .finite b => .finite (a * b)
  | .nan, _ => .nan
  | _, .nan => .nan
  | .finite a, .posInf => infTimes a
  | .posInf, .finite a => infTimes a
  | .finite a, .negInf => neg (infTimes a)
  | .negInf, .finite a => neg (infTimes a)
  | .posInf, .posInf => .posInf
  | .negInf, .negInf => .posInf
  | .posInf, .negInf => .negInf
  | .negInf, .posInf => .negInf

/-- Equal numbers are the same. -/
theorem eq_of_eq {a b : LuaNumber} (equal : a.eq b = true) : a = b := by
  cases a <;> cases b <;> simp_all [eq]

theorem eq_same {a : LuaNumber} (ordered : a ≠ nan) : a.eq a = true := by
  cases a <;> simp_all [eq]

@[simp] theorem lt_finite (a b : ℚ) : lt (.finite a) (.finite b) = decide (a < b) := rfl

@[simp] theorem le_finite (a b : ℚ) : le (.finite a) (.finite b) = decide (a ≤ b) := by
  simp only [le, lt, eq]
  rw [← Bool.decide_or]
  exact decide_eq_decide.mpr le_iff_lt_or_eq.symm

/-- A number that passes a range test written with negated comparisons is in the range or NaN. -/
theorem range_or_nan {low high : ℚ} {n : LuaNumber} (notBelow : le n (.finite low) = false)
    (notAbove : lt (.finite high) n = false) : (∃ q, n = .finite q ∧ low < q ∧ q ≤ high) ∨ n = nan := by
  cases n with
  | finite q =>
      rw [le_finite] at notBelow
      rw [lt_finite] at notAbove
      exact .inl ⟨q, rfl, not_le.mp (of_decide_eq_false notBelow), not_lt.mp (of_decide_eq_false notAbove)⟩
  | posInf => simp [lt] at notAbove
  | negInf => simp [le, lt] at notBelow
  | nan => exact .inr rfl

/-- A number that is not a fraction, and finite. -/
def IsWhole (n : LuaNumber) : Prop := ∃ k : Nat, n = .finite k

/-- What is neither negative nor above its own floor is whole, infinite or NaN. -/
theorem whole_or_of_not_lt_of_not_floor_lt {n : LuaNumber} (nonnegative : lt n 0 = false)
    (noFraction : lt (floor n) n = false) : IsWhole n ∨ n = posInf ∨ n = nan := by
  cases n with
  | finite q =>
      have least : (0 : ℚ) ≤ q := by simpa [lt] using nonnegative
      have below : q ≤ ⌊q⌋ := by simpa [lt, floor] using noFraction
      have whole : (⌊q⌋ : ℚ) = q := le_antisymm (Int.floor_le q) below
      have floorNonneg : 0 ≤ ⌊q⌋ := Int.floor_nonneg.mpr least
      obtain ⟨k, floorIs⟩ := Int.eq_ofNat_of_zero_le floorNonneg
      refine Or.inl ⟨k, ?_⟩
      rw [← whole, floorIs]
      simp
  | posInf => exact Or.inr (Or.inl rfl)
  | negInf => simp [lt] at nonnegative
  | nan => exact Or.inr (Or.inr rfl)

end LuaNumber

end GameServer.Lib
