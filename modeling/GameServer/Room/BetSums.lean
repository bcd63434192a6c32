/-
Module: GameServer.Room.BetSums
Purpose: The sums of a table's bets, and the bets whose sums need no rounding.
Trusted boundary: as for the tables; no sum is above the largest number of the format
Main exports: Table.betRow, Table.getSumOfUserBet_of_kept, Table.markBet_of_exactly, Exactly, exactly_of_whole, RowsKept
-/
import GameServer.Room.BullFightingTable

namespace GameServer.Room

open Lib Lib.LuaM Script
open Arithmetic (rounding)

/-- The bets of a user on the four positions. -/
def Table.betRow (t : Table) (nUserId : Int) : List ℚ := (t.tbUserBet nUserId).getD [0, 0, 0, 0]

/-- The row of a user with a bet added on a position. -/
def rowWith (t : Table) (nUserId nPosition : Int) (nBet : ℚ) : List ℚ :=
  (t.betRow nUserId).set (nPosition.toNat - 1) ((t.betRow nUserId).getD (nPosition.toNat - 1) 0 + nBet)

section Sums

variable [Arithmetic]

/-! ## Sums that need no rounding

The condition under which rounded sums are the exact ones, step by step.
-/

/-- A bet fits the numbers: the total of its position and the user's entry there, with the bet, are numbers of the
format, and so are the sums of the user's row, with the bet, from its first position on. -/
structure Exactly (t : Table) (nUserId nPosition : Int) (nBet : ℚ) : Prop where
  total : rounding.Keeps (t.tbPlayerBet.getD (nPosition.toNat - 1) 0 + nBet)
  entry : rounding.Keeps ((t.betRow nUserId).getD (nPosition.toNat - 1) 0 + nBet)
  sums : ∀ k ≤ 4, rounding.Keeps ((rowWith t nUserId nPosition nBet).take k).sum

instance (t : Table) (nUserId nPosition : Int) (nBet : ℚ) : Decidable (Exactly t nUserId nPosition nBet) :=
  decidable_of_iff
    (rounding.Keeps (t.tbPlayerBet.getD (nPosition.toNat - 1) 0 + nBet) ∧
      rounding.Keeps ((t.betRow nUserId).getD (nPosition.toNat - 1) 0 + nBet) ∧
      ∀ k ≤ 4, rounding.Keeps ((rowWith t nUserId nPosition nBet).take k).sum)
    ⟨fun h => ⟨h.1, h.2.1, h.2.2⟩, fun h => ⟨h.total, h.entry, h.sums⟩⟩

/-- The bets of every user are added up without rounding. -/
def RowsKept (t : Table) : Prop := ∀ u k, rounding.Keeps ((t.betRow u).take k).sum

/-- Whole bets fit, as long as the position and the user together have at most 2^53 on them. -/
theorem exactly_of_whole {t : Table} {u p : Int} {total nBet : ℕ} {row : List ℕ}
    (isTotal : t.tbPlayerBet.getD (p.toNat - 1) 0 = total) (isRow : t.betRow u = row.map (↑))
    (position : total + nBet ≤ 2 ^ 53) (user : row.sum + nBet ≤ 2 ^ 53) : Exactly t u p nBet := by
  have entry : (t.betRow u).getD (p.toNat - 1) 0 = (row.getD (p.toNat - 1) 0 : ℕ) := by
    rw [isRow, ← Nat.cast_zero, List.getD_map]
  have with_bet : rowWith t u p nBet = (row.set (p.toNat - 1) (row.getD (p.toNat - 1) 0 + nBet)).map (↑) := by
    rw [rowWith, entry, isRow, List.map_set, Nat.cast_add]
  have most : (row.set (p.toNat - 1) (row.getD (p.toNat - 1) 0 + nBet)).sum ≤ row.sum + nBet := by
    by_cases inside : p.toNat - 1 < row.length
    · have split : row.sum = (row.take (p.toNat - 1)).sum + row[p.toNat - 1] +
          (row.drop (p.toNat - 1 + 1)).sum := by
        rw [← List.sum_take_succ row _ inside, List.sum_take_add_sum_drop]
      rw [List.sum_set, if_pos inside, List.getD_eq_getElem _ _ inside]
      omega
    · rw [List.set_eq_of_length_le (by omega)]
      omega
  have part : row.getD (p.toNat - 1) 0 ≤ row.sum := by
    by_cases inside : p.toNat - 1 < row.length
    · rw [List.getD_eq_getElem _ _ inside]
      exact List.single_le_sum (by simp) _ (List.getElem_mem inside)
    · rw [List.getD_eq_default _ _ (by omega)]
      exact Nat.zero_le _
  constructor
  · rw [isTotal, ← Nat.cast_add]
    exact rounding.keeps_natCast position
  · rw [entry, ← Nat.cast_add]
    exact rounding.keeps_natCast (by omega)
  · intro k _
    rw [with_bet, ← List.map_take, ← Nat.cast_list_sum]
    exact rounding.keeps_natCast ((List.take_sublist _ _).sum_le_sum (by simp) |>.trans (by omega))

/-- Without bets there is nothing to add up. -/
theorem RowsKept.of_noBets {t : Table} (users : ∀ u, t.tbUserBet u = none) : RowsKept t := by
  intro u k
  have zero : (([0, 0, 0, 0] : List ℚ).take k).sum = 0 := by
    rcases k with _ | _ | _ | _ | k <;> simp
  rw [Table.betRow, users, Option.getD_none, zero]
  exact rounding.round_zero

namespace Table

/-! ## What the table makes of them

Where no sum is rounded, the bets are recorded and added up as they are.
-/

/-- Where no sum is rounded, the code's sum is the sum of the row. -/
theorem getSumOfUserBet_of_kept {t : Table} (kept : RowsKept t) (u : Int) : t.getSumOfUserBet u = (t.betRow u).sum := by
  have row := kept u
  unfold getSumOfUserBet betRow
  unfold betRow at row
  cases found : t.tbUserBet u with
  | none => simp
  | some tbUserBet =>
      rw [found, Option.getD_some] at row
      exact rounding.foldl_add row

/-- A bet that fits is added to the total of its position and to the user's entry, neither of which is rounded. -/
theorem markBet_of_exactly {t : Table} {u p : Int} (low : 0 < p) (high : p ≤ 4) {total nBet : ℚ}
    (found : t.tbPlayerBet[p.toNat - 1]? = some total) (exactly : Exactly t u p nBet) :
    t.markBet u p nBet = some { t with
      tbPlayerBet := t.tbPlayerBet.set (p.toNat - 1) (total + nBet)
      tbUserBet := Function.update t.tbUserBet u (some (rowWith t u p nBet)) } := by
  have sum : rounding.add total nBet = total + nBet := by
    have kept := exactly.total
    rwa [List.getD_eq_getElem?_getD, found, Option.getD_some] at kept
  have entry : rounding.add ((t.betRow u).getD (p.toNat - 1) 0) nBet = (t.betRow u).getD (p.toNat - 1) 0 + nBet :=
    exactly.entry
  unfold betRow at entry
  rw [markBet, if_pos ⟨low, high⟩]
  simp only [found, sum, entry]
  rfl

end Table

end Sums

end GameServer.Room
