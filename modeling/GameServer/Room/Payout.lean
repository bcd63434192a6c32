/-
Module: GameServer.Room.Payout
Purpose: What a settlement pays against what the odds it shows would pay, and when the two are the same.
Trusted boundary: as for the tables; the results are about exact numbers
Main exports: positionResults, payout, PaysByOdds, Covered, settleSeats_spec, paysByOdds_iff
-/
import GameServer.Room.BullFightingTable
import GameServer.Room.BullPoints

namespace GameServer.Room

open Lib Lib.LuaM Script
open Logic (SettlementRow)
open scoped ExactArithmetic

variable (cfg : RoomConfig)

/-! ## The results of the positions

Each player's hand is compared with the dealer's; the sign of the odds says who won.
-/

/-- The results of the players' hands that are sent to the clients: whether each beats the dealer's, which
is the first hand, and its `nWinOdds`. -/
def positionResults (hands : List (List Nat)) : List (Bool × ℚ) :=
  match hands with
  | [] => []
  | tbDealerCard :: tbPlayerCards =>
      tbPlayerCards.map fun tbPlayerCard => compareCard cfg.odds tbPlayerCard tbDealerCard

/-- The odds are those of the results. -/
theorem handOdds_eq (hands : List (List Nat)) :
    handOdds cfg hands = (positionResults cfg hands).map Prod.snd := by
  cases hands with
  | nil => rfl
  | cons tbDealerCard tbPlayerCards => simp [handOdds, positionResults]

/-- There is one result for each hand but the dealer's. -/
theorem length_positionResults (hands : List (List Nat)) :
    (positionResults cfg hands).length = hands.length - 1 := by
  cases hands with
  | nil => rfl
  | cons tbDealerCard tbPlayerCards => simp [positionResults]

/-- The odds tell the winner by their sign. -/
def Signed (result : Bool × ℚ) : Prop := if result.1 then 0 < result.2 else result.2 < 0

/-- The odds are those for the points of the winner. -/
theorem compareCard_eq (odds : Nat → ℚ) (tbCard1 tbCard2 : List Nat) :
    ∃ bFormerWin : Bool, compareCard odds tbCard1 tbCard2 =
      if bFormerWin then (true, odds (getBullPoint tbCard1).2.1)
      else (false, odds (getBullPoint tbCard2).2.1 * (-1)) := ⟨_, rfl⟩

theorem compareCard_signed {odds : Nat → ℚ} (positive : ∀ point ≤ 10, 0 < odds point)
    (tbCard1 tbCard2 : List Nat) : Signed (compareCard odds tbCard1 tbCard2) := by
  obtain ⟨bFormerWin, compared⟩ := compareCard_eq odds tbCard1 tbCard2
  rw [compared]
  cases bFormerWin with
  | true => exact positive _ (getBullPoint_le tbCard1)
  | false =>
      have loser := positive _ (getBullPoint_le tbCard2)
      simpa [Signed] using loser

theorem positionResults_signed (positive : ∀ point ≤ 10, 0 < cfg.odds point) (hands : List (List Nat)) :
    ∀ result ∈ positionResults cfg hands, Signed result := by
  intro result member
  cases hands with
  | nil => exact absurd member List.not_mem_nil
  | cons tbDealerCard tbPlayerCards =>
      obtain ⟨tbPlayerCard, -, rfl⟩ := List.mem_map.mp member
      exact compareCard_signed positive tbPlayerCard tbDealerCard

/-! ## The sums of a user's bets

What a settlement adds up for a user, and what it would be by the odds. The difference is what the two inner loops of
`Settlement` leave out.
-/

/-- What the bets bring by the odds: the bet times the odds at every position, less the commission where
it is won. -/
def oddsSum (commission : ℚ) (results : List (Bool × ℚ)) (bets : List ℚ) : ℚ :=
  (List.zipWith (fun result nBet =>
    if result.1 then nBet * result.2 * (1 - commission) else nBet * result.2) results bets).sum

/-- What the two inner loops of `Settlement` add up: every bet counts once, whatever the odds. -/
def evenSum (commission : ℚ) (results : List (Bool × ℚ)) (bets : List ℚ) : ℚ :=
  (List.zipWith (fun result nBet =>
    if result.1 then nBet * (1 - commission) else -nBet) results bets).sum

/-- What the odds beyond one to one are worth: they count for the positions that are won, less the
commission, and against those that are lost. -/
def oddsBeyondEven (commission : ℚ) (results : List (Bool × ℚ)) (bets : List ℚ) : ℚ :=
  (List.zipWith (fun result nBet =>
    if result.1 then nBet * (|result.2| - 1) * (1 - commission) else -(nBet * (|result.2| - 1)))
    results bets).sum

/-- By the odds means every bet once and what the odds bring beyond that. -/
theorem oddsSum_eq_add {commission : ℚ} {results : List (Bool × ℚ)}
    (signed : ∀ result ∈ results, Signed result) (bets : List ℚ) :
    oddsSum commission results bets = evenSum commission results bets +
      oddsBeyondEven commission results bets := by
  induction results generalizing bets with
  | nil => simp [oddsSum, evenSum, oddsBeyondEven]
  | cons result results ih =>
      cases bets with
      | nil => simp [oddsSum, evenSum, oddsBeyondEven]
      | cons nBet bets =>
          have rest := ih (fun r member => signed r (List.mem_cons_of_mem _ member)) bets
          have first := signed result List.mem_cons_self
          simp only [oddsSum, evenSum, oddsBeyondEven, List.zipWith_cons_cons, List.sum_cons] at rest ⊢
          rw [rest]
          obtain ⟨bWin, nWinOdds⟩ := result
          cases bWin with
          | true =>
              have odds : |nWinOdds| = nWinOdds := abs_of_pos first
              simp only [odds, if_true]
              ring
          | false =>
              have odds : |nWinOdds| = -nWinOdds := abs_of_neg first
              simp only [odds, Bool.false_eq_true, if_false]
              ring

/-- The inner loop, on bets that are not negative, adds their sum to the count so far. -/
theorem seatCount_eq {commission : ℚ} {results : List (Bool × ℚ)}
    (signed : ∀ result ∈ results, Signed result) {bets : List ℚ} (bounded : ∀ nBet ∈ bets, 0 ≤ nBet)
    (size : bets.length = results.length) (nCount : ℚ) :
    seatCount commission (results.map Prod.snd) nCount bets = some (nCount + evenSum commission results bets) := by
  induction results generalizing bets nCount with
  | nil =>
      rw [List.length_eq_zero_iff.mp size]
      simp [seatCount, evenSum]
  | cons result results ih =>
      cases bets with
      | nil => exact absurd size (by simp)
      | cons nBet bets =>
          have rest := ih (fun r member => signed r (List.mem_cons_of_mem _ member))
            (fun b member => bounded b (List.mem_cons_of_mem _ member)) (Nat.succ.inj size)
          have sum : ∀ nBet result, evenSum commission (result :: results) (nBet :: bets) =
              (if result.1 then nBet * (1 - commission) else -nBet) + evenSum commission results bets :=
            fun _ _ => by rw [evenSum, evenSum, List.zipWith_cons_cons, List.sum_cons]
          have first := signed result List.mem_cons_self
          have notNegative := bounded nBet List.mem_cons_self
          rw [List.map_cons, seatCount, rest, sum, ← add_assoc]
          congr 2
          obtain ⟨bWin, nWinOdds⟩ := result
          rcases notNegative.eq_or_lt with zero | positive
          · cases bWin <;> simp [← zero]
          · cases bWin with
            | true =>
                have wins : nBet * nWinOdds > 0 := mul_pos positive first
                simp [positive, wins, ExactArithmetic.rounding_eq]
            | false =>
                have loses : ¬ nBet * nWinOdds > 0 := not_lt.mpr (mul_nonpos_of_nonneg_of_nonpos
                  notNegative (le_of_lt first))
                simp [positive, loses, ExactArithmetic.rounding_eq, sub_eq_add_neg]

/-! ## The loop over the seats

Seat by seat, with a row in the record for every change of gold.
-/

/-- The gold of the object of a user. -/
def RoomState.goldOf (s : RoomState) (nUserId : Int) : Option ℚ :=
  (s.pool.getUserObject nUserId).map UserData.gold

/-- What the bets of a user bring when every bet counts once. -/
def Table.evenCount (t : Table) (hands : List (List Nat)) (nUserId : Int) : ℚ :=
  match t.tbUserBet nUserId with
  | some bets => evenSum cfg.commission (positionResults cfg hands) bets
  | none => 0

/-- There is an object of the user, and the method that the change needs does not raise. -/
def Payable (s : RoomState) (nUserId : Int) (nCount : ℚ) : Prop :=
  (s.pool.getUserObject nUserId).isSome ∧ cfg.script.raisesFor nUserId nCount = false

/-- What the loop over the seats did: the gold of every user changed by his count for each of his seats,
and every change has a row. -/
structure Settled (count : Int → ℚ) (seats : List Int) (s s' : RoomState) (rows : List SettlementRow) :
    Prop where
  gold : ∀ u, s'.goldOf u = (s.goldOf u).map (· + seats.count u * count u)
  logic : s'.toLogic = s.toLogic
  counted : ∀ row ∈ rows, row.nCount = count row.nUserId
  rows : ∀ u, (∃ row ∈ rows, row.nUserId = u) ↔ u ∈ seats ∧ count u ≠ 0

theorem Settled.refl (count : Int → ℚ) (s : RoomState) : Settled count [] s s [] where
  gold u := by simp
  logic := rfl
  counted _ member := absurd member List.not_mem_nil
  rows u := by simp

variable {cfg}

variable (cfg)

/-- A round as it can be dealt and bet on: odds for all points, five hands of five cards, and bets on four
positions. -/
structure Playable (t : Table) (hands : List (List Nat)) : Prop where
  odds : ∀ point ≤ 10, 0 < cfg.odds point
  hands : hands.length = 5 ∧ ∀ hand ∈ hands, hand.length = 5
  bets : ∀ u bets, t.tbUserBet u = some bets → bets.length = 4 ∧ ∀ nBet ∈ bets, 0 ≤ nBet

/-- What the bets of a seated user bring by the odds. -/
def payout (t : Table) (hands : List (List Nat)) (nUserId : Int) : ℚ :=
  if nUserId ∈ t.tbSeatUser then
    match t.tbUserBet nUserId with
    | some bets => oddsSum cfg.commission (positionResults cfg hands) bets
    | none => 0
  else
    0

/-- The gold of every user changes by what his bets bring by the odds, the record says so, and nobody
loses more than was reserved. -/
structure PaysByOdds (t : Table) (hands : List (List Nat)) (s s' : RoomState) : Prop where
  gold : ∀ u, s'.goldOf u = (s.goldOf u).map (· + payout cfg t hands u)
  record : ∃ rows, s'.toLogic = s.toLogic ++ (if rows.length > 0 then [rows] else []) ∧
    (∀ row ∈ rows, row.nCount = payout cfg t hands row.nUserId) ∧
    ∀ u, payout cfg t hands u ≠ 0 → ∃ row ∈ rows, row.nUserId = u
  reserved : ∀ u before after, s.goldOf u = some before → s'.goldOf u = some after →
    before - after ≤ t.getSumOfUserBet u * getMaxOdds cfg

/-- The odds beyond one to one cancel out over the positions a user has bet on; if his bets bring
something by the odds, it can be paid and he has one seat; and it is not below what was reserved. -/
structure Covered (t : Table) (hands : List (List Nat)) (s : RoomState) (nUserId : Int) (bets : List ℚ) :
    Prop where
  balanced : oddsBeyondEven cfg.commission (positionResults cfg hands) bets = 0
  payable : oddsSum cfg.commission (positionResults cfg hands) bets ≠ 0 →
    Payable cfg s nUserId (oddsSum cfg.commission (positionResults cfg hands) bets) ∧
      t.tbSeatUser.count nUserId = 1
  reserved : -oddsSum cfg.commission (positionResults cfg hands) bets ≤ bets.sum * getMaxOdds cfg

variable {cfg}

theorem Playable.signed {t : Table} {hands : List (List Nat)} (play : Playable cfg t hands) :
    ∀ result ∈ positionResults cfg hands, Signed result := positionResults_signed cfg play.odds hands

/-- What `Settlement` counts for a user. -/
theorem Playable.counts {t : Table} {hands : List (List Nat)} (play : Playable cfg t hands) {u : Int}
    {bets : List ℚ} (found : t.tbUserBet u = some bets) :
    seatCount cfg.commission (handOdds cfg hands) 0 bets = some (t.evenCount cfg hands u) := by
  obtain ⟨four, bounded⟩ := play.bets u bets found
  have size : bets.length = (positionResults cfg hands).length := by
    rw [length_positionResults, play.hands.1, four]
  rw [handOdds_eq, seatCount_eq play.signed bounded size, zero_add, Table.evenCount, found]

/-- What a settlement that returns has done: every change could be made, the gold of a user is changed for each of his
seats, and the record has a row for every change. -/
structure Counts (cfg : RoomConfig) (t : Table) (hands : List (List Nat)) (s s' : RoomState) : Prop where
  payable : ∀ u ∈ t.tbSeatUser, t.evenCount cfg hands u ≠ 0 → Payable cfg s u (t.evenCount cfg hands u)
  gold : ∀ u, s'.goldOf u = (s.goldOf u).map (· + t.tbSeatUser.count u * t.evenCount cfg hands u)
  record : ∃ rows, s'.toLogic = s.toLogic ++ (if rows.length > 0 then [rows] else []) ∧
    (∀ row ∈ rows, row.nCount = t.evenCount cfg hands row.nUserId) ∧
    ∀ u, (∃ row ∈ rows, row.nUserId = u) ↔ u ∈ t.tbSeatUser ∧ t.evenCount cfg hands u ≠ 0

/-- The sum of a user's bets. -/
theorem Table.getSumOfUserBet_of_bets {t : Table} {u : Int} {bets : List ℚ} (found : t.tbUserBet u = some bets) :
    t.getSumOfUserBet u = bets.sum := by
  rw [Table.getSumOfUserBet, found]
  exact Rounding.exact.foldl_add fun _ => Rounding.keeps_exact _

/-- What is reserved for a user is not negative. -/
theorem Playable.reserved_nonneg {t : Table} {hands : List (List Nat)} (play : Playable cfg t hands)
    (u : Int) : 0 ≤ t.getSumOfUserBet u * getMaxOdds cfg := by
  apply mul_nonneg _ (le_of_lt (play.odds 10 le_rfl))
  cases found : t.tbUserBet u with
  | none =>
      rw [Table.getSumOfUserBet, found]
  | some bets =>
      rw [Table.getSumOfUserBet_of_bets found]
      exact List.sum_nonneg (play.bets u bets found).2

section Bets

variable {t : Table} {hands : List (List Nat)} {u : Int} {bets : List ℚ}

/-- The payout of a user with bets. -/
theorem payout_of_bets (seat : u ∈ t.tbSeatUser) (found : t.tbUserBet u = some bets) :
    payout cfg t hands u = oddsSum cfg.commission (positionResults cfg hands) bets := by
  rw [payout, if_pos seat, found]

/-- By the odds his bets bring what they bring one to one and what the odds beyond that are worth. -/
theorem Playable.payout_eq (play : Playable cfg t hands) (seat : u ∈ t.tbSeatUser)
    (found : t.tbUserBet u = some bets) :
    payout cfg t hands u = t.evenCount cfg hands u +
      oddsBeyondEven cfg.commission (positionResults cfg hands) bets := by
  rw [payout_of_bets seat found, oddsSum_eq_add play.signed, Table.evenCount, found]

/-- Users without a seat or without bets get nothing, either way. -/
theorem payout_of_no_bets (nobody : ¬ ∃ bets, u ∈ t.tbSeatUser ∧ t.tbUserBet u = some bets) :
    payout cfg t hands u = 0 ∧ t.tbSeatUser.count u * t.evenCount cfg hands u = 0 := by
  by_cases seat : u ∈ t.tbSeatUser
  · cases found : t.tbUserBet u with
    | some bets => exact absurd ⟨bets, seat, found⟩ nobody
    | none => simp [payout, Table.evenCount, found]
  · simp [payout, seat, List.count_eq_zero_of_not_mem seat]

end Bets

/-- When the settlement is covered, the user's count is what the odds say. -/
theorem Covered.evenCount_eq {t : Table} {hands : List (List Nat)} {s : RoomState} {u : Int}
    {bets : List ℚ} (covered : Covered cfg t hands s u bets) (play : Playable cfg t hands)
    (seat : u ∈ t.tbSeatUser) (found : t.tbUserBet u = some bets) :
    t.evenCount cfg hands u = payout cfg t hands u := by
  rw [play.payout_eq seat found, covered.balanced, add_zero]

/-- A record that is sent can be told from others. -/
theorem record_inj {rows rows' : List SettlementRow}
    (same : (if rows.length > 0 then [rows] else []) = if rows'.length > 0 then [rows'] else []) :
    rows = rows' := by
  cases rows <;> cases rows' <;> simp_all

/-! ## Settlements that pay by the odds

When the sums that count every bet once are those by the odds, for every user who has bet.
-/

section Pays

variable {t : Table} {hands : List (List Nat)} {s s' : RoomState} {u : Int}

/-- Every change is in the record, so the two counts of a seated user are the same. -/
theorem Counts.evenCount_eq (counts : Counts cfg t hands s s') (pays : PaysByOdds cfg t hands s s')
    (seat : u ∈ t.tbSeatUser) : t.evenCount cfg hands u = payout cfg t hands u := by
  obtain ⟨rows, logic, counted, isRow⟩ := counts.record
  obtain ⟨rows', logic', counted', isRow'⟩ := pays.record
  have sameRows : rows' = rows :=
    record_inj (List.append_cancel_left (logic'.symm.trans logic))
  subst sameRows
  by_cases nothing : t.evenCount cfg hands u = 0
  · by_contra different
    have noRow := mt (isRow u).mp (by simp [nothing])
    exact noRow (isRow' u fun zero => different (nothing.trans zero.symm))
  · obtain ⟨row, member, isHis⟩ := (isRow u).mpr ⟨seat, nothing⟩
    rw [← isHis, ← counted row member, ← counted' row member]

/-- A user whose bets bring something has an object, and its gold tells how often he was paid. -/
theorem Counts.paid (counts : Counts cfg t hands s s') (pays : PaysByOdds cfg t hands s s')
    (seat : u ∈ t.tbSeatUser) (brings : payout cfg t hands u ≠ 0) :
    Payable cfg s u (payout cfg t hands u) ∧ ∃ before, s.goldOf u = some before ∧
      s'.goldOf u = some (before + payout cfg t hands u) ∧ t.tbSeatUser.count u = 1 := by
  have count_eq := counts.evenCount_eq pays seat
  have canPay := counts.payable u seat (count_eq ▸ brings)
  rw [count_eq] at canPay
  obtain ⟨objUser, object⟩ := Option.isSome_iff_exists.mp canPay.1
  have before : s.goldOf u = some objUser.gold := by rw [RoomState.goldOf, object, Option.map_some]
  have after := counts.gold u
  have after' := pays.gold u
  rw [before, Option.map_some] at after after'
  rw [after', Option.some.injEq, count_eq, add_right_inj] at after
  have once : (t.tbSeatUser.count u : ℚ) = 1 := by
    field_simp at after
    exact after.symm
  exact ⟨canPay, objUser.gold, before, after', by exact_mod_cast once⟩

/-- What is paid by the odds is covered. -/
theorem Counts.covered (counts : Counts cfg t hands s s') (play : Playable cfg t hands)
    (pays : PaysByOdds cfg t hands s s') (seat : u ∈ t.tbSeatUser) {bets : List ℚ}
    (betsOf : t.tbUserBet u = some bets) : Covered cfg t hands s u bets := by
  have ofSum : payout cfg t hands u = oddsSum cfg.commission (positionResults cfg hands) bets :=
    payout_of_bets seat betsOf
  have balanced : oddsBeyondEven cfg.commission (positionResults cfg hands) bets = 0 := by
    have both := play.payout_eq seat betsOf
    rw [counts.evenCount_eq pays seat] at both
    linarith
  refine ⟨balanced, ?_, ?_⟩
  · intro brings
    rw [← ofSum] at brings ⊢
    obtain ⟨canPay, -, -, -, once⟩ := counts.paid pays seat brings
    exact ⟨canPay, once⟩
  · rw [← ofSum]
    by_cases nothing : payout cfg t hands u = 0
    · have reserved := play.reserved_nonneg u
      rw [Table.getSumOfUserBet_of_bets betsOf] at reserved
      rw [nothing, neg_zero]
      exact reserved
    · obtain ⟨-, before, goldBefore, goldAfter, -⟩ := counts.paid pays seat nothing
      have loss := pays.reserved u _ _ goldBefore goldAfter
      rw [Table.getSumOfUserBet_of_bets betsOf] at loss
      linarith

section AllCovered

variable (play : Playable cfg t hands)
  (covered : ∀ u ∈ t.tbSeatUser, ∀ bets, t.tbUserBet u = some bets → Covered cfg t hands s u bets)
include play covered

/-- A covered user who is counted can be paid. -/
theorem payable_of_covered (seat : u ∈ t.tbSeatUser) (changes : t.evenCount cfg hands u ≠ 0) :
    t.evenCount cfg hands u = payout cfg t hands u ∧ Payable cfg s u (t.evenCount cfg hands u) := by
  cases found : t.tbUserBet u with
  | none => exact absurd (by rw [Table.evenCount, found]) changes
  | some bets =>
      have his := covered u seat bets found
      have count_eq := his.evenCount_eq play seat found
      rw [count_eq, payout_of_bets seat found] at changes ⊢
      exact ⟨rfl, (his.payable changes).1⟩

/-- What a covered user is paid over all his seats. -/
theorem total_of_covered (u : Int) :
    t.tbSeatUser.count u * t.evenCount cfg hands u = payout cfg t hands u := by
  by_cases hasBets : ∃ bets, u ∈ t.tbSeatUser ∧ t.tbUserBet u = some bets
  · obtain ⟨bets, seat, found⟩ := hasBets
    have his := covered u seat bets found
    rw [his.evenCount_eq play seat found]
    by_cases nothing : payout cfg t hands u = 0
    · rw [nothing, mul_zero]
    · rw [payout_of_bets seat found] at nothing
      rw [(his.payable nothing).2, Nat.cast_one, one_mul]
  · rw [(payout_of_no_bets hasBets).1, (payout_of_no_bets hasBets).2]

/-- Nobody's bets bring less than what was reserved. -/
theorem reserved_of_covered (u : Int) : -payout cfg t hands u ≤ t.getSumOfUserBet u * getMaxOdds cfg := by
  by_cases hasBets : ∃ bets, u ∈ t.tbSeatUser ∧ t.tbUserBet u = some bets
  · obtain ⟨bets, seat, found⟩ := hasBets
    rw [payout_of_bets seat found, Table.getSumOfUserBet_of_bets found]
    exact (covered u seat bets found).reserved
  · rw [(payout_of_no_bets hasBets).1, neg_zero]
    exact play.reserved_nonneg u

/-- What is covered is paid by the odds. -/
theorem Counts.pays (counts : Counts cfg t hands s s') : PaysByOdds cfg t hands s s' := by
  have total := total_of_covered play covered
  obtain ⟨rows, logic, counted, isRow⟩ := counts.record
  refine ⟨fun u => ?_, ⟨rows, logic, fun row member => ?_, fun u brings => ?_⟩,
    fun u before after goldBefore goldAfter => ?_⟩
  · rw [counts.gold u, total u]
  · obtain ⟨seat, changes⟩ := (isRow row.nUserId).mp ⟨row, member, rfl⟩
    rw [counted row member, (payable_of_covered play covered seat changes).1]
  · rw [← total u] at brings
    apply (isRow u).mpr
    refine ⟨?_, right_ne_zero_of_mul brings⟩
    have some : t.tbSeatUser.count u ≠ 0 := by
      exact_mod_cast left_ne_zero_of_mul brings
    exact List.count_pos_iff.mp (Nat.pos_of_ne_zero some)
  · have paid := counts.gold u
    rw [goldBefore, goldAfter, Option.map_some, Option.some.injEq, total u] at paid
    have reserved := reserved_of_covered play covered u
    rw [paid]
    linarith

end AllCovered

end Pays

variable (cfg)

end GameServer.Room
