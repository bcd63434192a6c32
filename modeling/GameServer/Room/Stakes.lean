/-
Module: GameServer.Room.Stakes
Purpose: What users have at risk at the tables of a room server, and what the calls make of it: the rows of a
  settlement cost a user no more than his bets at the table.
Trusted boundary: as for the tables
Main exports: atRisk, RiskStep, enter_risk, SeatCovered, RingCovered, ring_risk, acceptsBet, BetCovered, bet_risk
-/
import GameServer.Room.BetSums
import GameServer.Room.PaysOnce

namespace GameServer.Room

open Lib Lib.LuaM Script
open Arithmetic (rounding)
open Logic (SettlementRow)

/-! ## What is at risk

A bet can cost its user what he has put on it, until it is settled. Several open timers of one table would each be
able to cost it.
-/

/-- The positive bets of a user, which a settlement takes from him at most. -/
def Table.atRisk (t : Table) (nUserId : Int) : ℚ :=
  (((t.tbUserBet nUserId).getD []).map fun nBet => max nBet 0).sum

def RoomState.riskAt (s : RoomState) (nTableId : Nat) (nUserId : Int) : ℚ :=
  match s.tableMap.get nTableId with
  | some t => t.atRisk nUserId
  | none => 0

/-- The timers of a round in front of its settlement. -/
def TableTimer.isOpen : TableTimer → Bool
  | .freeTimerOver => true
  | .betTimerOver => true
  | .settlementTimerOver => false

/-- What is at risk at the tables of the open timers. -/
def riskOf (risk : Nat → ℚ) (timers : List PendingTimer) : ℚ :=
  ((timers.filter fun timer => timer.callback.isOpen).map fun timer => risk timer.nTableId).sum

/-- What the pending settlements can cost the user. -/
def RoomState.atRisk (s : RoomState) (nUserId : Int) : ℚ := riskOf (fun id => s.riskAt id nUserId) s.timers

theorem Table.atRisk_nonneg (t : Table) (u : Int) : 0 ≤ t.atRisk u := by
  apply List.sum_nonneg
  intro x member
  obtain ⟨nBet, -, rfl⟩ := List.mem_map.mp member
  exact le_max_right nBet 0

theorem RoomState.riskAt_nonneg (s : RoomState) (id : Nat) (u : Int) : 0 ≤ s.riskAt id u := by
  unfold RoomState.riskAt
  split
  · exact Table.atRisk_nonneg _ u
  · exact le_refl 0

theorem RoomState.riskAt_of_get {s : RoomState} {id : Nat} {t : Table} (found : s.tableMap.get id = some t) (u : Int) :
    s.riskAt id u = t.atRisk u := by
  rw [RoomState.riskAt, found]

section Sums

variable {risk risk' : Nat → ℚ} {timers : List PendingTimer}

theorem riskOf_nonneg (nonneg : ∀ id, 0 ≤ risk id) (timers : List PendingTimer) : 0 ≤ riskOf risk timers := by
  apply List.sum_nonneg
  intro x member
  obtain ⟨timer, -, rfl⟩ := List.mem_map.mp member
  exact nonneg timer.nTableId

theorem riskOf_append (more : List PendingTimer) :
    riskOf risk (timers ++ more) = riskOf risk timers + riskOf risk more := by
  rw [riskOf, List.filter_append, List.map_append, List.sum_append]
  rfl

theorem riskOf_cons (timer : PendingTimer) :
    riskOf risk (timer :: timers) =
      (if timer.callback.isOpen then risk timer.nTableId else 0) + riskOf risk timers := by
  unfold riskOf
  cases isOpen : timer.callback.isOpen with
  | true => rw [List.filter_cons, if_pos isOpen, List.map_cons, List.sum_cons, if_pos rfl]
  | false => rw [List.filter_cons, if_neg (by simp [isOpen]), if_neg Bool.false_ne_true, zero_add]

/-- Less at risk at each table is less in all. -/
theorem riskOf_mono (falls : ∀ timer ∈ timers, risk' timer.nTableId ≤ risk timer.nTableId) :
    riskOf risk' timers ≤ riskOf risk timers := by
  induction timers with
  | nil => exact le_refl _
  | cons timer timers ih =>
      rw [riskOf_cons, riskOf_cons]
      refine add_le_add ?_ (ih fun other member => falls other (List.mem_cons_of_mem timer member))
      split
      · exact falls timer List.mem_cons_self
      · exact le_refl 0

theorem riskOf_eq_zero (none : ∀ timer ∈ timers, timer.callback.isOpen = true → risk timer.nTableId = 0) :
    riskOf risk timers = 0 := by
  apply List.sum_eq_zero
  intro x member
  obtain ⟨timer, isOpen, rfl⟩ := List.mem_map.mp member
  exact none timer (List.mem_filter.mp isOpen).1 (List.mem_filter.mp isOpen).2

/-- A timer is taken out. -/
theorem riskOf_erase (risk : Nat → ℚ) {timer : PendingTimer} (pending : timer ∈ timers) :
    (if timer.callback.isOpen then risk timer.nTableId else 0) + riskOf risk (timers.erase timer) =
      riskOf risk timers := by
  rw [← riskOf_cons]
  have perm := ((List.perm_cons_erase pending).filter fun timer => timer.callback.isOpen).map fun timer =>
    risk timer.nTableId
  exact perm.sum_eq.symm

end Sums

theorem RoomState.atRisk_nonneg (s : RoomState) (u : Int) : 0 ≤ s.atRisk u :=
  riskOf_nonneg (fun id => s.riskAt_nonneg id u) s.timers

/-! ## Calls that send nothing

Calls behind which nobody has more at risk than before.
-/

/-- Nothing is sent, nobody has more at risk at a table, and the new open timers are those of tables without bets. -/
structure RiskKept (s s' : RoomState) : Prop where
  messages : s'.toLogic = s.toLogic
  falls : ∀ id u, s'.riskAt id u ≤ s.riskAt id u
  timers : ∃ more, s'.timers = s.timers ++ more ∧
    ∀ timer ∈ more, timer.callback.isOpen = true → ∀ u, s'.riskAt timer.nTableId u = 0

instance : IsPreorder RoomState RiskKept where
  refl s := ⟨rfl, fun _ _ => le_refl _, [], (List.append_nil _).symm, fun _ member => absurd member List.not_mem_nil⟩
  trans s s' s'' first second := by
    obtain ⟨more, timers, none⟩ := first.timers
    obtain ⟨more', timers', none'⟩ := second.timers
    refine ⟨second.messages.trans first.messages, fun id u => (second.falls id u).trans (first.falls id u),
      more ++ more', by rw [timers', timers, List.append_assoc], ?_⟩
    intro timer member isOpen u
    rcases List.mem_append.mp member with early | late
    · have before := second.falls timer.nTableId u
      rw [none timer early isOpen u] at before
      exact le_antisymm before (RoomState.riskAt_nonneg _ _ _)
    · exact none' timer late isOpen u

/-- Nobody has more at risk. -/
theorem RiskKept.atRisk_le {s s' : RoomState} (kept : RiskKept s s') (u : Int) : s'.atRisk u ≤ s.atRisk u := by
  obtain ⟨more, timers, none⟩ := kept.timers
  have noMore : riskOf (fun id => s'.riskAt id u) more = 0 :=
    riskOf_eq_zero fun timer member isOpen => none timer member isOpen u
  rw [RoomState.atRisk, timers, riskOf_append, noMore, add_zero]
  exact riskOf_mono fun timer _ => kept.falls timer.nTableId u

/-- Changes outside tables, timers and messages. -/
theorem RiskKept.of_eq {s s' : RoomState} (tables : s'.tableMap = s.tableMap) (timers : s'.timers = s.timers)
    (messages : s'.toLogic = s.toLogic) : RiskKept s s' where
  messages := messages
  falls id u := by
    rw [RoomState.riskAt, tables]
    exact le_refl _
  timers := ⟨[], by rw [timers, List.append_nil], fun _ member => absurd member List.not_mem_nil⟩

/-- A table that is put has its own risk, and the others keep theirs. -/
theorem riskAt_put (s : RoomState) (t : Table) (id : Nat) (u : Int) :
    ({ s with tableMap := s.tableMap.put t } : RoomState).riskAt id u =
      if id = t.nTableId then t.atRisk u else s.riskAt id u := by
  unfold RoomState.riskAt
  rw [TableMap.get_put]
  by_cases here : id = t.nTableId
  · rw [if_pos here, if_pos here]
  · rw [if_neg here, if_neg here]

/-- A table is put whose users have no more at risk than before. -/
theorem RiskKept.put {s s' : RoomState} {t : Table} (less : ∀ u, t.atRisk u ≤ s.riskAt t.nTableId u)
    (tables : s'.tableMap = s.tableMap.put t) (more : List PendingTimer) (timers : s'.timers = s.timers ++ more)
    (none : ∀ timer ∈ more, timer.callback.isOpen = true → timer.nTableId = t.nTableId ∧ ∀ u, t.atRisk u = 0)
    (messages : s'.toLogic = s.toLogic) : RiskKept s s' := by
  have riskAt : ∀ id u, s'.riskAt id u = if id = t.nTableId then t.atRisk u else s.riskAt id u := by
    intro id u
    rw [← riskAt_put s t id u, RoomState.riskAt, tables]
    rfl
  refine ⟨messages, fun id u => ?_, more, timers, fun timer member isOpen u => ?_⟩
  · rw [riskAt]
    split
    next here => exact here ▸ less u
    next => exact le_refl _
  · obtain ⟨here, nothing⟩ := none timer member isOpen
    rw [riskAt, if_pos here, nothing]

theorem atRisk_of_no_bets {t : Table} {u : Int} (none : t.tbUserBet u = none) : t.atRisk u = 0 := by
  rw [Table.atRisk, none]
  rfl

variable (cfg : RoomConfig)

/-- A new game forgets the bets, which nobody will settle any more. -/
theorem initGame_risk (id : Nat) : Keeps RiskKept (initGame cfg id) := by
  intro s
  simp only [initGame, wp_bind, wp_getTable]
  cases found : s.tableMap.get id with
  | none => exact refl_of RiskKept s
  | some t =>
      have sameId : t.nTableId = id := TableMap.nTableId_of_get found
      subst sameId
      simp only [wp_get, setState, setTable, record, addTimer, wp_bind, wp_modify]
      have noBets : ∀ u, (t.startGame s.random).atRisk u = 0 := fun u => atRisk_of_no_bets rfl
      refine RiskKept.put (t := t.startGame s.random) ?_ rfl [⟨t.nTableId, .freeTimerOver, cfg.freeSpan⟩] rfl ?_ rfl
      · intro u
        rw [noBets]
        exact RoomState.riskAt_nonneg _ _ _
      · intro timer member _
        rw [List.mem_singleton.mp member]
        exact ⟨rfl, noBets⟩

theorem checkState_risk (id : Nat) : Keeps RiskKept (checkState cfg id) := by
  intro s
  simp only [checkState, wp_bind, wp_getTable]
  cases s.tableMap.get id with
  | none => exact refl_of RiskKept s
  | some t =>
      simp only [wp_ite]
      exact ⟨fun _ => initGame_risk cfg id s, fun _ => refl_of RiskKept s⟩

theorem settlementTimerOver_risk (id : Nat) : Keeps RiskKept (settlementTimerOver cfg id) := by
  intro s
  simp only [settlementTimerOver, wp_bind, wp_getTable]
  cases found : s.tableMap.get id with
  | none => exact refl_of RiskKept s
  | some t =>
      have sameId : t.nTableId = id := TableMap.nTableId_of_get found
      subst sameId
      simp only [wp_ite, wp_bind, setState, setTable, record, wp_modify, wp_pure]
      refine ⟨fun _ => ?_, fun _ => refl_of RiskKept s⟩
      have ended : RiskKept s
          { s with
            tableMap := s.tableMap.put { t with nState := stateInit }
            trace := s.trace ++ [.state t.nTableId stateInit] } := by
        refine RiskKept.put (t := { t with nState := stateInit }) (fun u => ?_) rfl [] (List.append_nil _).symm
          (fun _ member => absurd member List.not_mem_nil) rfl
        exact (RoomState.riskAt_of_get found u).ge
      exact wp_mono (checkState_risk cfg t.nTableId _) (fun _ _ after => trans_of RiskKept ended after)
        fun _ after => trans_of RiskKept ended after

/-! ## Entering a room

A new table has no bets.
-/

theorem sitDown_risk (id : Nat) (nUserId : Int) : Keeps RiskKept (sitDown id nUserId) := by
  intro s
  simp only [sitDown, wp_bind, wp_getTable]
  cases found : s.tableMap.get id with
  | none => exact refl_of RiskKept s
  | some t =>
      have sameId : t.nTableId = id := TableMap.nTableId_of_get found
      subst sameId
      simp only [setTable, wp_modify]
      refine RiskKept.put (t := t.sitDown nUserId) (fun u => ?_) rfl [] (List.append_nil _).symm
        (fun _ member => absurd member List.not_mem_nil) rfl
      exact (RoomState.riskAt_of_get found u).ge

theorem getClientDataByState_risk (id : Nat) : Keeps RiskKept (getClientDataByState id) := by
  intro s
  simp only [getClientDataByState, wp_bind, wp_getTable]
  cases s.tableMap.get id with
  | none => exact refl_of RiskKept s
  | some t =>
      simp only [wp_get, wp_ite, wp_raise, wp_pure]
      exact ⟨fun _ => refl_of RiskKept s, fun _ => refl_of RiskKept s⟩

/-- Nobody has bets at the new table of a user who enters. -/
theorem enter_risk {s : RoomState} (empty : ListsEmpty s) (c : EnterCall) : RiskKept s (enter cfg s c) := by
  have seated : ∀ id, Keeps RiskKept (do
      sitDown id c.objUser.nUserId
      checkState cfg id
      getClientDataByState id) := fun id =>
    (sitDown_risk id _).bind fun _ => (checkState_risk cfg id).bind fun _ => getClientDataByState_risk id
  have entered : wp (clientEnterRoom cfg c.objUser c.nHandlerId c.nGameType c.nRoomId)
      (fun _ s' => RiskKept s s') (RiskKept s) s := by
    rw [clientEnterRoom, wp_bind]
    refine wp_mono (openRoom_spec c.nGameType c.nRoomId empty) ?_ fun _ never => never.elim
    rintro _ t ⟨same, -, isOpen⟩
    let t' : RoomState :=
      { t with
        pool := t.pool.cacheUserObject c.objUser
        net := t.net.updateHandlerIdAndUserId (.number c.objUser.nUserId) c.nHandlerId }
    have isOpen' : OpenRoom t' c.nGameType c.nRoomId := isOpen
    have before : RiskKept s t' := by
      refine .of_eq ?_ ?_ ?_ <;> simp only [t'] <;> rw [same]
    rw [wp_bind, wp_modify, wp_bind, findATable_eq cfg c.nGameType c.nRoomId isOpen']
    refine wp_mono (createTable_spec cfg c.nGameType c.nRoomId isOpen') ?_ ?_
    · rintro id r ⟨-, -, created⟩
      have noBets : ∀ u, (Table.ofRoom id c.nGameType c.nRoomId).atRisk u = 0 := fun u => atRisk_of_no_bets rfl
      have table : RiskKept s r := by
        refine trans_of RiskKept before (RiskKept.put (t := .ofRoom id c.nGameType c.nRoomId) (fun u => ?_) ?_
          [] ?_ (fun _ member => absurd member List.not_mem_nil) ?_)
        · rw [noBets]
          exact RoomState.riskAt_nonneg _ _ _
        · rw [created]
        · rw [created, List.append_nil]
        · rw [created]
      exact wp_mono (seated id r) (fun _ _ after => trans_of RiskKept table after)
        fun _ after => trans_of RiskKept table after
    · rintro r ⟨-, turned⟩
      refine trans_of RiskKept before (.of_eq ?_ ?_ ?_) <;> rw [turned]
  exact wp_same.mp entered

/-! ## Settlements

A settlement sends rows, each of which takes at most what was at risk for its user.
-/

/-- What the rows move for the user. -/
def countsOf (nUserId : Int) (rows : List SettlementRow) : List ℚ :=
  (rows.filter fun row => row.nUserId = nUserId).map SettlementRow.nCount

theorem countsOf_append (nUserId : Int) (rows more : List SettlementRow) :
    countsOf nUserId (rows ++ more) = countsOf nUserId rows ++ countsOf nUserId more := by
  rw [countsOf, List.filter_append, List.map_append]
  rfl

/-- A call sends the rows, and however many of them are applied, with their counts as they are read, the user has no
more at risk than before and what the applied ones have moved for him. -/
structure RiskStep (text : ℚ → ℚ) (s s' : RoomState) (rows : List SettlementRow) : Prop where
  sent : s'.toLogic.flatten = s.toLogic.flatten ++ rows
  covered : ∀ u counts, counts <+: (countsOf u rows).map text → s'.atRisk u ≤ s.atRisk u + counts.sum

/-- A call that sends nothing. -/
theorem RiskKept.step {s s' : RoomState} (kept : RiskKept s s') (text : ℚ → ℚ) : RiskStep text s s' [] where
  sent := by rw [kept.messages, List.append_nil]
  covered u counts isPrefix := by
    rw [List.prefix_nil.mp isPrefix, List.sum_nil, add_zero]
    exact kept.atRisk_le u

section Counts

variable [Arithmetic]

/-- What the bets of a user bring, position by position: the part of a bet that is won, or the bet, which is lost. -/
def seatTerms (commission : ℚ) : (odds bets : List ℚ) → List ℚ
  | nWinOdds :: odds, nBet :: bets =>
      if nBet > 0 then
        (if rounding.mul nBet nWinOdds > 0 then rounding.mul nBet (rounding.sub 1 commission) else -nBet) ::
          seatTerms commission odds bets
      else
        seatTerms commission odds bets
  | _, _ => []

/-- The count of a user adds them up. -/
theorem seatCount_foldl {commission : ℚ} {odds bets : List ℚ} {nCount nCount' : ℚ}
    (counted : seatCount commission odds nCount bets = some nCount') :
    nCount' = (seatTerms commission odds bets).foldl rounding.add nCount := by
  induction bets generalizing odds nCount with
  | nil =>
      rw [seatCount, Option.some.injEq] at counted
      cases odds <;> exact counted.symm
  | cons nBet bets ih =>
      cases odds with
      | nil =>
          rw [seatCount] at counted
          split at counted
          · cases counted
          · have rest := ih counted
            cases bets <;> exact rest
      | cons nWinOdds odds =>
          rw [seatCount] at counted
          rw [ih counted, seatTerms]
          split
          · rw [List.foldl_cons]
            split
            · rfl
            · rw [Rounding.sub, Rounding.add, sub_eq_add_neg]
          · rfl

/-- With a commission of at most the whole win, a user loses at most his bets. -/
theorem seatTerms_ge {commission : ℚ} (part : commission ≤ 1) (odds bets : List ℚ) :
    -(bets.map fun nBet => max nBet 0).sum ≤ (seatTerms commission odds bets).sum := by
  induction bets generalizing odds with
  | nil => cases odds <;> exact le_refl 0
  | cons nBet bets ih =>
      rw [List.map_cons, List.sum_cons]
      cases odds with
      | nil =>
          have rest : -(bets.map fun nBet => max nBet 0).sum ≤ 0 := by
            have none := ih []
            cases bets <;> exact none
          have nonneg := le_max_right nBet 0
          change _ ≤ (0 : ℚ)
          linarith
      | cons nWinOdds odds =>
          have rest := ih odds
          rw [seatTerms]
          split
          next positive =>
            rw [List.sum_cons, max_eq_left positive.le]
            split
            · have isPart : 0 ≤ rounding.sub 1 commission := rounding.nonneg _ (sub_nonneg.mpr part)
              have win : 0 ≤ rounding.mul nBet (rounding.sub 1 commission) :=
                rounding.nonneg _ (mul_nonneg positive.le isPart)
              linarith
            · linarith
          next small =>
            rw [max_eq_right (not_lt.mp small), zero_add]
            exact rest

/-- The count of a user's bets is read from its text, and is no less than what the positions bring together. -/
def SeatCovered (text : ℚ → ℚ) (commission : ℚ) (odds bets : List ℚ) : Prop :=
  (seatTerms commission odds bets).sum ≤ text ((seatTerms commission odds bets).foldl rounding.add 0)

instance (text : ℚ → ℚ) (commission : ℚ) (odds bets : List ℚ) : Decidable (SeatCovered text commission odds bets) :=
  inferInstanceAs (Decidable (_ ≤ _))

/-- The counts of a settlement are no less, for each of its seats. -/
def RingCovered (text : ℚ → ℚ) (s : RoomState) (timer : PendingTimer) : Prop :=
  timer.callback = .betTimerOver → ∀ t ∈ s.tableMap.get timer.nTableId,
    ∀ hands ∈ t.objShuffler.tbShufflerResult, ∀ nUserId ∈ t.tbSeatUser, ∀ bets ∈ t.tbUserBet nUserId,
      SeatCovered text cfg.commission (handOdds cfg hands) bets

instance (text : ℚ → ℚ) (s : RoomState) (timer : PendingTimer) : Decidable (RingCovered cfg text s timer) :=
  inferInstanceAs (Decidable (_ → ∀ _ ∈ (_ : Option _), ∀ _ ∈ (_ : Option _), ∀ _ ∈ (_ : List _),
    ∀ _ ∈ (_ : Option _), SeatCovered text _ _ _))

end Counts

/-- Tables, timers and messages stay. -/
structure Unsent (s s' : RoomState) : Prop where
  tables : s'.tableMap = s.tableMap
  timers : s'.timers = s.timers
  messages : s'.toLogic = s.toLogic

instance : IsPreorder RoomState Unsent where
  refl _ := ⟨rfl, rfl, rfl⟩
  trans _ _ _ first second :=
    ⟨second.tables.trans first.tables, second.timers.trans first.timers, second.messages.trans first.messages⟩

/-- The rows are those of users with a seat, and each has the count of its user's bets. -/
structure RowsOf [Arithmetic] (t : Table) (odds : List ℚ) (seats : List Int) (rows : List SettlementRow) : Prop where
  users : (rows.map SettlementRow.nUserId).Sublist seats
  counts : ∀ row ∈ rows, ∃ tbUserBet, t.tbUserBet row.nUserId = some tbUserBet ∧
    seatCount cfg.commission odds 0 tbUserBet = some row.nCount

/-- What the loop over the seats has sent, whether it raised or not. -/
theorem settleSeats_rows [Arithmetic] (t : Table) (run : Nat) (odds : List ℚ) (seats : List Int)
    (rows : List SettlementRow) (s : RoomState) :
    wp (settleSeats cfg t run odds seats rows)
      (fun rows' s' => Unsent s s' ∧ ∃ more, rows' = rows ++ more ∧ RowsOf cfg t odds seats more) (Unsent s) s := by
  induction seats generalizing rows s with
  | nil => exact ⟨refl_of Unsent s, [], (List.append_nil rows).symm, List.nil_sublist _, by simp⟩
  | cons u seats ih =>
      have skipped : ∀ s', Unsent s s' → wp (settleSeats cfg t run odds seats rows)
          (fun rows' s' => Unsent s s' ∧ ∃ more, rows' = rows ++ more ∧ RowsOf cfg t odds (u :: seats) more)
          (Unsent s) s' := by
        intro s' before
        refine wp_mono (ih rows s') ?_ fun _ after => trans_of Unsent before after
        rintro rows' r ⟨after, more, same, ofSeats⟩
        exact ⟨trans_of Unsent before after, more, same, ofSeats.users.cons u, ofSeats.counts⟩
      unfold settleSeats
      cases bets : t.tbUserBet u with
      | none => exact skipped s (refl_of Unsent s)
      | some tbUserBet =>
          dsimp only
          cases counted : seatCount cfg.commission odds 0 tbUserBet with
          | none => exact refl_of Unsent s
          | some nCount =>
              simp only [wp_ite, wp_bind, wp_get, wp_modify, record]
              refine ⟨fun _ => skipped _ ⟨rfl, rfl, rfl⟩, fun _ => ?_⟩
              cases object : s.pool.getUserObject u with
              | none => exact ⟨rfl, rfl, rfl⟩
              | some objUser =>
                  dsimp only
                  cases changes : objUser.changeGold cfg.script nCount with
                  | none => exact ⟨rfl, rfl, rfl⟩
                  | some changed =>
                      simp only [wp_bind, wp_modify]
                      refine wp_mono (ih _ _) ?_ fun _ after => ⟨after.tables, after.timers, after.messages⟩
                      rintro rows' r ⟨after, more, same, ofSeats⟩
                      refine ⟨⟨after.tables, after.timers, after.messages⟩,
                        ⟨u, nCount, changed.getGold⟩ :: more, ?_, ?_, ?_⟩
                      · rw [same, List.append_assoc, List.singleton_append]
                      · exact ofSeats.users.cons_cons u
                      · intro row member
                        rcases List.mem_cons.mp member with rfl | later
                        · exact ⟨tbUserBet, bets, counted⟩
                        · exact ofSeats.counts row later

/-- Where nobody sits twice, a user has one row at most, and it costs him at most his bets. -/
theorem RowsOf.counts_ge [Arithmetic] {text : ℚ → ℚ} (part : cfg.commission ≤ 1) {t : Table} {odds : List ℚ}
    {rows : List SettlementRow} (ofSeats : RowsOf cfg t odds t.tbSeatUser rows)
    (covered : ∀ nUserId ∈ t.tbSeatUser, ∀ bets ∈ t.tbUserBet nUserId, SeatCovered text cfg.commission odds bets)
    (nodup : t.tbSeatUser.Nodup) (u : Int) {counts : List ℚ} (isPrefix : counts <+: (countsOf u rows).map text) :
    -t.atRisk u ≤ counts.sum := by
  have once : ((countsOf u rows).map text).length ≤ 1 := by
    have count := List.nodup_iff_count_le_one.mp (nodup.sublist ofSeats.users) u
    rw [List.count, List.countP_map, List.countP_eq_length_filter] at count
    rw [List.length_map, countsOf, List.length_map]
    exact count
  have length := isPrefix.length_le
  cases counts with
  | nil =>
      have nonneg := t.atRisk_nonneg u
      rw [List.sum_nil]
      linarith
  | cons nCount rest =>
      obtain rfl : rest = [] := by
        rw [List.length_cons] at length
        exact List.eq_nil_of_length_eq_zero (by omega)
      obtain ⟨written, inCounts, rfl⟩ := List.mem_map.mp (isPrefix.subset List.mem_cons_self)
      obtain ⟨row, member, rfl⟩ := List.mem_map.mp inCounts
      obtain ⟨inRows, isUser⟩ := List.mem_filter.mp member
      obtain rfl : row.nUserId = u := of_decide_eq_true isUser
      obtain ⟨tbUserBet, bets, counted⟩ := ofSeats.counts row inRows
      have seat := ofSeats.users.subset (List.mem_map_of_mem inRows)
      have read := covered row.nUserId seat tbUserBet bets
      rw [SeatCovered, ← seatCount_foldl counted] at read
      have least := seatTerms_ge part odds tbUserBet
      rw [List.sum_singleton, Table.atRisk, bets, Option.getD_some]
      exact least.trans read

section Rings

variable {s : RoomState} {t : Table} (found : s.tableMap.get t.nTableId = some t)

include found

/-- What a settlement sends: rows with the counts of the hands that were dealt. -/
theorem settlement_rows [Arithmetic] :
    wp (settlement cfg t.nTableId)
      (fun _ s' => s'.tableMap = s.tableMap ∧ s'.timers = s.timers ∧
        ∃ hands rows, t.objShuffler.tbShufflerResult = some hands ∧
          s'.toLogic.flatten = s.toLogic.flatten ++ rows ∧ RowsOf cfg t (handOdds cfg hands) t.tbSeatUser rows)
      (Unsent s) s := by
  simp only [settlement, wp_bind, wp_getTable, found]
  cases t.objShuffler.tbShufflerResult with
  | none => exact refl_of Unsent s
  | some hands =>
      simp only [wp_bind, wp_get, wp_modify, record]
      refine wp_mono (settleSeats_rows cfg t _ _ _ _ _) ?_ fun _ after =>
        ⟨after.tables, after.timers, after.messages⟩
      rintro rows r ⟨after, more, same, ofSeats⟩
      obtain rfl : rows = more := same
      have messages : r.toLogic = s.toLogic := after.messages
      simp only [wp_ite, wp_modify, wp_pure]
      refine ⟨fun _ => ⟨after.tables, after.timers, hands, rows, rfl, ?_, ofSeats⟩,
        fun none => ⟨after.tables, after.timers, hands, rows, rfl, ?_, ofSeats⟩⟩
      · rw [messages, List.flatten_append, List.flatten_singleton]
      · rw [messages, List.length_eq_zero_iff.mp (Nat.eq_zero_of_not_pos none), List.append_nil]

/-- The bet timer sends the rows of its settlement, and moves the table on. -/
theorem betTimerOver_rows [Arithmetic] :
    wp (betTimerOver cfg t.nTableId)
      (fun _ s' => s'.tableMap = s.tableMap.put t.stateForward ∧
        s'.timers = s.timers ++ [⟨t.nTableId, .settlementTimerOver, cfg.settlementSpan⟩] ∧
        ∃ hands rows, t.objShuffler.tbShufflerResult = some hands ∧
          s'.toLogic.flatten = s.toLogic.flatten ++ rows ∧ RowsOf cfg t (handOdds cfg hands) t.tbSeatUser rows)
      (Unsent s) s := by
  rw [betTimerOver, wp_bind]
  refine wp_mono (settlement_rows cfg found) ?_ fun _ after => after
  rintro _ r ⟨tables, timers, hands, rows, dealt, sent, ofSeats⟩
  have found' : r.tableMap.get t.nTableId = some t := tables ▸ found
  simp only [wp_bind, wp_getTable, found', setState, setTable, record, addTimer, wp_modify]
  exact ⟨by rw [tables], by rw [timers], hands, rows, dealt, sent, ofSeats⟩

/-- The free timer puts the timer of the bet state in its place. -/
theorem freeTimerOver_timers :
    wp (freeTimerOver cfg t.nTableId)
      (fun _ s' => s'.tableMap = s.tableMap.put t.stateForward ∧
        s'.timers = s.timers ++ [⟨t.nTableId, .betTimerOver, cfg.betSpan⟩] ∧ s'.toLogic = s.toLogic)
      (fun _ => False) s := by
  simp only [freeTimerOver, wp_bind, wp_getTable, found, setState, setTable, record, addTimer, wp_modify]
  exact ⟨trivial, trivial, trivial⟩

/-- The next state of a table has the bets of the old one. -/
theorem riskAt_stateForward {s' : RoomState} (tables : s'.tableMap = s.tableMap.put t.stateForward) (id : Nat)
    (u : Int) : s'.riskAt id u = s.riskAt id u := by
  have risk := riskAt_put s t.stateForward id u
  rw [RoomState.riskAt] at risk ⊢
  rw [tables, risk]
  split
  next here =>
    rw [RoomState.riskAt_of_get (here ▸ found)]
    rfl
  next => rfl

end Rings

/-- What is at risk when a timer was taken out and others were added. -/
theorem atRisk_takeTimer {s s' : RoomState} {timer : PendingTimer} (pending : timer ∈ s.timers)
    (risk : ∀ id u, s'.riskAt id u = s.riskAt id u) {more : List PendingTimer} (timers : s'.timers = s.timers ++ more)
    (u : Int) :
    (if timer.callback.isOpen then s.riskAt timer.nTableId u else 0) + (s'.takeTimer timer).atRisk u =
      s.atRisk u + riskOf (fun id => s.riskAt id u) more := by
  have same : (fun id => (s'.takeTimer timer).riskAt id u) = fun id => s.riskAt id u := funext fun id => risk id u
  have rest : (s'.takeTimer timer).timers = s.timers.erase timer ++ more := by
    change s'.timers.erase timer = _
    rw [timers, List.erase_append_left _ pending]
  have taken : (if timer.callback.isOpen then s.riskAt timer.nTableId u else 0) +
      riskOf (fun id => s.riskAt id u) (s.timers.erase timer) = s.atRisk u :=
    riskOf_erase (fun id => s.riskAt id u) pending
  rw [RoomState.atRisk, same, rest, riskOf_append, ← add_assoc, taken]

/-- A timer less is less at risk. -/
theorem atRisk_takeTimer_le (s : RoomState) (timer : PendingTimer) (u : Int) :
    (s.takeTimer timer).atRisk u ≤ s.atRisk u := by
  by_cases pending : timer ∈ s.timers
  · have taken := atRisk_takeTimer pending (fun _ _ => rfl) (List.append_nil s.timers).symm u
    have none : riskOf (fun id => s.riskAt id u) [] = 0 := rfl
    rw [none, add_zero] at taken
    have nonneg : 0 ≤ if timer.callback.isOpen then s.riskAt timer.nTableId u else 0 := by
      split
      · exact RoomState.riskAt_nonneg _ _ _
      · exact le_refl 0
    linarith
  · rw [RoomState.takeTimer, List.erase_of_not_mem pending]

/-- Where nobody sits twice at a table, and counts are covered, a timer sends rows within what was at risk, all for users
with a seat. -/
theorem ring_risk [Arithmetic] {text : ℚ → ℚ} (part : cfg.commission ≤ 1) {s s' : RoomState} {timer : PendingTimer}
    (nodup : ∀ id users, s.seats id = some users → users.Nodup) (covered : RingCovered cfg text s timer)
    (step : tableStep cfg s (.ring timer) = some s') :
    ∃ rows, RiskStep text s s' rows ∧ ∀ row ∈ rows, ∃ users, s.seats timer.nTableId = some users ∧ row.nUserId ∈ users := by
  obtain ⟨pending, step⟩ := Option.ite_none_right_eq_some.mp step
  have rings : wp (timerOver cfg timer.callback timer.nTableId)
      (fun _ s₁ => ∃ rows, RiskStep text s (s₁.takeTimer timer) rows ∧
        ∀ row ∈ rows, ∃ users, s.seats timer.nTableId = some users ∧ row.nUserId ∈ users)
      (RiskKept s) s := by
    obtain ⟨nTableId, callback, span⟩ := timer
    cases found : s.tableMap.get nTableId with
    | none => cases callback <;> simp only [timerOver, freeTimerOver, betTimerOver, settlementTimerOver, settlement,
        wp_bind, wp_getTable, found] <;> exact refl_of RiskKept s
    | some t =>
        obtain rfl : t.nTableId = nTableId := TableMap.nTableId_of_get found
        cases callback with
        | freeTimerOver =>
            refine wp_mono (freeTimerOver_timers cfg found) ?_ fun _ never => never.elim
            rintro _ s₁ ⟨tables, timers, messages⟩
            have risk := riskAt_stateForward found tables
            refine ⟨[], ⟨?_, fun u counts isPrefix => ?_⟩, fun row member => absurd member List.not_mem_nil⟩
            · rw [List.append_nil]
              exact congrArg List.flatten messages
            · have taken := atRisk_takeTimer pending risk timers u
              have added : riskOf (fun id => s.riskAt id u) [⟨t.nTableId, .betTimerOver, cfg.betSpan⟩] =
                  s.riskAt t.nTableId u := by
                simp [riskOf, TableTimer.isOpen]
              rw [added] at taken
              change s.riskAt t.nTableId u + _ = _ at taken
              rw [List.prefix_nil.mp isPrefix, List.sum_nil]
              linarith
        | betTimerOver =>
            refine wp_mono (betTimerOver_rows cfg found) ?_ fun _ after =>
              .of_eq after.tables after.timers after.messages
            rintro _ s₁ ⟨tables, timers, hands, rows, dealt, sent, ofSeats⟩
            have seats : s.seats t.nTableId = some t.tbSeatUser := by
              rw [RoomState.seats, found]
              rfl
            refine ⟨rows, ⟨sent, fun u counts isPrefix => ?_⟩, fun row member => ⟨_, seats, ?_⟩⟩
            · have taken := atRisk_takeTimer pending (riskAt_stateForward found tables) timers u
              have added : riskOf (fun id => s.riskAt id u)
                  [⟨t.nTableId, .settlementTimerOver, cfg.settlementSpan⟩] = 0 := rfl
              rw [added] at taken
              change s.riskAt t.nTableId u + _ = _ at taken
              rw [RoomState.riskAt_of_get found] at taken
              have cost := ofSeats.counts_ge cfg part (covered rfl t found hands dealt)
                (nodup t.nTableId t.tbSeatUser seats) u isPrefix
              linarith
            · exact ofSeats.users.subset (List.mem_map_of_mem member)
        | settlementTimerOver =>
            refine wp_mono (settlementTimerOver_risk cfg t.nTableId s) ?_ fun _ after => after
            intro _ s₁ kept
            refine ⟨[], ⟨?_, fun u counts isPrefix => ?_⟩, fun row member => absurd member List.not_mem_nil⟩
            · rw [List.append_nil]
              exact congrArg List.flatten kept.messages
            · rw [List.prefix_nil.mp isPrefix, List.sum_nil, add_zero]
              exact (atRisk_takeTimer_le s₁ _ u).trans (kept.atRisk_le u)
  unfold wp at rings
  cases result : exec (timerOver cfg timer.callback timer.nTableId) s with
  | mk value s₁ =>
      rw [result] at step rings
      cases value with
      | ok _ =>
          cases step
          exact rings
      | error _ =>
          cases step
          exact ⟨[], rings.step text, fun row member => absurd member List.not_mem_nil⟩

/-! ## Bets

A bet adds itself to what is at risk, and nothing else.
-/

/-- The checks of `ClientBet` and `UserBet`. -/
def acceptsBet [Arithmetic] (s : RoomState) (nUserId nPosition : Int) (nBet : ℚ) : Bool :=
  match s.pool.getUserObject nUserId with
  | none => false
  | some objUser =>
      match (s.userTableMap objUser.nUserId).bind s.tableMap.get with
      | none => false
      | some t =>
          decide (0 ≤ nBet) && decide (0 < nPosition ∧ nPosition ≤ 4) && t.isBetState &&
            checkBetOverRange cfg t objUser nBet

/-- With a bet, the entry of its user on the position is not rounded up. -/
def BetCovered [Arithmetic] (s : RoomState) (nUserId nPosition : Int) (nBet : ℚ) : Prop :=
  ∀ nTableId ∈ s.userTableMap nUserId, ∀ t ∈ s.tableMap.get nTableId,
    rounding.add ((t.betRow nUserId).getD (nPosition.toNat - 1) 0) nBet ≤
      (t.betRow nUserId).getD (nPosition.toNat - 1) 0 + nBet

instance [Arithmetic] (s : RoomState) (nUserId nPosition : Int) (nBet : ℚ) :
    Decidable (BetCovered s nUserId nPosition nBet) :=
  inferInstanceAs (Decidable (∀ _ ∈ (_ : Option _), ∀ _ ∈ (_ : Option _), (_ : ℚ) ≤ _))

/-- An entry of a row grows by the bet at most. -/
theorem positive_set_le {nBet : ℚ} (nonneg : 0 ≤ nBet) {row : List ℚ} {i : Nat} {entry : ℚ}
    (most : entry ≤ row.getD i 0 + nBet) :
    ((row.set i entry).map fun x => max x 0).sum ≤ (row.map fun x => max x 0).sum + nBet := by
  induction row generalizing i with
  | nil => simpa using nonneg
  | cons x row ih =>
      cases i with
      | zero =>
          rw [List.getD_cons_zero] at most
          have grown : max entry 0 ≤ max x 0 + nBet := by
            refine max_le ?_ (add_nonneg (le_max_right x 0) nonneg)
            linarith [le_max_left x 0]
          simp only [List.set_cons_zero, List.map_cons, List.sum_cons]
          linarith
      | succ i =>
          rw [List.getD_cons_succ] at most
          have rest := ih most
          simp only [List.set_cons_succ, List.map_cons, List.sum_cons]
          linarith

/-- A bet that is marked is at risk. -/
theorem markBet_risk [Arithmetic] {t t' : Table} {u p : Int} {nBet : ℚ} (nonneg : 0 ≤ nBet) (low : 0 < p)
    (high : p ≤ 4) (marked : t.markBet u p nBet = some t')
    (covered : rounding.add ((t.betRow u).getD (p.toNat - 1) 0) nBet ≤ (t.betRow u).getD (p.toNat - 1) 0 + nBet)
    (v : Int) : t'.atRisk v ≤ t.atRisk v + if v = u then nBet else 0 := by
  obtain ⟨tbPlayerBet, rfl⟩ := Table.markBet_eq low high marked
  by_cases same : v = u
  · subst same
    have before : (((t.tbUserBet v).getD [0, 0, 0, 0]).map fun x => max x 0).sum = t.atRisk v := by
      rw [Table.atRisk]
      cases t.tbUserBet v with
      | none => simp
      | some row => rfl
    rw [Table.atRisk, if_pos rfl, ← before]
    simp only [Function.update_self, Option.getD_some]
    exact positive_set_le nonneg covered
  · rw [Table.atRisk, if_neg same, add_zero]
    simp only [Function.update_of_ne same]
    exact le_refl _

/-- Where every table has one timer at most, what a table has more is added once. -/
theorem riskOf_add_le {risk risk' : Nat → ℚ} {nBet : ℚ} (nonneg : 0 ≤ nBet) {id : Nat}
    (grown : ∀ k, risk' k ≤ risk k + if k = id then nBet else 0) {timers : List PendingTimer}
    (nodup : (timers.map PendingTimer.nTableId).Nodup) : riskOf risk' timers ≤ riskOf risk timers + nBet := by
  induction timers with
  | nil => simpa [riskOf] using nonneg
  | cons timer timers ih =>
      rw [List.map_cons, List.nodup_cons] at nodup
      rw [riskOf_cons, riskOf_cons]
      by_cases here : timer.nTableId = id
      · have rest : riskOf risk' timers ≤ riskOf risk timers := by
          apply riskOf_mono
          intro other member
          have elsewhere : other.nTableId ≠ id := by
            rintro rfl
            exact nodup.1 (here ▸ List.mem_map_of_mem member)
          have least := grown other.nTableId
          rw [if_neg elsewhere, add_zero] at least
          exact least
        have first := grown timer.nTableId
        rw [if_pos here] at first
        split <;> linarith
      · have first := grown timer.nTableId
        rw [if_neg here, add_zero] at first
        have rest := ih nodup.2
        split <;> linarith

/-- Nothing is sent, the timers stay, and if the bet is covered, its user has at most the bet more at risk. -/
structure Staked [Arithmetic] (s s' : RoomState) (nUserId nPosition : Int) (nBet : ℚ) : Prop where
  messages : s'.toLogic = s.toLogic
  timers : s'.timers = s.timers
  risk : BetCovered s nUserId nPosition nBet → ∀ v, s'.atRisk v ≤ s.atRisk v + if v = nUserId then nBet else 0

/-- A request that passes the checks stakes its bet, and any other changes nothing. -/
theorem bet_risk [Arithmetic] {s : RoomState} (nodup : (s.timers.map PendingTimer.nTableId).Nodup) (u p : Int)
    (nBet : ℚ) :
    wp (clientBet cfg u p nBet) (fun _ s' => s' = s ∨ (acceptsBet cfg s u p nBet = true ∧ Staked s s' u p nBet))
      (fun s' => s' = s) s := by
  unfold clientBet
  simp only [wp_ite, wp_pure, wp_bind, wp_get]
  refine ⟨fun _ => Or.inl trivial, fun _ => ⟨fun _ => Or.inl trivial, fun nonneg => ?_⟩⟩
  cases object : s.pool.getUserObject u with
  | none => rfl
  | some objUser =>
      have isUser : objUser.nUserId = u := s.pool.nUserId_of_get object
      cases mapped : s.userTableMap objUser.nUserId with
      | none =>
          simp only [mapped]
          rfl
      | some id =>
          simp only [mapped, userBet, wp_bind, wp_getTable]
          cases found : s.tableMap.get id with
          | none => trivial
          | some t =>
              simp only [wp_ite, wp_pure]
              refine ⟨fun _ => Or.inl trivial, fun inRange => ⟨fun _ => Or.inl trivial, fun isBet =>
                ⟨fun _ => Or.inl trivial, fun enough => ?_⟩⟩⟩
              cases marked : t.markBet objUser.nUserId p nBet with
              | none => trivial
              | some t' =>
                  simp only [setTable, record, wp_bind, wp_modify, wp_pure]
                  have range : 0 < p ∧ p ≤ 4 := by omega
                  have state : t.isBetState = true := by simpa using isBet
                  have inGold : checkBetOverRange cfg t objUser nBet = true := by simpa using enough
                  have accepted : acceptsBet cfg s u p nBet = true := by
                    simp only [acceptsBet, object, mapped, Option.bind_some, found, state, inGold,
                      decide_eq_true (not_lt.mp nonneg), decide_eq_true range, Bool.and_self]
                  refine Or.inr ⟨accepted, rfl, rfl, fun covered v => ?_⟩
                  have sameId : t'.nTableId = id := (Table.markBet_bets marked).1.trans (TableMap.nTableId_of_get found)
                  rw [← isUser] at covered
                  have grown := markBet_risk (not_lt.mp nonneg) range.1 range.2 marked (covered id mapped t found)
                  have atTable : ∀ k, ({ s with tableMap := s.tableMap.put t' } : RoomState).riskAt k v ≤
                      s.riskAt k v + if k = id then (if v = u then nBet else 0) else 0 := by
                    intro k
                    rw [riskAt_put, sameId]
                    by_cases here : k = id
                    · subst here
                      rw [if_pos rfl, if_pos rfl, RoomState.riskAt_of_get found, ← isUser]
                      exact grown v
                    · rw [if_neg here, if_neg here, add_zero]
                  refine riskOf_add_le ?_ atTable nodup
                  split
                  · exact not_lt.mp nonneg
                  · exact le_refl 0

end GameServer.Room
