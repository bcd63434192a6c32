/-
Module: GameServer.Room.BetLedger
Purpose: The two tables in which a table records bets, by position and by user: over any run of bets that fit the
  numbers, state changes and new rounds they agree with each other and with the bets that were accepted.
Trusted boundary: as for the tables; positions are whole numbers; no sum is above the largest double
Main exports: AcceptedBet, Balanced, LedgerCall, ledgerStep, userBet_spec, LedgerHolds, BetHonest, BetFits,
  bet_ledger_of_fits
-/
import GameServer.Lib.Runs
import GameServer.Room.BetSums
import GameServer.Room.Seats

namespace GameServer.Room

open Lib Lib.LuaM Script
open Arithmetic (rounding)

variable (cfg : RoomConfig)

/-! ## An entry of a list grows

What adding to one entry does to the entry, to the sum and to the signs.
-/

section Entries

variable {l : List ℚ} {i : Nat} (inside : i < l.length) (nBet : ℚ)

include inside

theorem getD_set_add (j : Nat) :
    (l.set i (l.getD i 0 + nBet)).getD j 0 = l.getD j 0 + if j = i then nBet else 0 := by
  by_cases same : j = i
  · subst same
    simp [inside]
  · simp [same, Ne.symm same]

theorem sum_set_add : (l.set i (l.getD i 0 + nBet)).sum = l.sum + nBet := by
  rw [List.sum_set', dif_pos inside, List.getD_eq_getElem _ _ inside]
  ring

theorem nonneg_set_add {nBet : ℚ} (nonneg : 0 ≤ nBet) (entries : ∀ x ∈ l, 0 ≤ x) :
    ∀ x ∈ l.set i (l.getD i 0 + nBet), 0 ≤ x := by
  intro x member
  rcases List.mem_or_eq_of_mem_set member with old | rfl
  · exact entries x old
  · rw [List.getD_eq_getElem _ _ inside]
    exact add_nonneg (entries _ (List.getElem_mem inside)) nonneg

end Entries

/-! ## Balance

The bets of a table are kept twice, by position and by user. Both are compared with the bets that were accepted.
-/

/-- A bet that was accepted, with the round of the table. -/
structure AcceptedBet where
  round : Nat
  nUserId : Int
  nBet : ℚ
deriving DecidableEq

/-- What was accepted from a user in a round. -/
def acceptedSum (accepted : List AcceptedBet) (round : Nat) (nUserId : Int) : ℚ :=
  ((accepted.filter fun bet => bet.round = round ∧ bet.nUserId = nUserId).map AcceptedBet.nBet).sum

/-- The bets of a table by position and by user agree with each other and with what was accepted. -/
structure Balanced (t : Table) (accepted : List AcceptedBet) : Prop where
  positions : t.tbPlayerBet.length = 4
  rows : ∀ u, (t.betRow u).length = 4 ∧ ∀ nBet ∈ t.betRow u, 0 ≤ nBet
  totals : ∃ users : Finset Int, (∀ u ∉ users, t.tbUserBet u = none) ∧
    ∀ i < 4, t.tbPlayerBet.getD i 0 = ∑ u ∈ users, (t.betRow u).getD i 0
  sums : ∀ u, (t.betRow u).sum = acceptedSum accepted t.round u

/-- No total is negative either. -/
theorem Balanced.totals_nonneg {t : Table} {accepted : List AcceptedBet} (balanced : Balanced t accepted) :
    ∀ total ∈ t.tbPlayerBet, 0 ≤ total := by
  intro total member
  obtain ⟨i, inside, rfl⟩ := List.getElem_of_mem member
  obtain ⟨users, -, totals⟩ := balanced.totals
  have four := balanced.positions
  have sum := totals i (by omega)
  rw [List.getD_eq_getElem _ _ inside] at sum
  rw [sum]
  apply Finset.sum_nonneg
  intro u _
  have rowInside : i < (t.betRow u).length := by
    rw [(balanced.rows u).1]
    omega
  rw [List.getD_eq_getElem _ _ rowInside]
  exact (balanced.rows u).2 _ (List.getElem_mem rowInside)

/-- A table without bets, in a round in which none was accepted. -/
theorem Balanced.of_noBets {t : Table} {accepted : List AcceptedBet}
    (positions : t.tbPlayerBet = [0, 0, 0, 0]) (users : ∀ u, t.tbUserBet u = none)
    (earlier : ∀ bet ∈ accepted, bet.round < t.round) : Balanced t accepted where
  positions := by rw [positions]; rfl
  rows u := by simp [Table.betRow, users]
  totals := by
    refine ⟨∅, fun u _ => users u, fun i inside => ?_⟩
    rw [Finset.sum_empty, positions]
    interval_cases i <;> rfl
  sums u := by
    have none : accepted.filter (fun bet => bet.round = t.round ∧ bet.nUserId = u) = [] := by
      apply List.filter_eq_nil_iff.mpr
      intro bet member now
      exact absurd (of_decide_eq_true now).1 (Nat.ne_of_lt (earlier bet member))
    rw [Table.betRow, users, acceptedSum, none]
    simp

/-- `MarkBet` on a position of a started game adds a bet that fits to its total and to the user's row. -/
theorem Table.markBet_started [Arithmetic] {t : Table} (four : t.tbPlayerBet.length = 4) {u p : Int} (low : 0 < p)
    (high : p ≤ 4) {nBet : ℚ} (exactly : Exactly t u p nBet) :
    t.markBet u p nBet = some { t with
      tbPlayerBet := t.tbPlayerBet.set (p.toNat - 1) (t.tbPlayerBet.getD (p.toNat - 1) 0 + nBet)
      tbUserBet := Function.update t.tbUserBet u (some (rowWith t u p nBet)) } := by
  have inside : p.toNat - 1 < t.tbPlayerBet.length := by omega
  rw [Table.markBet_of_exactly low high (List.getElem?_eq_getElem inside) exactly,
    List.getD_eq_getElem _ _ inside]

/-- One accepted bet more. -/
theorem acceptedSum_snoc (accepted : List AcceptedBet) (round : Nat) (u v : Int) (nBet : ℚ) :
    acceptedSum (accepted ++ [⟨round, u, nBet⟩]) round v =
      acceptedSum accepted round v + if v = u then nBet else 0 := by
  by_cases same : v = u
  · simp [acceptedSum, same]
  · simp [acceptedSum, same, Ne.symm same]

/-- A bet that fits is marked and counted as accepted. -/
theorem Balanced.markBet [Arithmetic] {t t' : Table} {accepted : List AcceptedBet} (balanced : Balanced t accepted)
    {u p : Int} (low : 0 < p) (high : p ≤ 4) {nBet : ℚ} (nonneg : 0 ≤ nBet) (exactly : Exactly t u p nBet)
    (marked : t.markBet u p nBet = some t') : Balanced t' (accepted ++ [⟨t.round, u, nBet⟩]) := by
  have four := balanced.positions
  have rowFour := (balanced.rows u).1
  rw [Table.markBet_started four low high exactly, Option.some.injEq] at marked
  have place : p.toNat - 1 < 4 := by omega
  have inside : p.toNat - 1 < (t.betRow u).length := by omega
  have row : ∀ v, t'.betRow v = if v = u then
      (t.betRow u).set (p.toNat - 1) ((t.betRow u).getD (p.toNat - 1) 0 + nBet) else t.betRow v := by
    intro v
    rw [← marked]
    by_cases same : v = u
    · simp [Table.betRow, rowWith, same]
    · simp [Table.betRow, same]
  constructor
  · rw [← marked, List.length_set, four]
  · intro v
    rw [row]
    by_cases same : v = u
    · rw [if_pos same, List.length_set]
      exact ⟨rowFour, nonneg_set_add inside nonneg (balanced.rows u).2⟩
    · rw [if_neg same]
      exact balanced.rows v
  · obtain ⟨users, nobodyElse, totals⟩ := balanced.totals
    refine ⟨insert u users, ?_, ?_⟩
    · intro v outside
      obtain ⟨other, notUser⟩ := not_or.mp (mt Finset.mem_insert.mpr outside)
      rw [← marked]
      exact (Function.update_of_ne other ..).trans (nobodyElse v notUser)
    · intro j range
      have entry : ∀ v, (t'.betRow v).getD j 0 =
          (t.betRow v).getD j 0 + if v = u then (if j = p.toNat - 1 then nBet else 0) else 0 := by
        intro v
        rw [row]
        by_cases same : v = u
        · rw [if_pos same, if_pos same, getD_set_add inside, same]
        · rw [if_neg same, if_neg same, add_zero]
      -- a user who had no row yet adds nothing to the old total
      have before : ∑ v ∈ insert u users, (t.betRow v).getD j 0 = t.tbPlayerBet.getD j 0 := by
        rw [totals j range]
        apply Finset.sum_insert_of_eq_zero_if_notMem
        intro outside
        rw [Table.betRow, nobodyElse u outside]
        interval_cases j <;> rfl
      calc t'.tbPlayerBet.getD j 0
          = t.tbPlayerBet.getD j 0 + if j = p.toNat - 1 then nBet else 0 := by
            rw [← marked]
            exact getD_set_add (by omega) nBet j
        _ = ∑ v ∈ insert u users, (t'.betRow v).getD j 0 := by
            simp only [entry, Finset.sum_add_distrib, before, Finset.sum_ite_eq', Finset.mem_insert_self,
              if_true]
  · intro v
    have sum := balanced.sums v
    have sameRound : t'.round = t.round := by rw [← marked]
    rw [sameRound, acceptedSum_snoc, row, ← sum]
    by_cases same : v = u
    · rw [if_pos same, if_pos same, sum_set_add inside, same]
    · rw [if_neg same, if_neg same, add_zero]

/-! ## What the other calls do to the bets

Every other call leaves the bets of a round as they are, or begins a new round without bets.
-/

/-- The bets of a table are as before, or a later round has begun and there are none. -/
def Table.FollowedBy (t t' : Table) : Prop :=
  (t'.tbPlayerBet = t.tbPlayerBet ∧ t'.tbUserBet = t.tbUserBet ∧ t'.round = t.round) ∨
    (t'.tbPlayerBet = [0, 0, 0, 0] ∧ (∀ u, t'.tbUserBet u = none) ∧ t.round < t'.round)

theorem Table.FollowedBy.refl (t : Table) : t.FollowedBy t := .inl ⟨rfl, rfl, rfl⟩

/-- Calls one after the other. -/
theorem Table.FollowedBy.trans {t t' t'' : Table} (first : t.FollowedBy t') (second : t'.FollowedBy t'') :
    t.FollowedBy t'' := by
  rcases second with ⟨total, users, round⟩ | ⟨total, users, round⟩
  · rw [Table.FollowedBy, total, users, round]
    exact first
  · refine .inr ⟨total, users, ?_⟩
    rcases first with ⟨-, -, same⟩ | ⟨-, -, later⟩
    · exact same ▸ round
    · exact later.trans round

/-- What happens to the bets of one table. -/
def TableFollows (nTableId : Nat) (s s' : RoomState) : Prop :=
  ∀ t, s.tableMap.get nTableId = some t → ∃ t', s'.tableMap.get nTableId = some t' ∧ t.FollowedBy t'

instance (nTableId : Nat) : IsPreorder RoomState (TableFollows nTableId) where
  refl s t found := ⟨t, found, .refl t⟩
  trans s s' s'' first second t found := by
    obtain ⟨t', found', follows⟩ := first t found
    obtain ⟨t'', found'', follows'⟩ := second t' found'
    exact ⟨t'', found'', follows.trans follows'⟩

theorem TableFollows.of_put {nTableId id : Nat} {s s' : RoomState} {t t' : Table}
    (put : s'.tableMap = s.tableMap.put t') (found : s.tableMap.get id = some t)
    (sameId : t'.nTableId = t.nTableId) (follows : t.FollowedBy t') : TableFollows nTableId s s' := by
  intro other isOther
  have idEq : t'.nTableId = id := sameId.trans (TableMap.nTableId_of_get found)
  simp only [put, TableMap.get_put, idEq]
  by_cases here : nTableId = id
  · subst here
    cases found.symm.trans isOther
    exact ⟨t', if_pos rfl, follows⟩
  · exact ⟨other, by rw [if_neg here, isOther], .refl other⟩

theorem tableFollows_kept (nTableId : Nat) : KeptByTables (TableFollows nTableId) where
  elsewhere tables _ _ _ := by
    intro t found
    exact ⟨t, tables ▸ found, .refl t⟩
  setState found _ := .of_put rfl found rfl (.inl ⟨rfl, rfl, rfl⟩)
  startGame found _ := .of_put rfl found rfl (.inr ⟨rfl, fun _ => rfl, Nat.lt_succ_self _⟩)

/-! ## Calls

Bets and everything else that can happen at the room, with the list of accepted bets beside it.
-/

/-- What is done at a table: bets that are not negative, by anybody, changes of its state, and new
rounds. -/
inductive LedgerCall where
  | userBet (objUser : UserData) (nPosition : Int) (nBet : ℚ) (nonneg : 0 ≤ nBet)
  | sitDown (nUserId : Int)
  | setState (nState : Nat)
  | initGame
  | timerOver (callback : TableTimer)

/-- A room server with the bets that a table accepted. -/
structure Ledger where
  room : RoomState
  accepted : List AcceptedBet

/-- The round of the table. -/
def Ledger.round (l : Ledger) (nTableId : Nat) : Nat := ((l.room.tableMap.get nTableId).map Table.round).getD 0

def ledgerStep [Arithmetic] (nTableId : Nat) (l : Ledger) : LedgerCall → Ledger
  | .userBet objUser nPosition nBet _ =>
      match exec (userBet cfg nTableId objUser nPosition nBet) l.room with
      | (.ok .ok, s) =>
          { room := s, accepted := l.accepted ++ [⟨l.round nTableId, objUser.nUserId, nBet⟩] }
      | (_, s) => { l with room := s }
  | .sitDown nUserId => { l with room := (exec (sitDown nTableId nUserId) l.room).2 }
  | .setState nState =>
      { l with
        room := (exec (do
          let t ← getTable nTableId
          setState { t with nState := nState }) l.room).2 }
  | .initGame => { l with room := (exec (initGame cfg nTableId) l.room).2 }
  | .timerOver callback => { l with room := (exec (timerOver cfg callback nTableId) l.room).2 }

/-- The ledger of a table: its bets balance from the first round on, and before it there are none. -/
structure Standing (t : Table) (accepted : List AcceptedBet) : Prop where
  rounds : ∀ bet ∈ accepted, bet.round ≤ t.round
  unstarted : t.round = 0 → t.tbPlayerBet = []
  balanced : 0 < t.round → Balanced t accepted

/-- A ledger stands on while nothing is bet. -/
theorem Standing.follow {t t' : Table} {accepted : List AcceptedBet} (standing : Standing t accepted)
    (follows : t.FollowedBy t') : Standing t' accepted := by
  rcases follows with ⟨total, users, round⟩ | ⟨total, users, round⟩
  · refine ⟨round ▸ standing.rounds, fun zero => total.trans (standing.unstarted (round ▸ zero)), ?_⟩
    intro started
    have before := standing.balanced (round ▸ started)
    constructor
    · rw [total]
      exact before.positions
    · intro u
      rw [Table.betRow, users]
      exact before.rows u
    · simp only [Table.betRow, users, total]
      exact before.totals
    · intro u
      rw [Table.betRow, users, round]
      exact before.sums u
  · refine ⟨fun bet member => (standing.rounds bet member).trans (le_of_lt round), ?_, fun _ => ?_⟩
    · intro zero
      omega
    · exact .of_noBets total users fun bet member => lt_of_le_of_lt (standing.rounds bet member) round

section Rounded

variable [Arithmetic]

/-- Rows that stay as they are, or are empty in a later round, are added up without rounding as before. -/
theorem RowsKept.follow {t t' : Table} (kept : RowsKept t)
    (follows : t.FollowedBy t') : RowsKept t' := by
  intro u k
  rcases follows with ⟨-, users, -⟩ | ⟨-, users, -⟩
  · rw [Table.betRow, users]
    exact kept u k
  · exact RowsKept.of_noBets users u k

/-- `UserBet` at a table: a bet that is accepted was marked and was within range, and otherwise nothing
changed. -/
theorem userBet_spec {nTableId : Nat} (objUser : UserData) (nPosition : Int) (nBet : ℚ) (s : RoomState)
    {t : Table} (found : s.tableMap.get nTableId = some t) :
    wp (userBet cfg nTableId objUser nPosition nBet)
      (fun code s' => (code ≠ .ok → s' = s) ∧ (code = .ok → (0 < nPosition ∧ nPosition ≤ 4 ∧
        t.isBetState = true ∧ checkBetOverRange cfg t objUser nBet = true) ∧
        ∃ t', t.markBet objUser.nUserId nPosition nBet = some t' ∧ s'.tableMap.get nTableId = some t'))
      (fun s' => s' = s) s := by
  have sameId := TableMap.nTableId_of_get found
  simp only [userBet, wp_bind, wp_getTable, found, wp_ite, wp_pure]
  refine ⟨fun _ => by simp, fun range => ⟨fun _ => by simp, fun isBet => ⟨fun _ => by simp, fun enough => ?_⟩⟩⟩
  obtain ⟨low, high⟩ := not_or.mp range
  cases marked : t.markBet objUser.nUserId nPosition nBet with
  | none => rfl
  | some t' =>
      simp only [setTable, record, wp_bind, wp_modify, wp_pure]
      have markedId : t'.nTableId = t.nTableId := (Table.markBet_bets marked).1
      refine ⟨fun no => absurd rfl no, fun _ => ⟨⟨not_le.mp low, not_lt.mp high, by simpa using isBet,
        by simpa using enough⟩, t', rfl, ?_⟩⟩
      rw [TableMap.get_put, markedId, sameId, if_pos rfl]

/-- A bet that the table would accept fits the numbers: it is in the betting state, on one of the four positions and in
range. -/
def BetFits (nTableId : Nat) (s : RoomState) (objUser : UserData) (nPosition : Int) (nBet : ℚ) : Prop :=
  ∀ t, s.tableMap.get nTableId = some t → 0 < nPosition ∧ nPosition ≤ 4 ∧ t.isBetState = true ∧
    checkBetOverRange cfg t objUser nBet = true → Exactly t objUser.nUserId nPosition nBet

instance (nTableId : Nat) (s : RoomState) (objUser : UserData) (nPosition : Int) (nBet : ℚ) :
    Decidable (BetFits cfg nTableId s objUser nPosition nBet) :=
  match found : s.tableMap.get nTableId with
  | none => isTrue fun t isTable => by simp [found] at isTable
  | some t =>
      decidable_of_iff (0 < nPosition ∧ nPosition ≤ 4 ∧ t.isBetState = true ∧
          checkBetOverRange cfg t objUser nBet = true → Exactly t objUser.nUserId nPosition nBet)
        ⟨fun fits t' isTable => by cases found.symm.trans isTable; exact fits, fun fits => fits t found⟩

/-- The condition on a call: every bet fits. -/
def CallFits (nTableId : Nat) (l : Ledger) : LedgerCall → Prop
  | .userBet objUser nPosition nBet _ => BetFits cfg nTableId l.room objUser nPosition nBet
  | _ => True

instance (nTableId : Nat) (l : Ledger) (call : LedgerCall) : Decidable (CallFits cfg nTableId l call) :=
  match call with
  | .userBet objUser nPosition nBet _ =>
      inferInstanceAs (Decidable (BetFits cfg nTableId l.room objUser nPosition nBet))
  | .sitDown _ | .setState _ | .initGame | .timerOver _ => isTrue trivial

/-- The ledger of the table with that id is in order, and its rows are added up without rounding. -/
def InOrder (nTableId : Nat) (l : Ledger) : Prop :=
  ∃ t, l.room.tableMap.get nTableId = some t ∧ Standing t l.accepted ∧ RowsKept t

/-- A bet is marked only in a round that was started, and keeps the balance. -/
theorem Standing.markBet {t t' : Table} {accepted : List AcceptedBet} (standing : Standing t accepted)
    {u p : Int} (low : 0 < p) (high : p ≤ 4) {nBet : ℚ} (nonneg : 0 ≤ nBet) (exactly : Exactly t u p nBet)
    (marked : t.markBet u p nBet = some t') :
    0 < t'.round ∧ t'.round = t.round ∧ t'.betRow u = rowWith t u p nBet ∧
      (∀ v ≠ u, t'.betRow v = t.betRow v) ∧ Standing t' (accepted ++ [⟨t.round, u, nBet⟩]) := by
  have started : 0 < t.round := by
    by_contra zero
    have noTotals := standing.unstarted (by omega)
    rw [Table.markBet, if_pos ⟨low, high⟩, noTotals] at marked
    exact absurd marked (by simp)
  have balanced := standing.balanced started
  have isMarked := (Table.markBet_started balanced.positions low high exactly).symm.trans marked
  have sameRound : t'.round = t.round := by
    cases isMarked
    rfl
  have row : t'.betRow u = rowWith t u p nBet := by
    cases isMarked
    simp [Table.betRow, rowWith]
  have others : ∀ v ≠ u, t'.betRow v = t.betRow v := by
    intro v other
    cases isMarked
    simp [Table.betRow, other]
  refine ⟨sameRound ▸ started, sameRound, row, others, ?_, fun zero => ?_, fun _ =>
    balanced.markBet low high nonneg exactly marked⟩
  · intro bet member
    rw [sameRound]
    rcases List.mem_append.mp member with before | new
    · exact standing.rounds bet before
    · rw [List.mem_singleton.mp new]
  · omega

/-- A bet that fits is marked exactly, and the rows are added up without rounding afterwards. -/
theorem InOrder.marked {t t' : Table} {accepted : List AcceptedBet} (standing : Standing t accepted)
    (kept : RowsKept t) {u p : Int} (low : 0 < p) (high : p ≤ 4) {nBet : ℚ} (nonneg : 0 ≤ nBet)
    (fits : Exactly t u p nBet) (marked : t.markBet u p nBet = some t') :
    0 < t'.round ∧ t'.round = t.round ∧ Standing t' (accepted ++ [⟨t.round, u, nBet⟩]) ∧ RowsKept t' := by
  obtain ⟨started, sameRound, row, others, after⟩ := standing.markBet low high nonneg fits marked
  refine ⟨started, sameRound, after, fun v k => ?_⟩
  by_cases same : v = u
  · have four : (rowWith t u p nBet).length = 4 := row ▸ ((after.balanced started).rows u).1
    rw [same, row]
    by_cases short : k ≤ 4
    · exact fits.sums k short
    · have whole := fits.sums 4 le_rfl
      rw [List.take_of_length_le (by omega)] at whole ⊢
      exact whole
  · rw [others v same]
    exact kept v k

theorem InOrder.follow {nTableId : Nat} {l : Ledger} (inOrder : InOrder nTableId l) {s : RoomState}
    (follows : TableFollows nTableId l.room s) : InOrder nTableId { l with room := s } := by
  obtain ⟨t, found, standing, kept⟩ := inOrder
  obtain ⟨t', found', after⟩ := follows t found
  exact ⟨t', found', standing.follow after, kept.follow after⟩

/-- One call keeps the ledger in order. -/
theorem InOrder.step {nTableId : Nat} {l : Ledger} (inOrder : InOrder nTableId l) (call : LedgerCall)
    (fits : CallFits cfg nTableId l call) : InOrder nTableId (ledgerStep cfg nTableId l call) := by
  cases call with
  | userBet objUser nPosition nBet nonneg =>
      obtain ⟨t, found, standing, kept⟩ := inOrder
      have spec := userBet_spec cfg objUser nPosition nBet l.room found
      unfold wp at spec
      simp only [ledgerStep]
      cases result : exec (userBet cfg nTableId objUser nPosition nBet) l.room with
      | mk value s =>
          rw [result] at spec
          have refused : s = l.room → InOrder nTableId { l with room := s } := by
            rintro rfl
            exact ⟨t, found, standing, kept⟩
          match value with
          | .error _ => exact refused spec
          | .ok .paramterError => exact refused (spec.1 (by decide))
          | .ok .canNotBet => exact refused (spec.1 (by decide))
          | .ok .betIsTooLarge => exact refused (spec.1 (by decide))
          | .ok .ok =>
              obtain ⟨inRange, t', marked, found'⟩ := spec.2 rfl
              have exactly := fits t found inRange
              obtain ⟨-, -, after, keptAfter⟩ :=
                InOrder.marked standing kept inRange.1 inRange.2.1 nonneg exactly marked
              have round : l.round nTableId = t.round := by rw [Ledger.round, found]; rfl
              exact ⟨t', found', round ▸ after, keptAfter⟩
  | sitDown nUserId =>
      apply inOrder.follow
      apply wp_same.mp
      simp only [sitDown, wp_bind, wp_getTable]
      cases found : l.room.tableMap.get nTableId with
      | none => exact refl_of (TableFollows nTableId) l.room
      | some t =>
          simp only [setTable, wp_modify]
          exact .of_put rfl found rfl (.inl ⟨rfl, rfl, rfl⟩)
  | setState nState =>
      apply inOrder.follow
      apply wp_same.mp
      simp only [wp_bind, wp_getTable]
      cases found : l.room.tableMap.get nTableId with
      | none => exact refl_of (TableFollows nTableId) l.room
      | some t =>
          simp only [Room.setState, setTable, record, wp_bind, wp_modify]
          exact .of_put rfl found rfl (.inl ⟨rfl, rfl, rfl⟩)
  | initGame => exact inOrder.follow (wp_same.mp (initGame_keeps cfg (tableFollows_kept nTableId) nTableId _))
  | timerOver callback =>
      exact inOrder.follow (wp_same.mp (timerOver_keeps cfg (tableFollows_kept nTableId) callback nTableId _))

/-- What a bet does in a state: refused, it changes nothing; accepted, it is within the gold of the user,
in a round that was started. -/
def BetHonest (nTableId : Nat) (s : RoomState) (objUser : UserData) (nPosition : Int) (nBet : ℚ) : Prop :=
  ∀ result s', exec (userBet cfg nTableId objUser nPosition nBet) s = (result, s') →
    (result ≠ .ok .ok → s' = s) ∧
    (result = .ok .ok → ∃ t', s'.tableMap.get nTableId = some t' ∧ 0 < t'.round ∧
      objUser.getGold > rounding.mul (t'.getSumOfUserBet objUser.nUserId) (getMaxOdds cfg))

/-- A bet that fits is accepted only within the user's gold. -/
theorem InOrder.betHonest {nTableId : Nat} {l : Ledger} (inOrder : InOrder nTableId l) (objUser : UserData)
    (nPosition : Int) {nBet : ℚ} (nonneg : 0 ≤ nBet)
    (fits : BetFits cfg nTableId l.room objUser nPosition nBet) :
    BetHonest cfg nTableId l.room objUser nPosition nBet := by
  obtain ⟨t, found, standing, kept⟩ := inOrder
  intro result s' run
  have spec := userBet_spec cfg objUser nPosition nBet l.room found
  unfold wp at spec
  rw [run] at spec
  match result with
  | .error _ => exact ⟨fun _ => spec, fun isOk => by cases isOk⟩
  | .ok code =>
      refine ⟨fun refused => spec.1 fun isOk => refused (by rw [isOk]), fun accepted => ?_⟩
      cases accepted
      obtain ⟨inRange, t', marked, found'⟩ := spec.2 rfl
      obtain ⟨started, sameRound, after, keptAfter⟩ :=
        InOrder.marked standing kept inRange.1 inRange.2.1 nonneg (fits t found inRange) marked
      refine ⟨t', found', started, ?_⟩
      -- the sum after the bet is the one that the check added up
      have checked : rounding.add (t.getSumOfUserBet objUser.nUserId) nBet =
          t'.getSumOfUserBet objUser.nUserId := by
        have before := (standing.balanced (sameRound ▸ started)).sums objUser.nUserId
        have sum := (after.balanced started).sums objUser.nUserId
        rw [sameRound, acceptedSum_snoc, if_pos rfl, ← before] at sum
        have four := ((after.balanced started).rows objUser.nUserId).1
        have whole := keptAfter objUser.nUserId 4
        rw [List.take_of_length_le four.le, sum] at whole
        rw [Table.getSumOfUserBet_of_kept kept, Table.getSumOfUserBet_of_kept keptAfter, sum]
        exact whole
      have enough := of_decide_eq_true inRange.2.2.2
      rwa [checked] at enough

/-! ## Runs

From a new table on, as long as every bet fits.
-/

/-- The ledger of a table in a started round: the totals of the positions are the sums over the users, no entry is
negative, and the code's sum of a user's bets is the sum of what was accepted from the user in the round. -/
structure LedgerHolds (t : Table) (accepted : List AcceptedBet) : Prop where
  positions : t.tbPlayerBet.length = 4
  totals : ∃ users : Finset Int, (∀ u ∉ users, t.tbUserBet u = none) ∧
    ∀ i < 4, t.tbPlayerBet.getD i 0 = ∑ u ∈ users, (t.betRow u).getD i 0
  nonneg : (∀ total ∈ t.tbPlayerBet, 0 ≤ total) ∧ ∀ u, ∀ nBet ∈ t.betRow u, 0 ≤ nBet
  sums : ∀ u, t.getSumOfUserBet u = acceptedSum accepted t.round u

/-- What the invariant says of a round that has begun. -/
theorem LedgerHolds.of_balanced {t : Table} {accepted : List AcceptedBet} (balanced : Balanced t accepted)
    (kept : RowsKept t) : LedgerHolds t accepted where
  positions := balanced.positions
  totals := balanced.totals
  nonneg := ⟨balanced.totals_nonneg, fun u => (balanced.rows u).2⟩
  sums u := by
    rw [Table.getSumOfUserBet_of_kept kept]
    exact balanced.sums u

/-- Over every run of bets that fit the numbers, state changes and new rounds at a new table: in a started round its
two tables of bets balance with each other and with the bets that were accepted, and the next bet that fits is refused
without a trace or is within the gold of its user. -/
theorem bet_ledger_of_fits (s : RoomState) (nTableId : Nat) (nGameType nRoomId : Int)
    (new : s.tableMap.get nTableId = some (.ofRoom nTableId nGameType nRoomId)) (calls : List LedgerCall)
    (fit : Guarded (always (ledgerStep cfg nTableId)) (CallFits cfg nTableId) ⟨s, []⟩ calls) :
    ∃ t, (calls.foldl (ledgerStep cfg nTableId) ⟨s, []⟩).room.tableMap.get nTableId = some t ∧
      (0 < t.round → LedgerHolds t (calls.foldl (ledgerStep cfg nTableId) ⟨s, []⟩).accepted) ∧
      ∀ objUser nPosition nBet, 0 ≤ nBet →
        BetFits cfg nTableId (calls.foldl (ledgerStep cfg nTableId) ⟨s, []⟩).room objUser nPosition nBet →
        BetHonest cfg nTableId (calls.foldl (ledgerStep cfg nTableId) ⟨s, []⟩).room objUser nPosition nBet := by
  have noRows : RowsKept (.ofRoom nTableId nGameType nRoomId) := .of_noBets fun _ => rfl
  have start : InOrder nTableId ⟨s, []⟩ :=
    ⟨_, new, ⟨by simp, fun _ => rfl, fun started => absurd started (Nat.lt_irrefl 0)⟩, noRows⟩
  have inOrder : InOrder nTableId (calls.foldl (ledgerStep cfg nTableId) ⟨s, []⟩) := by
    apply guarded_invariant _ start fit (runSteps_always ..)
    intro l call l' before fits step
    cases step
    exact before.step cfg call fits
  obtain ⟨t, found, standing, kept⟩ := inOrder
  refine ⟨t, found, fun started => .of_balanced (standing.balanced started) kept, ?_⟩
  intro objUser nPosition nBet nonneg fits
  exact InOrder.betHonest cfg ⟨t, found, standing, kept⟩ objUser nPosition nonneg fits

end Rounded

open scoped DoubleArithmetic

/-- A room server with one new table. -/
def newTableRoom : RoomState where
  pool := .empty
  net := .ctor
  roomList _ := none
  tableMap := TableMap.empty.put (.ofRoom 1 1 1)
  userTableMap _ := none
  tbIds := []
  timers := []
  toLogic := []
  random _ := 0
  settlements := 0
  trace := []

/-- Odds of 1, and time spans of a second. -/
def oddsOne : RoomConfig := ⟨.sound, 1, fun _ => 1, 0, 1, 1, 1⟩

/-- Two users bet in the first round, one of them twice and also half a coin. -/
def threeBets : List LedgerCall :=
  [.sitDown 1, .sitDown 2, .initGame, .timerOver .freeTimerOver, .userBet ⟨1, 100, false⟩ 2 5 (by norm_num),
    .userBet ⟨2, 100, false⟩ 2 7 (by norm_num), .userBet ⟨1, 100, false⟩ 4 (1 / 2) (by norm_num)]

example : (threeBets.foldl (ledgerStep oddsOne 1) ⟨newTableRoom, []⟩).accepted =
    [⟨1, 1, 5⟩, ⟨1, 2, 7⟩, ⟨1, 1, 1 / 2⟩] := by
  decide +kernel

/-- Two rows that grow, one of them by half a coin. -/
theorem bet_ledger_of_fits_threeBets :
    (∃ t, (threeBets.foldl (ledgerStep oddsOne 1) ⟨newTableRoom, []⟩).room.tableMap.get 1 = some t ∧
      (0 < t.round → LedgerHolds t
        (threeBets.foldl (ledgerStep oddsOne 1) ⟨newTableRoom, []⟩).accepted)) ∧
      BetHonest oddsOne 1 (threeBets.foldl (ledgerStep oddsOne 1) ⟨newTableRoom, []⟩).room
        ⟨2, 100, false⟩ 3 (5 / 4) := by
  obtain ⟨t, found, holds, honest⟩ := bet_ledger_of_fits oddsOne newTableRoom 1 1 1 rfl threeBets
    (by decide +kernel)
  exact ⟨⟨t, found, holds⟩, honest ⟨2, 100, false⟩ 3 (5 / 4) (by norm_num) (by decide +kernel)⟩

/-- The double that is written 0.1. -/
def tenth : ℚ := Rounding.binary64.round (1 / 10)

theorem tenth_nonneg : 0 ≤ tenth := Rounding.binary64.nonneg _ (by norm_num)

/-- A user with 1.6 gold bets 0.1 on two positions. -/
def tenthBets : List LedgerCall :=
  [.sitDown 1, .initGame, .timerOver .freeTimerOver,
    .userBet ⟨1, Rounding.binary64.round (8 / 5), false⟩ 1 tenth tenth_nonneg,
    .userBet ⟨1, Rounding.binary64.round (8 / 5), false⟩ 2 tenth tenth_nonneg]

/-- A further bet of 1.4 on the first position passes the check, which adds 0.2 and 1.4 to 1.5999999999999999.  Then
the user's row adds up to 1.6, which is not below his gold. -/
theorem not_betHonest_of_tenths :
    ¬ BetHonest oddsOne 1 (tenthBets.foldl (ledgerStep oddsOne 1) ⟨newTableRoom, []⟩).room
      ⟨1, Rounding.binary64.round (8 / 5), false⟩ 1 (Rounding.binary64.round (7 / 5)) := by
  intro honest
  have accepted := (honest _ _ rfl).2 (by decide +kernel)
  obtain ⟨t, found, -, below⟩ := accepted
  have sum : ∀ t, (exec (userBet oddsOne 1 ⟨1, Rounding.binary64.round (8 / 5), false⟩ 1
      (Rounding.binary64.round (7 / 5))) (tenthBets.foldl (ledgerStep oddsOne 1)
      ⟨newTableRoom, []⟩).room).2.tableMap.get 1 = some t → Rounding.binary64.round (8 / 5) ≤
      rounding.mul (t.getSumOfUserBet 1) (getMaxOdds oddsOne) := by
    decide +kernel
  exact absurd below (not_lt.mpr (sum t found))

end GameServer.Room
