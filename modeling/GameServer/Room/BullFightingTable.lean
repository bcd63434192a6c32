/-
Module: GameServer.Room.BullFightingTable
Purpose: The room server and its bull-fighting tables: bets, the three timer callbacks, and the
  settlement of a round.
Trusted boundary: what is sent to players is not kept, and sending does not fail; positions are whole
  numbers; a table is told by its id; no number is above the largest of the format
Main exports: Table, RoomState, RoomConfig, userBet, initGame, settlement, timerOver
-/
import GameServer.Lib.LuaM
import GameServer.Logic.RoomService
import GameServer.Room.Cards

namespace GameServer.Room

open Lib Lib.LuaM Script
open Logic (SettlementRow)
open Arithmetic (rounding)

/-! ## State

Tables with their bets and hands, the timers that are pending for them, and what the room sends to the logic server.
-/

/-- `GAME_STATE_DEF.BullFighting`. -/
def stateInit : Nat := 0

def stateFree : Nat := 1

def stateBet : Nat := 2

def stateSettlement : Nat := 3

/-- A table.  `round` counts the games that were started at it; no function reads it. -/
structure Table where
  nTableId : Nat
  nState : Nat
  nGameType : Int
  nRoomId : Int
  bIsFull : Bool
  tbSeatUser : List Int
  tbPlayerBet : List ℚ
  tbUserBet : Int → Option (List ℚ)
  objShuffler : BullFightingShuffler
  round : Nat

/-- `BullFightingTableClass:new(nId)`. -/
def Table.new (nId : Nat) : Table where
  nTableId := nId
  nState := 0
  nGameType := 0
  nRoomId := 0
  bIsFull := false
  tbSeatUser := []
  tbPlayerBet := []
  tbUserBet _ := none
  objShuffler := .new false
  round := 0

/-- `m_tbTableMap`: every table stands under its own id. -/
structure TableMap where
  tables : Nat → Option Table
  keyed : ∀ id t, tables id = some t → t.nTableId = id

namespace TableMap

def empty : TableMap where
  tables _ := none
  keyed _ _ found := absurd found (by simp)

def get (m : TableMap) (nTableId : Nat) : Option Table := m.tables nTableId

/-- `CacheTable`, and every change of a table object. -/
def put (m : TableMap) (t : Table) : TableMap where
  tables := Function.update m.tables t.nTableId (some t)
  keyed id other found := by
    by_cases same : id = t.nTableId
    · subst same
      rw [Function.update_self] at found
      cases found
      rfl
    · rw [Function.update_of_ne same] at found
      exact m.keyed id other found

/-- A change of one table leaves the others. -/
theorem get_put (m : TableMap) (t : Table) (id : Nat) :
    (m.put t).get id = if id = t.nTableId then some t else m.get id := by
  by_cases same : id = t.nTableId
  · simp [get, put, same]
  · simp [get, put, same]

/-- A table is found under its own id. -/
theorem nTableId_of_get {m : TableMap} {id : Nat} {t : Table} (found : m.get id = some t) :
    t.nTableId = id := m.keyed id t found

end TableMap

/-- The callbacks the tables give to the timer. -/
inductive TableTimer where
  | freeTimerOver
  | betTimerOver
  | settlementTimerOver
deriving Repr, DecidableEq

/-- A timer that was added for a table. -/
structure PendingTimer where
  nTableId : Nat
  callback : TableTimer
  span : ℚ
deriving DecidableEq

/-- What happened: the state of a table was set, a game was started, a bet was accepted, a settlement was
begun (on the hands that it found), a settlement counted the bets of a seat, a settlement moved a user's gold.
`run` numbers the settlements. -/
inductive RoomEvent where
  | state (nTableId nState : Nat)
  | initGame (nTableId round : Nat) (hands : Option (List (List Nat)))
  | bet (nTableId round : Nat) (nUserId nPosition : Int) (nBet : ℚ)
  | settlement (nTableId round run : Nat) (hands : List (List Nat))
  | counted (nTableId round run : Nat) (nUserId : Int) (tbUserBet : List ℚ)
  | gold (nTableId round run : Nat) (nUserId : Int) (nCount : ℚ)
deriving DecidableEq

/-- The room server.  `random` holds the raw numbers `math.random` will use, `toLogic` the settlement
records sent to the logic server; no function reads `settlements` and `trace`. -/
structure RoomState where
  pool : UserPool
  net : NetManager
  roomList : Int → Option (Int → Option (List Nat))
  tableMap : TableMap
  userTableMap : Int → Option Nat
  tbIds : List Nat
  timers : List PendingTimer
  toLogic : List (List SettlementRow)
  random : Nat → Nat
  settlements : Nat
  trace : List RoomEvent

/-- What comes from `dev_share`: the class of user objects, the number of the game type
`BULL_FIGHTING`, the odds for the points of the winner, the commission, and the time each state
lasts. -/
structure RoomConfig where
  script : UserScript
  bullFighting : Int
  odds : Nat → ℚ
  commission : ℚ
  freeSpan : ℚ
  betSpan : ℚ
  settlementSpan : ℚ

/-! ## Bets

The methods of a table that only look at it, and what `MarkBet` and `InitGame` change.
-/

namespace Table

section Bets

variable [Arithmetic]

/-- `GetSumOfUserBet`: the bets are added one after the other. -/
def getSumOfUserBet (t : Table) (nUserId : Int) : ℚ :=
  match t.tbUserBet nUserId with
  | some tbUserBet => tbUserBet.foldl rounding.add 0
  | none => 0

/-- `MarkBet`: the table afterwards, or none when it raises, because no game was started yet. -/
def markBet (t : Table) (nUserId nPosition : Int) (nBet : ℚ) : Option Table :=
  if nPosition > 0 ∧ nPosition ≤ 4 then
    let i := nPosition.toNat - 1
    match t.tbPlayerBet[i]? with
    | none => none
    | some total =>
        let tbUserBet := (t.tbUserBet nUserId).getD [0, 0, 0, 0]
        some { t with
          tbPlayerBet := t.tbPlayerBet.set i (rounding.add total nBet)
          tbUserBet := Function.update t.tbUserBet nUserId
            (some (tbUserBet.set i (rounding.add (tbUserBet.getD i 0) nBet))) }
  else
    some t

end Bets

/-- `IsBetState`. -/
def isBetState (t : Table) : Bool := t.nState = stateBet

/-- `StateForward`. -/
def stateForward (t : Table) : Table := { t with nState := t.nState + 1 }

/-- `m_nTotalHand` and `m_nSingleHand`. -/
def nTotalHand : Nat := 5

def nSingleHand : Nat := 5

/-- The changes `InitGame` makes to the table. -/
def startGame (t : Table) (random : Nat → Nat) : Table :=
  { t.stateForward with
    tbUserBet := fun _ => none
    tbPlayerBet := [0, 0, 0, 0]
    objShuffler := t.objShuffler.shuffle random nTotalHand nSingleHand
    round := t.round + 1 }

end Table

/-- The answers of `UserBet`. -/
inductive BetCode where
  | paramterError
  | canNotBet
  | betIsTooLarge
  | ok
deriving Repr, DecidableEq

variable (cfg : RoomConfig)

/-- `GetMaxOdds`. -/
def getMaxOdds : ℚ := cfg.odds 10

/-- `CheckBetOverRange`. -/
def checkBetOverRange [Arithmetic] (t : Table) (objUser : UserData) (nBet : ℚ) : Bool :=
  objUser.getGold > rounding.mul (rounding.add (t.getSumOfUserBet objUser.nUserId) nBet) (getMaxOdds cfg)

/-! ## Reading and writing tables

Methods work on table objects; a method that is called on nil raises.
-/

/-- The table object with that id; a method called on nil raises. -/
def getTable (nTableId : Nat) : LuaM RoomState Table := do
  let s ← get
  match s.tableMap.get nTableId with
  | some t => return t
  | none => raise

/-- A change of a table object. -/
def setTable (t : Table) : LuaM RoomState Unit :=
  modify fun s => { s with tableMap := s.tableMap.put t }

def record (event : RoomEvent) : LuaM RoomState Unit :=
  modify fun s => { s with trace := s.trace ++ [event] }

/-- `SetState`, for a table object that has its new state already. -/
def setState (t : Table) : LuaM RoomState Unit := do
  setTable t
  record (.state t.nTableId t.nState)

/-- `G_Timer:add_timer`. -/
def addTimer (nTableId : Nat) (span : ℚ) (callback : TableTimer) : LuaM RoomState Unit :=
  modify fun s => { s with timers := s.timers ++ [⟨nTableId, callback, span⟩] }

/-- `UserBet`. -/
def userBet [Arithmetic] (nTableId : Nat) (objUser : UserData) (nPosition : Int) (nBet : ℚ) :
    LuaM RoomState BetCode := do
  let t ← getTable nTableId
  if nPosition ≤ 0 ∨ nPosition > 4 then
    return .paramterError
  else if !t.isBetState then
    return .canNotBet
  else if !checkBetOverRange cfg t objUser nBet then
    return .betIsTooLarge
  else
    match t.markBet objUser.nUserId nPosition nBet with
    | none => raise
    | some marked => do
        setTable marked
        record (.bet nTableId t.round objUser.nUserId nPosition nBet)
        return .ok

@[simp] theorem wp_getTable {Q : Table → RoomState → Prop} {R : RoomState → Prop} {s : RoomState}
    (nTableId : Nat) : wp (getTable nTableId) Q R s ↔
      match s.tableMap.get nTableId with
      | some t => Q t s
      | none => R s := by
  simp only [getTable, wp_bind, wp_get]
  cases s.tableMap.get nTableId <;> rfl

/-! ## Games

The callbacks of the three timers and what they call. A settlement notes for each seat the bets that it went through.
-/

/-- `InitGame`. -/
def initGame (nTableId : Nat) : LuaM RoomState Unit := do
  let t ← getTable nTableId
  let s ← get
  let started := t.startGame s.random
  setState started
  modify fun s => { s with random := fun k => s.random (k + t.objShuffler.tbGameCard.length) }
  record (.initGame nTableId started.round started.objShuffler.tbShufflerResult)
  addTimer nTableId cfg.freeSpan .freeTimerOver

/-- `CheckState`. -/
def checkState (nTableId : Nat) : LuaM RoomState Unit := do
  let t ← getTable nTableId
  if t.nState = stateInit ∧ t.tbSeatUser.length > 0 then
    initGame cfg nTableId
  else
    pure ()

/-- `FreeTimerOver`. -/
def freeTimerOver (nTableId : Nat) : LuaM RoomState Unit := do
  let t ← getTable nTableId
  setState t.stateForward
  addTimer nTableId cfg.betSpan .betTimerOver

section Settlement

variable [Arithmetic]

/-- The inner loop of `Settlement`: what a user's bets bring beside the count so far, given the odds of the positions.
None stands for the error of a bet on a position without a hand. -/
def seatCount (commission : ℚ) : (odds : List ℚ) → (nCount : ℚ) → List ℚ → Option ℚ
  | _, nCount, [] => some nCount
  | [], nCount, nBet :: bets => if nBet > 0 then none else seatCount commission [] nCount bets
  | nWinOdds :: odds, nCount, nBet :: bets =>
      let nCount :=
        if nBet > 0 then
          if rounding.mul nBet nWinOdds > 0 then
            rounding.add nCount (rounding.mul nBet (rounding.sub 1 commission))
          else
            rounding.sub nCount nBet
        else
          nCount
      seatCount commission odds nCount bets

/-- The loop of `Settlement` over the seats, with the record so far.  The bets that a turn has gone through are
noted in the turn. -/
def settleSeats (t : Table) (run : Nat) (odds : List ℚ) :
    List Int → List SettlementRow → LuaM RoomState (List SettlementRow)
  | [], rows => return rows
  | nUserId :: seats, rows =>
      match t.tbUserBet nUserId with
      | none => settleSeats t run odds seats rows
      | some tbUserBet =>
          match seatCount cfg.commission odds 0 tbUserBet with
          | none => raise
          | some nCount => do
              record (.counted t.nTableId t.round run nUserId tbUserBet)
              if nCount = 0 then
                settleSeats t run odds seats rows
              else do
                let s ← get
                match s.pool.getUserObject nUserId with
                | none => raise
                | some objUser =>
                    match objUser.changeGold cfg.script nCount with
                    | none => raise
                    | some changed => do
                        modify fun s => { s with pool := s.pool.cacheUserObject changed }
                        record (.gold t.nTableId t.round run nUserId nCount)
                        settleSeats t run odds seats (rows ++ [⟨nUserId, nCount, changed.getGold⟩])

end Settlement

/-- The odds of the players' hands against the dealer's, which is the first. -/
def handOdds (hands : List (List Nat)) : List ℚ :=
  match hands with
  | [] => []
  | tbDealerCard :: tbPlayerCards =>
      tbPlayerCards.map fun tbPlayerCard => (compareCard cfg.odds tbPlayerCard tbDealerCard).2

/-- `Settlement`. -/
def settlement [Arithmetic] (nTableId : Nat) : LuaM RoomState Unit := do
  let t ← getTable nTableId
  match t.objShuffler.tbShufflerResult with
  | none => raise
  | some hands => do
      let s ← get
      modify fun s => { s with settlements := s.settlements + 1 }
      record (.settlement nTableId t.round s.settlements hands)
      let rows ← settleSeats cfg t s.settlements (handOdds cfg hands) t.tbSeatUser []
      if rows.length > 0 then
        modify fun s => { s with toLogic := s.toLogic ++ [rows] }
      else
        pure ()

/-- `BetTimerOver`. -/
def betTimerOver [Arithmetic] (nTableId : Nat) : LuaM RoomState Unit := do
  settlement cfg nTableId
  let t ← getTable nTableId
  setState t.stateForward
  addTimer nTableId cfg.settlementSpan .settlementTimerOver

/-- `SettlementTimerOver`. -/
def settlementTimerOver (nTableId : Nat) : LuaM RoomState Unit := do
  let t ← getTable nTableId
  if t.tbSeatUser.length > 0 then do
    setState { t with nState := stateInit }
    checkState cfg nTableId
  else
    pure ()

/-- The callback of a timer. -/
def timerOver [Arithmetic] : TableTimer → Nat → LuaM RoomState Unit
  | .freeTimerOver => freeTimerOver cfg
  | .betTimerOver => betTimerOver cfg
  | .settlementTimerOver => settlementTimerOver cfg

end GameServer.Room
