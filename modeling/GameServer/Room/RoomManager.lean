/-
Module: GameServer.Room.RoomManager
Purpose: `RoomManager` and its id generator: rooms, tables, seats, and the requests players make.
Trusted boundary: as for the tables; what is sent to players is not kept
Main exports: IdGenerator, RoomState.ctor, createTable, findATable, sitDown, clientEnterRoom, clientBet
-/
import GameServer.Room.BullFightingTable

namespace GameServer.Room

open Lib Lib.LuaM Script

/-! ## Table ids

The ids of tables are drawn by an id generator of their own.
-/

/-- The loop of `IdGenerator:Init`: `nTop` counts down, and `tabTemp` tells which id stands where a
number that was drawn before stood. -/
def initIds (random : Nat → Nat) (nMin : Nat) : Nat → Nat → (Nat → Option Nat) → List Nat
  | 0, _, _ => []
  | turns + 1, nTop, tabTemp =>
      let nRandResult := mathRandom (random turns) nMin nTop
      let nResult := (tabTemp nRandResult).getD nRandResult
      let tabTemp :=
        if nRandResult ≠ nTop then
          Function.update tabTemp nRandResult (some ((tabTemp nTop).getD nTop))
        else
          tabTemp
      nResult :: initIds random nMin turns (nTop - 1) tabTemp

/-- `m_tbIds` of `IdGenerator:new(nMin, nMax)`. -/
def newIds (random : Nat → Nat) (nMin nMax : Nat) : List Nat :=
  initIds random nMin (nMax + 1 - nMin) nMax fun _ => none

/-- `RoomManager:ctor`, with nobody on the server; `idRandom` holds the raw numbers for the ids and
`random` those for the packs. -/
def RoomState.ctor (idRandom random : Nat → Nat) : RoomState where
  pool := .empty
  net := .ctor
  roomList _ := none
  tableMap := .empty
  userTableMap _ := none
  tbIds := newIds idRandom 100000 999999
  timers := []
  toLogic := []
  random := random
  settlements := 0
  trace := []

variable (cfg : RoomConfig)

/-! ## Rooms and tables

A free table is looked for in the list of its room; when there is none, a new one is made. Its id gets lost on the way
into the list.
-/

/-- `IsRoomOpen`. -/
def isRoomOpen (s : RoomState) (nGameType nRoomId : Int) : Bool :=
  match s.roomList nGameType with
  | some rooms => (rooms nRoomId).isSome
  | none => false

/-- `CreateRoom`. -/
def createRoom (nGameType nRoomId : Int) : LuaM RoomState Unit :=
  modify fun s =>
    let rooms := (s.roomList nGameType).getD fun _ => none
    let tables := (rooms nRoomId).getD []
    { s with
      roomList := Function.update s.roomList nGameType
        (some (Function.update rooms nRoomId (some tables))) }

/-- `GetAllTable`; indexing nil raises. -/
def getAllTable (nGameType nRoomId : Int) : LuaM RoomState (Option (List Nat)) := do
  let s ← get
  match s.roomList nGameType with
  | none => raise
  | some rooms => return rooms nRoomId

/-- The loop of `GetAvailableTable`. -/
def firstNotFull : List Nat → LuaM RoomState (Option Nat)
  | [] => return none
  | nTempId :: tables => do
      let objTableTemp ← getTable nTempId
      if !objTableTemp.bIsFull then return some nTempId else firstNotFull tables

/-- `GetAvailableTable`. -/
def getAvailableTable (nGameType nRoomId : Int) : LuaM RoomState (Option Nat) := do
  match ← getAllTable nGameType nRoomId with
  | none => return none
  | some tables => if tables.length ≤ 0 then return none else firstNotFull tables

/-- `SetNewTableAtRoom`.  Inserting nil into a list leaves it as it is. -/
def setNewTableAtRoom (nGameType nRoomId : Int) (nTableId : Option Nat) : LuaM RoomState Unit := do
  match ← getAllTable nGameType nRoomId, nTableId with
  | none, _ => raise
  | some _, none => pure ()
  | some tables, some id =>
      modify fun s =>
        let rooms := (s.roomList nGameType).getD fun _ => none
        { s with
          roomList := Function.update s.roomList nGameType
            (some (Function.update rooms nRoomId (some (tables ++ [id])))) }

/-- `GetTableId`, that is `IdGenerator:GetOne`. -/
def getTableId : LuaM RoomState (Option Nat) := do
  let s ← get
  match s.tbIds with
  | [] => return none
  | nId :: ids => do
      set { s with tbIds := ids }
      return some nId

/-- The table that `CreateTable` makes. -/
def Table.ofRoom (id : Nat) (nGameType nRoomId : Int) : Table :=
  { Table.new id with nGameType := nGameType, nRoomId := nRoomId }

/-- `CreateTable`.  For another game type there is no table object, and `SetGameType` raises; without
an id, `CacheTable` does.  The last argument of `SetNewTableAtRoom` is a global that nothing sets. -/
def createTable (nGameType nRoomId : Int) : LuaM RoomState Nat := do
  let nId ← getTableId
  if nGameType = cfg.bullFighting then
    match nId with
    | none => raise
    | some id => do
        setTable (.ofRoom id nGameType nRoomId)
        setNewTableAtRoom nGameType nRoomId none
        return id
  else
    raise

/-- `FindATable`. -/
def findATable (nGameType nRoomId : Int) : LuaM RoomState Nat := do
  match ← getAvailableTable nGameType nRoomId with
  | some nTableId => return nTableId
  | none => createTable cfg nGameType nRoomId

/-! ## Players

A player gets a seat at the table that was found, and a bet goes to the table that he is mapped to.
-/

/-- `TableClass:SitDown`. -/
def Table.sitDown (t : Table) (nUserId : Int) : Table :=
  { t with tbSeatUser := t.tbSeatUser ++ [nUserId] }

/-- `SitDown`. -/
def sitDown (nTableId : Nat) (nUserId : Int) : LuaM RoomState Unit := do
  let t ← getTable nTableId
  setTable (t.sitDown nUserId)
  modify fun s =>
    { s with userTableMap := Function.update s.userTableMap nUserId (some nTableId) }

/-- `GetClientDataByState`: it raises in the free state when there is no object for a seated user. -/
def getClientDataByState (nTableId : Nat) : LuaM RoomState Unit := do
  let t ← getTable nTableId
  let s ← get
  if t.nState = stateFree ∧
      t.tbSeatUser.any (fun nUserId => nUserId > 0 ∧ (s.pool.getUserObject nUserId).isNone) then
    raise
  else
    pure ()

/-- The first lines of `ClientEnterRoom`. -/
def openRoom (nGameType nRoomId : Int) : LuaM RoomState Unit := do
  let s ← get
  if !isRoomOpen s nGameType nRoomId then
    createRoom nGameType nRoomId
  else
    pure ()

/-- `ClientEnterRoom`, with the user object made from the game data. -/
def clientEnterRoom (objUser : UserData) (nHandlerId nGameType nRoomId : Int) :
    LuaM RoomState Unit := do
  openRoom nGameType nRoomId
  modify fun s =>
    { s with
      pool := s.pool.cacheUserObject objUser
      net := s.net.updateHandlerIdAndUserId (.number objUser.nUserId) nHandlerId }
  let nTableId ← findATable cfg nGameType nRoomId
  sitDown nTableId objUser.nUserId
  checkState cfg nTableId
  getClientDataByState nTableId

/-- The answers of `ClientBet` that do not come from `UserBet`. -/
def clientBet [Arithmetic] (nUserId nPosition : Int) (nBet : ℚ) : LuaM RoomState BetCode := do
  if nPosition < 0 then
    return .paramterError
  else if nBet < 0 then
    return .paramterError
  else do
    let s ← get
    match s.pool.getUserObject nUserId with
    | none => raise
    | some objUser =>
        match s.userTableMap objUser.nUserId with
        | none => raise
        | some nTableId => userBet cfg nTableId objUser nPosition nBet

end GameServer.Room
