/-
Module: GameServer.Room.Seats
Purpose: What the requests and timers of the room server do to ids, rooms, seats and bets: only entering
  a room takes an id and a seat, and only a bet request adds a bet.
Trusted boundary: none
Main exports: newIds_nodup, seats, HasBet, RoomKeeps, KeptByTables, timerOver_keeps, clientBet_keeps,
  Entered, clientEnterRoom_spec
-/
import GameServer.Room.RoomManager

namespace GameServer.Room

open Lib Lib.LuaM Script

/-! ## Ids

The ids of tables are all different.
-/

/-- What stands at a place of the id generator's list. -/
private def placed (tabTemp : Nat → Option Nat) (i : Nat) : Nat := (tabTemp i).getD i

/-- The drawn place gets what stands at the top place, which is drawn no more. -/
private theorem placed_update (tabTemp : Nat → Option Nat) (drawn nTop i : Nat) (below : i ≠ nTop) :
    placed (if drawn ≠ nTop then
        Function.update tabTemp drawn (some ((tabTemp nTop).getD nTop)) else tabTemp) i =
      if i = drawn then placed tabTemp nTop else placed tabTemp i := by
  by_cases top : drawn = nTop
  · subst top
    simp [below]
  · by_cases same : i = drawn
    · subst same
      simp [placed, top]
    · simp [placed, top, same]

/-- The ids that the loop of `Init` draws stand at places up to `nTop`, and none is drawn twice. -/
theorem initIds_spec (random : Nat → Nat) (nMin turns nTop : Nat) (tabTemp : Nat → Option Nat)
    (range : nTop + 1 = nMin + turns ∨ turns = 0)
    (injective : ∀ i j, nMin ≤ i → i < nMin + turns → nMin ≤ j → j < nMin + turns →
      placed tabTemp i = placed tabTemp j → i = j) :
    (initIds random nMin turns nTop tabTemp).Nodup ∧
      ∀ id ∈ initIds random nMin turns nTop tabTemp,
        ∃ i, nMin ≤ i ∧ i < nMin + turns ∧ placed tabTemp i = id := by
  induction turns generalizing nTop tabTemp with
  | zero => simp [initIds]
  | succ turns ih =>
      have top : nTop = nMin + turns := by omega
      subst top
      generalize drawnEq : mathRandom (random turns) nMin (nMin + turns) = drawn
      have drawnRange : nMin ≤ drawn ∧ drawn < nMin + turns + 1 := by
        have small := Nat.mod_lt (random turns) (show 0 < nMin + turns + 1 - nMin by omega)
        rw [mathRandom] at drawnEq
        omega
      have next := fun i (below : i < nMin + turns) =>
        placed_update tabTemp drawn (nMin + turns) i (by omega)
      have step := ih (nMin + turns - 1)
        (if drawn ≠ nMin + turns then
          Function.update tabTemp drawn (some ((tabTemp (nMin + turns)).getD (nMin + turns)))
        else tabTemp) (by omega) (by
          intro i j lowI highI lowJ highJ same
          rw [next i highI, next j highJ] at same
          split at same <;> split at same
          · omega
          · have clash := injective (nMin + turns) j (by omega) (by omega) lowJ (by omega) same
            omega
          · have clash := injective i (nMin + turns) lowI (by omega) (by omega) (by omega) same
            omega
          · exact injective i j lowI (by omega) lowJ (by omega) same)
      obtain ⟨nodup, places⟩ := step
      simp only [initIds, drawnEq]
      constructor
      · apply List.nodup_cons.mpr
        refine ⟨fun again => ?_, nodup⟩
        obtain ⟨i, lowI, highI, same⟩ := places _ again
        rw [next i highI] at same
        split at same
        · have clash := injective (nMin + turns) drawn (by omega) (by omega) (by omega) (by omega) same
          omega
        · have clash := injective i drawn lowI (by omega) (by omega) (by omega) same
          contradiction
      · intro id member
        rcases List.mem_cons.mp member with rfl | later
        · exact ⟨drawn, by omega, by omega, rfl⟩
        · obtain ⟨i, lowI, highI, same⟩ := places id later
          rw [next i highI] at same
          split at same
          · exact ⟨nMin + turns, by omega, by omega, same⟩
          · exact ⟨i, lowI, by omega, same⟩

/-- A new generator has no id twice. -/
theorem newIds_nodup (random : Nat → Nat) {nMin nMax : Nat} (range : nMin ≤ nMax) :
    (newIds random nMin nMax).Nodup := by
  apply (initIds_spec random nMin _ nMax _ (by omega) ?_).1
  intro i j _ _ _ _ same
  exact same

/-- Every number of the range is drawn. -/
theorem newIds_length (random : Nat → Nat) (nMin nMax : Nat) :
    (newIds random nMin nMax).length = nMax + 1 - nMin := by
  unfold newIds
  generalize nMax + 1 - nMin = turns
  generalize (fun _ => none : Nat → Option Nat) = tabTemp
  induction turns generalizing nMax tabTemp with
  | zero => rfl
  | succ turns ih => simp [initIds, ih]

/-! ## Reading seats and bets

What a call may do to seats, maps and bets.
-/

namespace RoomState

/-- The seats of a table, if there is that table. -/
def seats (s : RoomState) (nTableId : Nat) : Option (List Int) :=
  (s.tableMap.get nTableId).map Table.tbSeatUser

/-- The user has a record of bets at the table. -/
def HasBet (s : RoomState) (nTableId : Nat) (nUserId : Int) : Prop :=
  ∃ t, s.tableMap.get nTableId = some t ∧ t.tbUserBet nUserId ≠ none

end RoomState

open RoomState

/-- What every request and timer does, but for entering a room: ids, rooms and seats stay, and bets are
added only at the table of the user. -/
structure RoomKeeps (s t : RoomState) : Prop where
  ids : t.tbIds = s.tbIds
  rooms : t.roomList = s.roomList
  userTable : t.userTableMap = s.userTableMap
  seats : ∀ id, t.seats id = s.seats id
  bets : ∀ id u, t.HasBet id u → s.HasBet id u ∨ s.userTableMap u = some id

instance : IsPreorder RoomState RoomKeeps where
  refl s := ⟨rfl, rfl, rfl, fun _ => rfl, fun _ _ bet => Or.inl bet⟩
  trans s t r first second := by
    refine ⟨second.ids.trans first.ids, second.rooms.trans first.rooms,
      second.userTable.trans first.userTable, fun id => (second.seats id).trans (first.seats id), ?_⟩
    intro id u bet
    rcases second.bets id u bet with before | atTable
    · exact first.bets id u before
    · exact Or.inr (first.userTable ▸ atTable)

/-- Changes outside the tables, the rooms and the ids. -/
theorem RoomKeeps.of_eq {s t : RoomState} (ids : t.tbIds = s.tbIds) (rooms : t.roomList = s.roomList)
    (userTable : t.userTableMap = s.userTableMap) (tables : t.tableMap = s.tableMap) :
    RoomKeeps s t := by
  refine ⟨ids, rooms, userTable, ?_, ?_⟩
  · intro id
    rw [RoomState.seats, tables]
    rfl
  · rintro id u ⟨x, found, bet⟩
    exact Or.inl ⟨x, tables ▸ found, bet⟩

theorem RoomKeeps.andThen {s t r : RoomState} (first : RoomKeeps s t) (ids : r.tbIds = t.tbIds)
    (rooms : r.roomList = t.roomList) (userTable : r.userTableMap = t.userTableMap)
    (tables : r.tableMap = t.tableMap) : RoomKeeps s r :=
  trans_of RoomKeeps first (.of_eq ids rooms userTable tables)

/-- A change of a table that is there: its seats stay, and new bets are those of users of the table. -/
theorem RoomKeeps.of_put {s : RoomState} {id : Nat} {t t' : Table}
    (found : s.tableMap.get id = some t) (sameId : t'.nTableId = t.nTableId)
    (sameSeats : t'.tbSeatUser = t.tbSeatUser)
    (bets : ∀ u, t'.tbUserBet u ≠ none → t.tbUserBet u ≠ none ∨ s.userTableMap u = some id) :
    RoomKeeps s { s with tableMap := s.tableMap.put t' } := by
  have idEq : t'.nTableId = id := sameId.trans (TableMap.nTableId_of_get found)
  refine ⟨rfl, rfl, rfl, ?_, ?_⟩
  · intro k
    simp only [RoomState.seats, TableMap.get_put, idEq]
    by_cases same : k = id
    · simp [same, found, sameSeats]
    · simp [same]
  · rintro k u ⟨x, isThere, bet⟩
    simp only [TableMap.get_put, idEq] at isThere
    by_cases same : k = id
    · subst same
      rw [if_pos rfl] at isThere
      cases isThere
      rcases bets u bet with before | atTable
      · exact Or.inl ⟨t, found, before⟩
      · exact Or.inr atTable
    · rw [if_neg same] at isThere
      exact Or.inl ⟨x, isThere, bet⟩

/-! ## The callbacks

What the callbacks do is to set the state of their table, to start a game at it, and to change what is
outside the tables.
-/

/-- The relation allows what the callbacks of tables do. -/
structure KeptByTables (rel : RoomState → RoomState → Prop) : Prop where
  elsewhere : ∀ {s s' : RoomState}, s'.tableMap = s.tableMap → s'.tbIds = s.tbIds →
    s'.roomList = s.roomList → s'.userTableMap = s.userTableMap → rel s s'
  setState : ∀ {s : RoomState} {id : Nat} {t : Table}, s.tableMap.get id = some t → ∀ nState,
    rel s { s with tableMap := s.tableMap.put { t with nState := nState } }
  startGame : ∀ {s : RoomState} {id : Nat} {t : Table}, s.tableMap.get id = some t → ∀ random : Nat → Nat,
    rel s { s with tableMap := s.tableMap.put (t.startGame random) }

theorem RoomKeeps.keptByTables : KeptByTables RoomKeeps where
  elsewhere tables ids rooms userTable := .of_eq ids rooms userTable tables
  setState found _ := .of_put found rfl rfl fun _ bet => Or.inl bet
  startGame found _ := .of_put found rfl rfl fun _ bet => absurd rfl bet

variable (cfg : RoomConfig)

section Callbacks

variable {rel : RoomState → RoomState → Prop} [IsPreorder RoomState rel] (kept : KeptByTables rel)

include kept

/-- What follows outside the tables does not matter. -/
theorem KeptByTables.andThen {s t r : RoomState} (first : rel s t) (tables : r.tableMap = t.tableMap)
    (ids : r.tbIds = t.tbIds) (rooms : r.roomList = t.roomList)
    (userTable : r.userTableMap = t.userTableMap) : rel s r :=
  trans_of rel first (kept.elsewhere tables ids rooms userTable)

omit [IsPreorder RoomState rel] in
theorem record_keeps (event : RoomEvent) : Keeps rel (record event) :=
  Keeps.modify fun _ => kept.elsewhere rfl rfl rfl rfl

/-- A new game changes one table. -/
theorem initGame_keeps (id : Nat) : Keeps rel (initGame cfg id) := by
  intro s
  simp only [initGame, wp_bind, wp_getTable]
  cases found : s.tableMap.get id with
  | none => exact refl_of rel s
  | some t =>
      simp only [wp_get, setState, wp_bind, setTable, wp_modify, record, addTimer]
      exact kept.andThen (kept.startGame found s.random) rfl rfl rfl rfl

theorem checkState_keeps (id : Nat) : Keeps rel (checkState cfg id) := by
  intro s
  simp only [checkState, wp_bind, wp_getTable]
  cases found : s.tableMap.get id with
  | none => exact refl_of rel s
  | some t =>
      simp only [wp_ite]
      exact ⟨fun _ => initGame_keeps cfg kept id s, fun _ => refl_of rel s⟩

theorem stateForward_keeps (id : Nat) (span : ℚ) (callback : TableTimer) :
    Keeps rel (do
      let t ← getTable id
      setState t.stateForward
      addTimer id span callback) := by
  intro s
  simp only [wp_bind, wp_getTable]
  cases found : s.tableMap.get id with
  | none => exact refl_of rel s
  | some t =>
      simp only [setState, setTable, record, wp_bind, wp_modify, addTimer]
      exact kept.andThen (kept.setState found (t.nState + 1)) rfl rfl rfl rfl

/-- Turns of a settlement change users and records. -/
theorem settleSeats_keeps [Arithmetic] (t : Table) (run : Nat) (odds : List ℚ) (seats : List Int)
    (rows : List Logic.SettlementRow) : Keeps rel (settleSeats cfg t run odds seats rows) := by
  induction seats generalizing rows with
  | nil => exact Keeps.pure rows
  | cons u seats ih =>
      unfold settleSeats
      split
      · exact ih rows
      · split
        · exact Keeps.raise
        · refine (record_keeps kept _).bind fun _ => ?_
          apply Keeps.ite
          · exact ih rows
          · apply Keeps.get.bind
            intro s
            split
            · exact Keeps.raise
            · split
              · exact Keeps.raise
              · apply Keeps.bind
                · exact Keeps.modify fun _ => kept.elsewhere rfl rfl rfl rfl
                · exact fun _ => (record_keeps kept _).bind fun _ => ih _

/-- So does a settlement. -/
theorem settlement_keeps [Arithmetic] (id : Nat) : Keeps rel (settlement cfg id) := by
  unfold settlement
  apply Keeps.bind
  · intro s
    rw [wp_getTable]
    split <;> exact refl_of rel s
  · intro t
    split
    · exact Keeps.raise
    · apply Keeps.get.bind
      intro s
      apply Keeps.bind
      · exact Keeps.modify fun _ => kept.elsewhere rfl rfl rfl rfl
      · intro _
        refine (record_keeps kept _).bind fun _ =>
          (settleSeats_keeps cfg kept t _ _ _ _).bind fun rows => ?_
        apply Keeps.ite
        · exact Keeps.modify fun _ => kept.elsewhere rfl rfl rfl rfl
        · exact Keeps.pure ()

theorem settlementTimerOver_keeps (id : Nat) : Keeps rel (settlementTimerOver cfg id) := by
  intro s
  simp only [settlementTimerOver, wp_bind, wp_getTable]
  cases found : s.tableMap.get id with
  | none => exact refl_of rel s
  | some t =>
      simp only [wp_ite, wp_bind, setState, setTable, record, wp_modify, wp_pure]
      refine ⟨fun _ => ?_, fun _ => refl_of rel s⟩
      have put : rel s { s with tableMap := s.tableMap.put { t with nState := stateInit } } :=
        kept.setState found stateInit
      have recorded : rel s
          { s with
            tableMap := s.tableMap.put { t with nState := stateInit }
            trace := s.trace ++ [.state t.nTableId stateInit] } :=
        kept.andThen put rfl rfl rfl rfl
      exact wp_mono (checkState_keeps cfg kept id _) (fun _ _ after => trans_of rel recorded after)
        fun _ after => trans_of rel recorded after

/-- The callbacks of tables keep the relation, whether they return or raise. -/
theorem timerOver_keeps [Arithmetic] (callback : TableTimer) (id : Nat) : Keeps rel (timerOver cfg callback id) := by
  cases callback with
  | freeTimerOver => exact stateForward_keeps kept id _ _
  | betTimerOver => exact (settlement_keeps cfg kept id).bind fun _ => stateForward_keeps kept id _ _
  | settlementTimerOver => exact settlementTimerOver_keeps cfg kept id

end Callbacks

/-! ## Requests

A bet adds a row for a user only at the table that he is mapped to.
-/

/-- A bet is marked for its user only. -/
theorem Table.markBet_bets [Arithmetic] {t t' : Table} {nUserId nPosition : Int} {nBet : ℚ}
    (marked : t.markBet nUserId nPosition nBet = some t') :
    t'.nTableId = t.nTableId ∧ t'.tbSeatUser = t.tbSeatUser ∧
      ∀ u, t'.tbUserBet u ≠ none → t.tbUserBet u ≠ none ∨ u = nUserId := by
  unfold Table.markBet at marked
  split at marked
  · dsimp only at marked
    split at marked
    · exact absurd marked (by simp)
    · cases marked
      refine ⟨rfl, rfl, fun u bet => ?_⟩
      by_cases same : u = nUserId
      · exact Or.inr same
      · simp only [Function.update_of_ne same] at bet
        exact Or.inl bet
  · cases marked
    exact ⟨rfl, rfl, fun u bet => Or.inl bet⟩

/-- A bet changes the table of its user. -/
theorem userBet_keeps [Arithmetic] (id : Nat) (objUser : UserData) (nPosition : Int) (nBet : ℚ) (s : RoomState)
    (atTable : s.userTableMap objUser.nUserId = some id) :
    wp (userBet cfg id objUser nPosition nBet) (fun _ t => RoomKeeps s t) (RoomKeeps s) s := by
  simp only [userBet, wp_bind, wp_getTable]
  cases found : s.tableMap.get id with
  | none => exact refl_of RoomKeeps s
  | some t =>
      simp only [wp_ite, wp_pure]
      refine ⟨fun _ => refl_of RoomKeeps s, fun _ => ⟨fun _ => refl_of RoomKeeps s, fun _ =>
        ⟨fun _ => refl_of RoomKeeps s, fun _ => ?_⟩⟩⟩
      cases marked : t.markBet objUser.nUserId nPosition nBet with
      | none => exact refl_of RoomKeeps s
      | some t' =>
          simp only [setTable, record, wp_bind, wp_modify, wp_pure]
          obtain ⟨sameId, sameSeats, bets⟩ := Table.markBet_bets marked
          have put : RoomKeeps s { s with tableMap := s.tableMap.put t' } := by
            apply RoomKeeps.of_put found sameId sameSeats
            intro u bet
            rcases bets u bet with before | rfl
            · exact Or.inl before
            · exact Or.inr atTable
          exact put.andThen rfl rfl rfl rfl

/-- A bet request adds a bet at most at the table its user is mapped to. -/
theorem clientBet_keeps [Arithmetic] (nUserId nPosition : Int) (nBet : ℚ) :
    Keeps RoomKeeps (clientBet cfg nUserId nPosition nBet) := by
  intro s
  unfold clientBet
  simp only [wp_ite, wp_pure, wp_bind, wp_get]
  refine ⟨fun _ => refl_of RoomKeeps s, fun _ => ⟨fun _ => refl_of RoomKeeps s, fun _ => ?_⟩⟩
  cases object : s.pool.getUserObject nUserId with
  | none => exact refl_of RoomKeeps s
  | some objUser =>
      cases mapped : s.userTableMap objUser.nUserId with
      | none =>
          simp only [mapped]
          exact refl_of RoomKeeps s
      | some id =>
          simp only [mapped]
          exact userBet_keeps cfg id objUser nPosition nBet s mapped

/-! ## Entering a room

An entry gives its user a new table, and a seat there alone, as no list ever has a table.
-/

/-- The lists of tables of all rooms are empty: no table is ever inserted. -/
def ListsEmpty (s : RoomState) : Prop :=
  ∀ gt rooms room tables, s.roomList gt = some rooms → rooms room = some tables → tables = []

/-- Lists that are empty stay so. -/
theorem RoomKeeps.listsEmpty {s t : RoomState} (keeps : RoomKeeps s t) (empty : ListsEmpty s) :
    ListsEmpty t := by
  unfold ListsEmpty
  rw [keeps.rooms]
  exact empty

/-- What entering a room has done when it ends, by returning or raising: an id was taken, and if it
became the id of a table, the user sits there alone. -/
structure Entered (s : RoomState) (nUserId nGameType : Int) (t : RoomState) : Prop where
  rooms : ListsEmpty t
  ids : t.tbIds = s.tbIds.tail
  seated : ∀ id ids, nGameType = cfg.bullFighting → s.tbIds = id :: ids →
    t.userTableMap = Function.update s.userTableMap nUserId (some id) ∧
      (∀ k, t.seats k = if k = id then some [nUserId] else s.seats k) ∧
      ∀ k u, t.HasBet k u → (k ≠ id ∧ s.HasBet k u) ∨ t.userTableMap u = some k
  turnedAway : nGameType ≠ cfg.bullFighting ∨ s.tbIds = [] →
    t.userTableMap = s.userTableMap ∧ (∀ k, t.seats k = s.seats k) ∧
      ∀ k u, t.HasBet k u → s.HasBet k u

/-- What happens after the user has sat down changes nothing of it. -/
theorem Entered.keeps {s t r : RoomState} {nUserId nGameType : Int}
    (entered : Entered cfg s nUserId nGameType t) (hadSeat : nGameType = cfg.bullFighting ∧ s.tbIds ≠ [])
    (keeps : RoomKeeps t r) : Entered cfg s nUserId nGameType r where
  rooms := keeps.listsEmpty entered.rooms
  ids := keeps.ids.trans entered.ids
  seated id ids isGame taken := by
    obtain ⟨mapped, seats, bets⟩ := entered.seated id ids isGame taken
    refine ⟨keeps.userTable.trans mapped, fun k => (keeps.seats k).trans (seats k), fun k u bet => ?_⟩
    rw [keeps.userTable]
    rcases keeps.bets k u bet with before | atTable
    · exact bets k u before
    · exact Or.inr atTable
  turnedAway none := by
    rcases none with other | noIds
    · exact absurd hadSeat.1 other
    · exact absurd noIds hadSeat.2

theorem getClientDataByState_keeps (id : Nat) : Keeps RoomKeeps (getClientDataByState id) := by
  intro s
  simp only [getClientDataByState, wp_bind, wp_getTable]
  cases found : s.tableMap.get id with
  | none => exact refl_of RoomKeeps s
  | some t =>
      simp only [wp_get, wp_ite, wp_raise, wp_pure]
      exact ⟨fun _ => refl_of RoomKeeps s, fun _ => refl_of RoomKeeps s⟩

/-- The list of tables of the room is there and empty. -/
def OpenRoom (s : RoomState) (nGameType nRoomId : Int) : Prop :=
  ∃ rooms, s.roomList nGameType = some rooms ∧ rooms nRoomId = some []

/-- A room that is open has an empty list, and `CreateRoom` opens one with an empty list. -/
theorem openRoom_spec (nGameType nRoomId : Int) {s : RoomState} (empty : ListsEmpty s) :
    wp (openRoom nGameType nRoomId)
      (fun _ t => t = { s with roomList := t.roomList } ∧ ListsEmpty t ∧
        OpenRoom t nGameType nRoomId) (fun _ => False) s := by
  simp only [openRoom, wp_bind, wp_get, wp_ite, wp_pure, createRoom, wp_modify, true_and]
  constructor
  · intro _
    -- a room of that game type that is there already has an empty list
    have tables : (((s.roomList nGameType).getD fun _ => none) nRoomId).getD [] = [] := by
      cases ofType : s.roomList nGameType with
      | none => rfl
      | some rooms =>
          cases ofRoom : rooms nRoomId with
          | none => simp [ofRoom]
          | some tables => simpa [ofRoom] using empty nGameType rooms nRoomId tables ofType ofRoom
    refine ⟨?_, ?_⟩
    · intro gt rooms room listed atType atRoom
      by_cases sameType : gt = nGameType
      · subst sameType
        simp only [Function.update_self, Option.some.injEq] at atType
        subst atType
        by_cases sameRoom : room = nRoomId
        · subst sameRoom
          simp only [Function.update_self, Option.some.injEq] at atRoom
          exact atRoom.symm.trans tables
        · rw [Function.update_of_ne sameRoom] at atRoom
          cases ofType : s.roomList gt with
          | none => simp [ofType] at atRoom
          | some before =>
              rw [ofType] at atRoom
              exact empty gt before room listed ofType atRoom
      · simp only [Function.update_of_ne sameType] at atType
        exact empty gt rooms room listed atType atRoom
    · exact ⟨_, Function.update_self .., by rw [Function.update_self, tables]⟩
  · intro isOpen
    refine ⟨empty, ?_⟩
    unfold isRoomOpen at isOpen
    cases ofType : s.roomList nGameType with
    | none => simp [ofType] at isOpen
    | some rooms =>
        cases ofRoom : rooms nRoomId with
        | none => simp [ofType, ofRoom] at isOpen
        | some tables =>
            have none := empty nGameType rooms nRoomId tables ofType ofRoom
            exact ⟨rooms, ofType, none ▸ ofRoom⟩

/-- `CreateTable` takes an id, and puts nothing into the list of the room. -/
theorem createTable_spec (nGameType nRoomId : Int) {s : RoomState}
    (isOpen : OpenRoom s nGameType nRoomId) :
    wp (createTable cfg nGameType nRoomId)
      (fun id t => nGameType = cfg.bullFighting ∧ s.tbIds = id :: t.tbIds ∧
        t = { s with
          tbIds := t.tbIds
          tableMap := s.tableMap.put (.ofRoom id nGameType nRoomId) })
      (fun t => (nGameType ≠ cfg.bullFighting ∨ s.tbIds = []) ∧ t = { s with tbIds := s.tbIds.tail })
      s := by
  obtain ⟨rooms, ofType, ofRoom⟩ := isOpen
  unfold createTable getTableId
  simp only [wp_bind, wp_get]
  cases ids : s.tbIds with
  | nil =>
      simp only [wp_pure, wp_ite, wp_raise]
      have same : s = { s with tbIds := [] } := by
        rw [← ids]
      exact ⟨fun _ => ⟨Or.inr trivial, same⟩, fun other => ⟨Or.inl other, same⟩⟩
  | cons id ids =>
      simp only [wp_bind, wp_set, wp_pure, wp_ite, wp_raise, setTable, wp_modify, setNewTableAtRoom,
        getAllTable, wp_get, ofType, ofRoom]
      exact ⟨fun isGame => ⟨isGame, trivial, trivial⟩, fun other => ⟨Or.inl other, rfl⟩⟩

/-- The room has no table in its list, so `FindATable` creates one. -/
theorem findATable_eq (nGameType nRoomId : Int) {s : RoomState} {Q : Nat → RoomState → Prop}
    {R : RoomState → Prop} (isOpen : OpenRoom s nGameType nRoomId) :
    wp (findATable cfg nGameType nRoomId) Q R s ↔ wp (createTable cfg nGameType nRoomId) Q R s := by
  obtain ⟨rooms, ofType, ofRoom⟩ := isOpen
  simp only [findATable, getAvailableTable, getAllTable, wp_bind, wp_get, ofType, wp_pure, ofRoom,
    List.length_nil, Nat.le_refl, if_true]

/-- The part of `ClientEnterRoom` that seats the user at a new table. -/
theorem takeSeat_spec (nUserId nGameType nRoomId : Int) {s t : RoomState} (ids : t.tbIds = s.tbIds)
    (tables : t.tableMap = s.tableMap) (userTable : t.userTableMap = s.userTableMap)
    (lists : ListsEmpty t) (isOpen : OpenRoom t nGameType nRoomId) :
    wp (do
        let nTableId ← findATable cfg nGameType nRoomId
        sitDown nTableId nUserId
        checkState cfg nTableId
        getClientDataByState nTableId)
      (fun _ r => Entered cfg s nUserId nGameType r) (Entered cfg s nUserId nGameType) t := by
  simp only [wp_bind]
  rw [findATable_eq cfg nGameType nRoomId isOpen]
  apply wp_mono (createTable_spec cfg nGameType nRoomId isOpen)
  · rintro id r ⟨isGame, taken, created⟩
    have idsBefore : s.tbIds = id :: r.tbIds := ids ▸ taken
    have hadSeat : nGameType = cfg.bullFighting ∧ s.tbIds ≠ [] := ⟨isGame, by simp [idsBefore]⟩
    have found : r.tableMap.get id = some (.ofRoom id nGameType nRoomId) := by
      rw [created, TableMap.get_put]
      exact if_pos rfl
    have sameTables : ∀ k, k ≠ id → r.tableMap.get k = s.tableMap.get k := by
      intro k other
      rw [created, TableMap.get_put, tables]
      exact if_neg other
    simp only [sitDown, wp_bind, wp_getTable, found, setTable, wp_modify]
    -- the new table, with the user in its only seat
    have entered : Entered cfg s nUserId nGameType
        { r with
          tableMap := r.tableMap.put ((Table.ofRoom id nGameType nRoomId).sitDown nUserId)
          userTableMap := Function.update r.userTableMap nUserId (some id) } := by
      refine ⟨?_, ?_, ?_, ?_⟩
      · rw [created]
        exact lists
      · rw [idsBefore]
        rfl
      · intro id' ids' _ before
        rw [idsBefore] at before
        obtain ⟨rfl, -⟩ := List.cons.inj before
        refine ⟨?_, ?_, ?_⟩
        · rw [created, userTable]
        · intro k
          simp only [RoomState.seats, TableMap.get_put, Table.sitDown, Table.ofRoom, Table.new]
          by_cases same : k = id
          · simp [same]
          · simp [same, sameTables k same]
        · rintro k u ⟨x, isThere, bet⟩
          simp only [TableMap.get_put, Table.sitDown, Table.ofRoom, Table.new] at isThere
          by_cases same : k = id
          · rw [if_pos same] at isThere
            cases isThere
            exact absurd rfl bet
          · rw [if_neg same, sameTables k same] at isThere
            exact Or.inl ⟨same, x, isThere, bet⟩
      · intro none
        rcases none with other | noIds
        · exact absurd isGame other
        · exact absurd noIds hadSeat.2
    apply wp_mono (checkState_keeps cfg RoomKeeps.keptByTables id _)
    · intro _ t' keeps
      have after := entered.keeps cfg hadSeat keeps
      apply wp_mono (getClientDataByState_keeps id t')
      · exact fun _ _ keeps' => after.keeps cfg hadSeat keeps'
      · exact fun _ keeps' => after.keeps cfg hadSeat keeps'
    · exact fun _ keeps => entered.keeps cfg hadSeat keeps
  · rintro r ⟨noTable, rfl⟩
    refine ⟨lists, congrArg List.tail ids, ?_, fun _ => ⟨userTable, ?_, ?_⟩⟩
    · intro id ids' isGame before
      rw [ids] at noTable
      rcases noTable with other | noIds
      · exact absurd isGame other
      · exact absurd (before.symm.trans noIds) (by simp)
    · intro k
      simp only [RoomState.seats, tables]
    · rintro k u ⟨x, isThere, bet⟩
      exact ⟨x, tables ▸ isThere, bet⟩

/-- As long as no table is in a list, entering a room creates one, and takes an id for it. -/
theorem clientEnterRoom_spec (objUser : UserData) (nHandlerId nGameType nRoomId : Int)
    {s : RoomState} (empty : ListsEmpty s) :
    wp (clientEnterRoom cfg objUser nHandlerId nGameType nRoomId)
      (fun _ t => Entered cfg s objUser.nUserId nGameType t)
      (Entered cfg s objUser.nUserId nGameType) s := by
  unfold clientEnterRoom
  rw [wp_bind]
  apply wp_mono (openRoom_spec nGameType nRoomId empty) ?_ fun _ never => never.elim
  rintro - t ⟨opened, lists, isOpen⟩
  rw [wp_bind, wp_modify]
  apply takeSeat_spec cfg objUser.nUserId nGameType nRoomId
  · change t.tbIds = s.tbIds
    rw [opened]
  · change t.tableMap = s.tableMap
    rw [opened]
  · change t.userTableMap = s.userTableMap
    rw [opened]
  · exact lists
  · exact isOpen

end GameServer.Room
