/-
Module: GameServer.Room.Registry
Purpose: The registry of ids, tables and lists of rooms, which the first entry into a room leaves
  inconsistent for good.
Trusted boundary: none
Main exports: EnterCall, enter, enter_spec, RegistryConsistent, registryConsistent_iff
-/
import GameServer.Room.Seats

namespace GameServer.Room

open Lib Lib.LuaM Script

variable (cfg : RoomConfig)

/-! ## Entries into rooms

Each request to enter a room, whether it raises or not.
-/

/-- A request to enter a room, with the user object made from the game data. -/
structure EnterCall where
  objUser : UserData
  nHandlerId : Int
  nGameType : Int
  nRoomId : Int

/-- The state in which `ClientEnterRoom` ends; what it did before it raised stays done. -/
def enter (s : RoomState) (c : EnterCall) : RoomState :=
  (exec (clientEnterRoom cfg c.objUser c.nHandlerId c.nGameType c.nRoomId) s).2

/-- What an entry does, when no table is in a list. -/
theorem enter_spec {s : RoomState} (empty : ListsEmpty s) (c : EnterCall) :
    Entered cfg s c.objUser.nUserId c.nGameType (enter cfg s c) :=
  wp_same.mp (clientEnterRoom_spec cfg c.objUser c.nHandlerId c.nGameType c.nRoomId empty)

/-- At the start no table is in a list. -/
theorem listsEmpty_ctor (idRandom random : Nat → Nat) : ListsEmpty (.ctor idRandom random) :=
  fun _ _ _ _ noRooms => absurd noRooms (by simp [RoomState.ctor])

/-! ## The registry of tables

No table is ever put into the list of its room, so the registry is right only while there are no tables.
-/

/-- `m_tbRoomList[nGameType][nRoomId]`, empty where there is none. -/
def RoomState.listOf (s : RoomState) (nGameType nRoomId : Int) : List Nat :=
  ((s.roomList nGameType).bind fun rooms => rooms nRoomId).getD []

/-- Of the ids `start` of the generator, each that was taken belongs to one table; every table is once in
the list of its room and in no other list; a room with a table that is not full has one available. -/
structure RegistryConsistent (start : List Nat) (s : RoomState) : Prop where
  table : ∀ id ∈ start, id ∉ s.tbIds → ∃! k, ∃ t, s.tableMap.get k = some t ∧ t.nTableId = id
  listed : ∀ id t, s.tableMap.get id = some t → ∀ nGameType nRoomId,
    (s.listOf nGameType nRoomId).count id =
      if nGameType = t.nGameType ∧ nRoomId = t.nRoomId then 1 else 0
  available : ∀ id t, s.tableMap.get id = some t → t.bIsFull = false →
    ∃ k x, exec (getAvailableTable t.nGameType t.nRoomId) s = (.ok (some k), s) ∧
      s.tableMap.get k = some x ∧ x.nGameType = t.nGameType ∧ x.nRoomId = t.nRoomId ∧
      x.bIsFull = false

/-- Nothing was taken yet, and there is no table. -/
theorem registryConsistent_ctor (idRandom random : Nat → Nat) :
    RegistryConsistent (RoomState.ctor idRandom random).tbIds (.ctor idRandom random) where
  table _ member taken := absurd member taken
  listed _ _ found := absurd found (by simp [RoomState.ctor, TableMap.empty, TableMap.get])
  available _ _ found := absurd found (by simp [RoomState.ctor, TableMap.empty, TableMap.get])

theorem ListsEmpty.listOf_eq {s : RoomState} (empty : ListsEmpty s) (nGameType nRoomId : Int) :
    s.listOf nGameType nRoomId = [] := by
  unfold RoomState.listOf
  cases ofType : s.roomList nGameType with
  | none => rfl
  | some rooms =>
      cases ofRoom : rooms nRoomId with
      | none => simp [ofRoom]
      | some tables => simpa [ofRoom] using empty nGameType rooms nRoomId tables ofType ofRoom

/-- While all lists are empty, an id that was taken has no table or its table is in no list. -/
theorem ListsEmpty.not_consistent {s : RoomState} (empty : ListsEmpty s) {start : List Nat} {id : Nat}
    (member : id ∈ start) (taken : id ∉ s.tbIds) : ¬ RegistryConsistent start s := by
  intro consistent
  obtain ⟨k, ⟨t, found, -⟩, -⟩ := consistent.table id member taken
  have once := consistent.listed k t found t.nGameType t.nRoomId
  rw [empty.listOf_eq, if_pos ⟨rfl, rfl⟩] at once
  exact absurd once (by simp)

/-- Every entry takes the next id, and none puts a table into a list. -/
theorem enterAll_spec (calls : List EnterCall) {s : RoomState} (empty : ListsEmpty s) :
    ListsEmpty (calls.foldl (enter cfg) s) ∧
      (calls.foldl (enter cfg) s).tbIds = s.tbIds.drop calls.length := by
  induction calls generalizing s with
  | nil => exact ⟨empty, rfl⟩
  | cons c calls ih =>
      have entered := enter_spec cfg empty c
      obtain ⟨lists, ids⟩ := ih entered.rooms
      refine ⟨lists, ids.trans ?_⟩
      rw [entered.ids, ← List.drop_one, List.drop_drop, List.length_cons, Nat.add_comm]

/-- The head of the ids is gone after the first entry. -/
theorem not_consistent_of_enter {s : RoomState} (empty : ListsEmpty s) (nodup : s.tbIds.Nodup)
    (some : s.tbIds ≠ []) {calls : List EnterCall} (called : calls ≠ []) :
    ¬ RegistryConsistent s.tbIds (calls.foldl (enter cfg) s) := by
  obtain ⟨lists, ids⟩ := enterAll_spec cfg calls empty
  obtain ⟨c, calls, rfl⟩ := List.exists_cons_of_ne_nil called
  obtain ⟨id, rest, start⟩ := List.exists_cons_of_ne_nil some
  have taken : id ∉ (List.foldl (enter cfg) s (c :: calls)).tbIds := by
    rw [ids, start, List.length_cons, List.drop_succ_cons]
    rw [start] at nodup
    exact fun again => (List.nodup_cons.mp nodup).1 (List.mem_of_mem_drop again)
  exact lists.not_consistent (start ▸ List.mem_cons_self) taken

theorem ctor_nodup (idRandom random : Nat → Nat) : (RoomState.ctor idRandom random).tbIds.Nodup :=
  newIds_nodup idRandom (by omega)

theorem ctor_ids_ne_nil (idRandom random : Nat → Nat) :
    (RoomState.ctor idRandom random).tbIds ≠ [] := by
  have length := newIds_length idRandom 100000 999999
  intro none
  rw [show newIds idRandom 100000 999999 = [] from none, List.length_nil] at length
  exact absurd length (by omega)

/-- The registry is consistent before the first entry into a room, and after no entry. -/
theorem registryConsistent_iff (idRandom random : Nat → Nat) (calls : List EnterCall) :
    RegistryConsistent (RoomState.ctor idRandom random).tbIds
      (calls.foldl (enter cfg) (.ctor idRandom random)) ↔ calls = [] := by
  constructor
  · intro consistent
    by_contra called
    exact not_consistent_of_enter cfg (listsEmpty_ctor idRandom random) (ctor_nodup idRandom random)
      (ctor_ids_ne_nil idRandom random) called consistent
  · rintro rfl
    exact registryConsistent_ctor idRandom random

/-- A game type, and rules that cost nothing. -/
def plainConfig : RoomConfig where
  script := .sound
  bullFighting := 1
  odds _ := 1
  commission := 0
  freeSpan := 1
  betSpan := 1
  settlementSpan := 1

/-- User 1 enters room 1 on connection 7. -/
def firstEntry : EnterCall where
  objUser := ⟨1, 100, false⟩
  nHandlerId := 7
  nGameType := 1
  nRoomId := 1

/-- One entry is enough. -/
theorem registry_inconsistent_after_entry :
    ¬ RegistryConsistent (RoomState.ctor (fun _ => 0) fun _ => 0).tbIds
      ([firstEntry].foldl (enter plainConfig) (.ctor (fun _ => 0) fun _ => 0)) := by
  apply not_consistent_of_enter
  · exact listsEmpty_ctor (fun _ => 0) fun _ => 0
  · exact ctor_nodup (fun _ => 0) fun _ => 0
  · exact ctor_ids_ne_nil (fun _ => 0) fun _ => 0
  · exact List.cons_ne_nil firstEntry []

end GameServer.Room
