/-
Module: GameServer.Room.OneSeat
Purpose: The seats of a user: he has one, with all his bets at its table, until he enters a room again.
Trusted boundary: none
Main exports: RoomCall, roomCall, OneSeat, EntersOnce, oneSeat_iff
-/
import GameServer.Lib.Runs
import GameServer.Room.Registry

namespace GameServer.Room

open Lib Lib.LuaM Script

variable (cfg : RoomConfig)

/-! ## Calls

What happens in the room server, and what the claim and its condition say of it.
-/

/-- What happens in the room server: requests to enter a room and to bet, and the timers of games. -/
inductive RoomCall where
  | enter (call : EnterCall)
  | bet (nUserId nPosition : Int) (nBet : ℚ)
  | timerOver (callback : TableTimer) (nTableId : Nat)

/-- The state in which a call ends. -/
def roomCall [Arithmetic] (s : RoomState) : RoomCall → RoomState
  | .enter call => enter cfg s call
  | .bet nUserId nPosition nBet => (exec (clientBet cfg nUserId nPosition nBet) s).2
  | .timerOver callback nTableId => (exec (timerOver cfg callback nTableId) s).2

/-- A user is on the list of one table at most, at most once, and that table is the one he is mapped to;
what he has bet, he has bet there. -/
structure OneSeat (s : RoomState) : Prop where
  nodup : ∀ id users, s.seats id = some users → users.Nodup
  seat : ∀ u id, s.userTableMap u = some id ↔ ∃ users, s.seats id = some users ∧ u ∈ users
  bets : ∀ u id, s.HasBet id u → s.userTableMap u = some id

/-- Who enters a room where he gets a seat has none yet. -/
def EntersOnce (s : RoomState) : RoomCall → Prop
  | .enter call => call.nGameType = cfg.bullFighting → s.tbIds ≠ [] →
      s.userTableMap call.objUser.nUserId = none
  | _ => True

/-! ## New tables

A new table has an id that no table has, so its first guest finds it empty.
-/

/-- The ids that are left are different, no table has one of them, and no table is in a list. -/
structure IdsFresh (s : RoomState) : Prop where
  lists : ListsEmpty s
  nodup : s.tbIds.Nodup
  unused : ∀ id ∈ s.tbIds, s.seats id = none

theorem IdsFresh.keeps {s t : RoomState} (fresh : IdsFresh s) (keeps : RoomKeeps s t) :
    IdsFresh t where
  lists := keeps.listsEmpty fresh.lists
  nodup := keeps.ids ▸ fresh.nodup
  unused id member := by
    rw [keeps.seats]
    exact fresh.unused id (keeps.ids ▸ member)

/-- An entry uses ids up. -/
theorem IdsFresh.enter {s : RoomState} (fresh : IdsFresh s) (c : EnterCall) :
    IdsFresh (enter cfg s c) := by
  have entered := enter_spec cfg fresh.lists c
  constructor
  · exact entered.rooms
  · rw [entered.ids]
    exact fresh.nodup.sublist (List.tail_sublist _)
  · intro id member
    rw [entered.ids] at member
    have unused := fresh.unused id (List.mem_of_mem_tail member)
    by_cases getsSeat : c.nGameType = cfg.bullFighting ∧ s.tbIds ≠ []
    · obtain ⟨taken, ids, start⟩ := List.exists_cons_of_ne_nil getsSeat.2
      rw [start, List.tail_cons] at member
      have different : id ≠ taken := by
        intro same
        subst same
        exact (List.nodup_cons.mp (start ▸ fresh.nodup)).1 member
      rw [(entered.seated taken ids getsSeat.1 start).2.1, if_neg different]
      exact unused
    · have turnedAway : c.nGameType ≠ cfg.bullFighting ∨ s.tbIds = [] := by tauto
      rw [(entered.turnedAway turnedAway).2.1]
      exact unused

/-- Every other call leaves them. -/
theorem IdsFresh.roomCall [Arithmetic] {s : RoomState} (fresh : IdsFresh s) (call : RoomCall) :
    IdsFresh (roomCall cfg s call) := by
  cases call with
  | enter c => exact fresh.enter cfg c
  | bet u position bet => exact fresh.keeps (wp_same.mp (clientBet_keeps cfg u position bet s))
  | timerOver callback id =>
      exact fresh.keeps (wp_same.mp (timerOver_keeps cfg RoomKeeps.keptByTables callback id s))

theorem idsFresh_ctor (idRandom random : Nat → Nat) : IdsFresh (.ctor idRandom random) where
  lists := listsEmpty_ctor idRandom random
  nodup := ctor_nodup idRandom random
  unused _ _ := rfl

/-! ## One seat

A request that does not keep to the condition gives its user a second seat at once.
-/

theorem OneSeat.keeps {s t : RoomState} (oneSeat : OneSeat s) (keeps : RoomKeeps s t) : OneSeat t where
  nodup id users seats := oneSeat.nodup id users (keeps.seats id ▸ seats)
  seat u id := by
    rw [keeps.userTable, keeps.seats]
    exact oneSeat.seat u id
  bets u id bet := by
    rw [keeps.userTable]
    rcases keeps.bets id u bet with before | atTable
    · exact oneSeat.bets u id before
    · exact atTable

/-- Nobody is mapped to a table that is not there. -/
theorem OneSeat.not_mapped {s : RoomState} (oneSeat : OneSeat s) {id : Nat} (unused : s.seats id = none)
    (u : Int) : s.userTableMap u ≠ some id := by
  intro mapped
  obtain ⟨users, found, -⟩ := (oneSeat.seat u id).mp mapped
  exact absurd (unused.symm.trans found) (by simp)

/-- Who gets a seat at a new table while he still has one is seated twice. -/
theorem Entered.no_seat_before {s t : RoomState} {u gt : Int} {id : Nat} {ids : List Nat}
    (entered : Entered cfg s u gt t) (isGame : gt = cfg.bullFighting) (start : s.tbIds = id :: ids)
    (unused : s.seats id = none) (before : OneSeat s) (after : OneSeat t) :
    s.userTableMap u = none := by
  obtain ⟨mapped, seats, -⟩ := entered.seated id ids isGame start
  cases mappedBefore : s.userTableMap u with
  | none => rfl
  | some old =>
      have different : old ≠ id := by
        intro same
        subst same
        exact before.not_mapped unused u mappedBefore
      obtain ⟨users, found, member⟩ := (before.seat u old).mp mappedBefore
      have stillThere : t.userTableMap u = some old := by
        apply (after.seat u old).mpr
        exact ⟨users, (seats old).trans ((if_neg different).trans found), member⟩
      rw [mapped, Function.update_self] at stillThere
      exact absurd (Option.some.inj stillThere).symm different

/-- Who has no seat and gets one at a new table has one. -/
theorem Entered.oneSeat {s t : RoomState} {u gt : Int} {id : Nat} {ids : List Nat}
    (entered : Entered cfg s u gt t) (isGame : gt = cfg.bullFighting) (start : s.tbIds = id :: ids)
    (unused : s.seats id = none) (before : OneSeat s) (noSeat : s.userTableMap u = none) :
    OneSeat t := by
  obtain ⟨mapped, seats, bets⟩ := entered.seated id ids isGame start
  constructor
  · intro k users found
    rw [seats] at found
    by_cases same : k = id
    · rw [if_pos same] at found
      cases found
      exact List.nodup_singleton u
    · rw [if_neg same] at found
      exact before.nodup k users found
  · intro v k
    rw [mapped, seats]
    by_cases isUser : v = u
    · subst isUser
      rw [Function.update_self]
      by_cases same : k = id
      · simp [same]
      · rw [if_neg same, ← before.seat, noSeat]
        simp [Ne.symm same]
    · rw [Function.update_of_ne isUser]
      by_cases same : k = id
      · subst same
        simp [isUser, before.not_mapped unused v]
      · rw [if_neg same]
        exact before.seat v k
  · intro v k bet
    rcases bets k v bet with ⟨-, betBefore⟩ | atTable
    · have atOld := before.bets v k betBefore
      have other : v ≠ u := by
        intro same
        subst same
        exact absurd (noSeat.symm.trans atOld) (by simp)
      rw [mapped, Function.update_of_ne other]
      exact atOld
    · exact atTable

/-- An entry keeps the seats apart exactly when its user had none. -/
theorem oneSeat_enter_iff {s : RoomState} (oneSeat : OneSeat s) (fresh : IdsFresh s) (c : EnterCall) :
    OneSeat (enter cfg s c) ↔ EntersOnce cfg s (.enter c) := by
  have entered := enter_spec cfg fresh.lists c
  by_cases getsSeat : c.nGameType = cfg.bullFighting ∧ s.tbIds ≠ []
  · obtain ⟨id, ids, start⟩ := List.exists_cons_of_ne_nil getsSeat.2
    have unused : s.seats id = none := fresh.unused id (start ▸ List.mem_cons_self)
    constructor
    · intro after _ _
      exact entered.no_seat_before cfg getsSeat.1 start unused oneSeat after
    · intro once
      exact entered.oneSeat cfg getsSeat.1 start unused oneSeat (once getsSeat.1 getsSeat.2)
  · have turnedAway : c.nGameType ≠ cfg.bullFighting ∨ s.tbIds = [] := by tauto
    obtain ⟨mapped, seats, bets⟩ := entered.turnedAway turnedAway
    apply iff_of_true
    · constructor
      · intro id users found
        exact oneSeat.nodup id users (seats id ▸ found)
      · intro u id
        rw [mapped, seats]
        exact oneSeat.seat u id
      · intro u id bet
        rw [mapped]
        exact oneSeat.bets u id (bets id u bet)
    · intro isGame ids
      exact absurd ⟨isGame, ids⟩ getsSeat

/-! ## Runs

The invariant holds as long as the condition is met, and breaks at the first step that does not meet it.
-/

/-- What holds between the calls of a run in which nobody has a second seat. -/
structure SeatInvariant (s : RoomState) : Prop where
  oneSeat : OneSeat s
  fresh : IdsFresh s

theorem seatInvariant_ctor (idRandom random : Nat → Nat) :
    SeatInvariant (.ctor idRandom random) where
  fresh := idsFresh_ctor idRandom random
  oneSeat := by
    constructor <;>
      simp [RoomState.seats, RoomState.HasBet, RoomState.ctor, TableMap.empty, TableMap.get]

/-- The step lemma, in both directions. -/
theorem seatInvariant_roomCall_iff [Arithmetic] (s : RoomState) (call : RoomCall) (inv : SeatInvariant s) :
    SeatInvariant (roomCall cfg s call) ↔ EntersOnce cfg s call := by
  have fresh := inv.fresh.roomCall cfg call
  have seats : OneSeat (roomCall cfg s call) ↔ EntersOnce cfg s call := by
    cases call with
    | enter c => exact oneSeat_enter_iff cfg inv.oneSeat inv.fresh c
    | bet u position bet =>
        have keeps := wp_same.mp (clientBet_keeps cfg u position bet s)
        exact iff_of_true (inv.oneSeat.keeps keeps) trivial
    | timerOver callback id =>
        have keeps := wp_same.mp (timerOver_keeps cfg RoomKeeps.keptByTables callback id s)
        exact iff_of_true (inv.oneSeat.keeps keeps) trivial
  rw [← seats]
  exact ⟨fun after => after.oneSeat, fun after => ⟨after, fresh⟩⟩

/-- The run lemma. -/
theorem idsFresh_run [Arithmetic] (calls : List RoomCall) {s : RoomState} (fresh : IdsFresh s) :
    IdsFresh (calls.foldl (roomCall cfg) s) := by
  induction calls generalizing s with
  | nil => exact fresh
  | cons call calls ih => exact ih (fresh.roomCall cfg call)

/-- Every user has one seat after every call exactly when nobody takes a seat who has one. -/
theorem oneSeat_iff [Arithmetic] (idRandom random : Nat → Nat) (calls : List RoomCall) :
    (∀ pre, pre <+: calls → OneSeat (pre.foldl (roomCall cfg) (.ctor idRandom random))) ↔
      Guarded (always (roomCall cfg)) (EntersOnce cfg) (.ctor idRandom random) calls := by
  rw [← forall_prefix_iff_guarded (seatInvariant_roomCall_iff cfg)
    (seatInvariant_ctor idRandom random) calls]
  constructor
  · intro holds pre isPrefix
    exact ⟨holds pre isPrefix, idsFresh_run cfg pre (idsFresh_ctor idRandom random)⟩
  · intro holds pre isPrefix
    exact (holds pre isPrefix).oneSeat

open scoped DoubleArithmetic

/-- A user who enters the same room twice has two seats. -/
theorem two_seats_after_two_entries :
    ¬ OneSeat ([.enter firstEntry, .enter firstEntry].foldl (roomCall plainConfig)
      (.ctor (fun _ => 0) fun _ => 0)) := by
  intro twice
  have start := seatInvariant_ctor (fun _ => 0) fun _ => 0
  have first := enter_spec plainConfig start.fresh.lists firstEntry
  have inv := (seatInvariant_roomCall_iff plainConfig _ (.enter firstEntry) start).mpr fun _ _ => rfl
  have length := newIds_length (fun _ => 0) 100000 999999
  obtain ⟨id, ids, taken⟩ := List.exists_cons_of_ne_nil (ctor_ids_ne_nil (fun _ => 0) fun _ => 0)
  have left : (enter plainConfig (.ctor (fun _ => 0) fun _ => 0) firstEntry).tbIds ≠ [] := by
    intro none
    rw [first.ids, taken, List.tail_cons] at none
    rw [show newIds (fun _ => 0) 100000 999999 = id :: ids from taken, none] at length
    exact absurd length (by simp)
  have noSeat := (oneSeat_enter_iff plainConfig inv.oneSeat inv.fresh firstEntry).mp twice rfl left
  have seat := (first.seated id ids rfl taken).1
  exact absurd (noSeat.symm.trans (congrFun seat 1)) (by simp [firstEntry])

end GameServer.Room
