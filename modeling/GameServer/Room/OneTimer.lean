/-
Module: GameServer.Room.OneTimer
Purpose: In every state of a room server each pending timer is the only one of its table, and nobody sits twice at a
  table.
Trusted boundary: as for the tables
Main exports: StakesOk, stakesOk_ctor, StakesOk.enter, StakesOk.ring, StakesOk.bet
-/
import GameServer.Room.Stakes

namespace GameServer.Room

open Lib Lib.LuaM Script

variable (cfg : RoomConfig)

/-! ## Timers and seats

Every pending timer is the only one of its table, so what is at risk at a table is settled once.
-/

/-- Nobody sits twice at a table, and every pending timer is the only one of a table that is there. -/
structure StakesOk (s : RoomState) : Prop where
  fresh : IdsFresh s
  nodup : ∀ id users, s.seats id = some users → users.Nodup
  apart : (s.timers.map PendingTimer.nTableId).Nodup
  tables : ∀ timer ∈ s.timers, s.seats timer.nTableId ≠ none

theorem stakesOk_ctor (idRandom random : Nat → Nat) : StakesOk (.ctor idRandom random) where
  fresh := idsFresh_ctor idRandom random
  nodup _ _ found := absurd found (by simp [RoomState.seats, RoomState.ctor, TableMap.empty, TableMap.get])
  apart := List.nodup_nil
  tables _ member := absurd member List.not_mem_nil

/-- The timers that a call adds: none, or one of the table. -/
def AddsOne (id : Nat) (s s' : RoomState) : Prop :=
  s'.timers = s.timers ∨ ∃ callback span, s'.timers = s.timers ++ [⟨id, callback, span⟩]

/-- A game that begins adds the timer of the free state. -/
theorem checkState_timers (s : RoomState) (id : Nat) :
    wp (checkState cfg id) (fun _ s' => AddsOne id s s') (fun s' => s'.timers = s.timers) s := by
  simp only [checkState, wp_bind, wp_getTable]
  cases found : s.tableMap.get id with
  | none => trivial
  | some t =>
      simp only [wp_ite, wp_pure, initGame, wp_bind, wp_getTable, found, wp_get, setState, setTable, record, addTimer,
        wp_modify]
      exact ⟨fun _ => Or.inr ⟨_, _, rfl⟩, fun _ => Or.inl rfl⟩

/-- The callback of a timer adds a timer of its table at most, and none when it raises. -/
theorem timerOver_timers [Arithmetic] (s : RoomState) (callback : TableTimer) (id : Nat) :
    wp (timerOver cfg callback id) (fun _ s' => AddsOne id s s') (fun s' => s'.timers = s.timers) s := by
  cases found : s.tableMap.get id with
  | none =>
      cases callback <;> simp only [timerOver, freeTimerOver, betTimerOver, settlementTimerOver, settlement, wp_bind,
        wp_getTable, found]
  | some t =>
      obtain rfl : t.nTableId = id := TableMap.nTableId_of_get found
      cases callback with
      | freeTimerOver =>
          exact wp_mono (freeTimerOver_timers cfg found) (fun _ _ after => Or.inr ⟨_, _, after.2.1⟩)
            fun _ never => never.elim
      | betTimerOver =>
          exact wp_mono (betTimerOver_rows cfg found) (fun _ _ after => Or.inr ⟨_, _, after.2.1⟩)
            fun _ after => after.timers
      | settlementTimerOver =>
          simp only [timerOver, settlementTimerOver, wp_bind, wp_getTable, found, wp_ite, setState, setTable, record,
            wp_modify, wp_pure]
          refine ⟨fun _ => ?_, fun _ => Or.inl rfl⟩
          exact wp_mono (checkState_timers cfg _ t.nTableId) (fun _ _ after => after) fun _ after => after

/-- A timer that rings is left as it is, or taken out with one of its table at most in its place. -/
theorem ring_timers [Arithmetic] {s s' : RoomState} {timer : PendingTimer}
    (step : tableStep cfg s (.ring timer) = some s') :
    s'.timers = s.timers ∨ ∃ more, s'.timers = s.timers.erase timer ++ more ∧
      (more.map PendingTimer.nTableId).Sublist [timer.nTableId] := by
  obtain ⟨pending, step⟩ := Option.ite_none_right_eq_some.mp step
  have timers := timerOver_timers cfg s timer.callback timer.nTableId
  unfold wp at timers
  cases result : exec (timerOver cfg timer.callback timer.nTableId) s with
  | mk value s₁ =>
      rw [result] at step timers
      cases value with
      | error _ =>
          cases step
          exact Or.inl timers
      | ok _ =>
          cases step
          have adds : AddsOne timer.nTableId s s₁ := timers
          rcases adds with same | ⟨callback, span, same⟩
          · exact Or.inr ⟨[], by rw [List.append_nil, RoomState.takeTimer, same], List.nil_sublist _⟩
          · refine Or.inr ⟨[⟨timer.nTableId, callback, span⟩], ?_, List.Sublist.refl _⟩
            rw [RoomState.takeTimer, same, List.erase_append_left _ pending]

/-- A timer that rings makes way for the next one. -/
theorem StakesOk.ring [Arithmetic] {s s' : RoomState} (ok : StakesOk s) {timer : PendingTimer}
    (step : tableStep cfg s (.ring timer) = some s') : StakesOk s' := by
  have pending := (Option.ite_none_right_eq_some.mp step).1
  have keeps := ring_keeps cfg step
  have nodup : ∀ id users, s'.seats id = some users → users.Nodup := fun id users found =>
    ok.nodup id users (keeps.seats id ▸ found)
  rcases ring_timers cfg step with same | ⟨more, rest, short⟩
  · refine ⟨ok.fresh.keeps keeps, nodup, by rw [same]; exact ok.apart, fun other member => ?_⟩
    rw [keeps.seats]
    exact ok.tables other (same ▸ member)
  · refine ⟨ok.fresh.keeps keeps, nodup, ?_, fun other member => ?_⟩
    · have perm := (List.perm_cons_erase pending).map PendingTimer.nTableId
      have sub : ((s.timers.erase timer ++ more).map PendingTimer.nTableId).Sublist
          ((s.timers.erase timer).map PendingTimer.nTableId ++ [timer.nTableId]) := by
        rw [List.map_append]
        exact List.Sublist.append (List.Sublist.refl _) short
      rw [rest]
      refine List.Nodup.sublist sub ?_
      exact (List.perm_append_singleton _ _).nodup_iff.mpr (perm.nodup_iff.mp ok.apart)
    · rw [keeps.seats]
      rw [rest] at member
      rcases List.mem_append.mp member with old | new
      · exact ok.tables other (List.mem_of_mem_erase old)
      · rw [List.mem_singleton.mp (short.subset (List.mem_map_of_mem new))]
        exact ok.tables timer pending

theorem seat_timers (s : RoomState) (id : Nat) (nUserId : Int) :
    wp (do
        sitDown id nUserId
        checkState cfg id
        getClientDataByState id)
      (fun _ s' => AddsOne id s s') (AddsOne id s) s := by
  simp only [wp_bind, sitDown, wp_getTable]
  cases s.tableMap.get id with
  | none => exact Or.inl rfl
  | some t =>
      simp only [setTable, wp_modify]
      refine wp_mono (checkState_timers cfg _ id) ?_ fun _ after => Or.inl after
      intro _ s' adds
      simp only [getClientDataByState, wp_bind, wp_getTable]
      cases s'.tableMap.get id with
      | none => exact adds
      | some x =>
          simp only [wp_get, wp_ite, wp_raise, wp_pure]
          exact ⟨fun _ => adds, fun _ => adds⟩

/-- The request of a user who enters adds a timer of his new table at most. -/
theorem enter_timers {s : RoomState} (empty : ListsEmpty s) (c : EnterCall) :
    (enter cfg s c).timers = s.timers ∨
      ∃ id ids, c.nGameType = cfg.bullFighting ∧ s.tbIds = id :: ids ∧ AddsOne id s (enter cfg s c) := by
  have entered : wp (clientEnterRoom cfg c.objUser c.nHandlerId c.nGameType c.nRoomId)
      (fun _ s' => s'.timers = s.timers ∨
        ∃ id ids, c.nGameType = cfg.bullFighting ∧ s.tbIds = id :: ids ∧ AddsOne id s s')
      (fun s' => s'.timers = s.timers ∨
        ∃ id ids, c.nGameType = cfg.bullFighting ∧ s.tbIds = id :: ids ∧ AddsOne id s s') s := by
    rw [clientEnterRoom, wp_bind]
    refine wp_mono (openRoom_spec c.nGameType c.nRoomId empty) ?_ fun _ never => never.elim
    rintro _ t ⟨same, -, isOpen⟩
    let t' : RoomState :=
      { t with
        pool := t.pool.cacheUserObject c.objUser
        net := t.net.updateHandlerIdAndUserId (.number c.objUser.nUserId) c.nHandlerId }
    have isOpen' : OpenRoom t' c.nGameType c.nRoomId := isOpen
    have timers : t'.timers = s.timers := by
      simp only [t']
      rw [same]
    have ids : t'.tbIds = s.tbIds := by
      simp only [t']
      rw [same]
    rw [wp_bind, wp_modify, wp_bind, findATable_eq cfg c.nGameType c.nRoomId isOpen']
    refine wp_mono (createTable_spec cfg c.nGameType c.nRoomId isOpen') ?_ ?_
    · rintro id r ⟨isGame, taken, created⟩
      have before : r.timers = s.timers := by
        rw [created]
        exact timers
      have adds : ∀ s', AddsOne id r s' → AddsOne id s s' := by
        intro s' after
        unfold AddsOne at after ⊢
        rw [← before]
        exact after
      refine wp_mono (seat_timers cfg r id c.objUser.nUserId) (fun _ s' after => ?_) fun s' after => ?_
      · exact Or.inr ⟨id, _, isGame, ids.symm.trans taken, adds s' after⟩
      · exact Or.inr ⟨id, _, isGame, ids.symm.trans taken, adds s' after⟩
    · rintro r ⟨-, turned⟩
      refine Or.inl ?_
      rw [turned]
      exact timers
  exact wp_same.mp entered

/-- An entry may add the first timer. -/
theorem StakesOk.enter {s : RoomState} (ok : StakesOk s) (c : EnterCall) : StakesOk (enter cfg s c) := by
  have entered := enter_spec cfg ok.fresh.lists c
  have fresh := ok.fresh.enter cfg c
  have timers := enter_timers cfg ok.fresh.lists c
  by_cases getsSeat : c.nGameType = cfg.bullFighting ∧ s.tbIds ≠ []
  · obtain ⟨id, ids, start⟩ := List.exists_cons_of_ne_nil getsSeat.2
    obtain ⟨-, seats, -⟩ := entered.seated id ids getsSeat.1 start
    -- the id was not in use, so no timer was pending for it
    have noTimer : id ∉ s.timers.map PendingTimer.nTableId := by
      intro member
      obtain ⟨timer, pending, rfl⟩ := List.mem_map.mp member
      exact ok.tables timer pending (ok.fresh.unused timer.nTableId (start ▸ List.mem_cons_self))
    have there : ∀ k, s.seats k ≠ none → (Room.enter cfg s c).seats k ≠ none := by
      intro k was
      rw [seats]
      split
      · exact Option.some_ne_none _
      · exact was
    have adds : AddsOne id s (Room.enter cfg s c) := by
      rcases timers with same | ⟨id', ids', -, start', adds⟩
      · exact Or.inl same
      · rw [start] at start'
        cases start'
        exact adds
    refine ⟨fresh, fun k users found => ?_, ?_, fun timer member => ?_⟩
    · rw [seats] at found
      split at found
      · cases found
        exact List.nodup_singleton _
      · exact ok.nodup k users found
    · rcases adds with same | ⟨callback, span, same⟩
      · rw [same]
        exact ok.apart
      · rw [same, List.map_append, List.map_singleton]
        exact (List.perm_append_singleton _ _).nodup_iff.mpr (List.nodup_cons.mpr ⟨noTimer, ok.apart⟩)
    · rcases adds with same | ⟨callback, span, same⟩
      · exact there _ (ok.tables timer (same ▸ member))
      · rw [same] at member
        rcases List.mem_append.mp member with old | new
        · exact there _ (ok.tables timer old)
        · rw [List.mem_singleton.mp new, seats, if_pos rfl]
          exact Option.some_ne_none _
  · have turnedAway : c.nGameType ≠ cfg.bullFighting ∨ s.tbIds = [] := by tauto
    obtain ⟨-, seats, -⟩ := entered.turnedAway turnedAway
    have same : (Room.enter cfg s c).timers = s.timers := by
      rcases timers with same | ⟨id, ids, isGame, start, -⟩
      · exact same
      · exact absurd ⟨isGame, start ▸ List.cons_ne_nil id ids⟩ getsSeat
    refine ⟨fresh, fun k users found => ok.nodup k users (seats k ▸ found), by rw [same]; exact ok.apart, ?_⟩
    intro timer member
    rw [seats]
    exact ok.tables timer (same ▸ member)

/-- A bet leaves the timers. -/
theorem StakesOk.bet [Arithmetic] {s : RoomState} (ok : StakesOk s) (u p : Int) (nBet : ℚ) :
    StakesOk (exec (clientBet cfg u p nBet) s).2 := by
  have keeps := wp_same.mp (clientBet_keeps cfg u p nBet s)
  have timers : (exec (clientBet cfg u p nBet) s).2.timers = s.timers := by
    refine wp_same.mp (wp_mono (bet_risk cfg ok.apart u p nBet) ?_ fun _ same => congrArg RoomState.timers same)
    rintro _ s' (rfl | ⟨-, staked⟩)
    · rfl
    · exact staked.timers
  refine ⟨ok.fresh.keeps keeps, fun id users found => ok.nodup id users (keeps.seats id ▸ found), ?_, ?_⟩
  · rw [timers]
    exact ok.apart
  · intro timer member
    rw [keeps.seats]
    exact ok.tables timer (timers ▸ member)

end GameServer.Room
