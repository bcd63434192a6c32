/-
Module: GameServer.Room.RoundRuns
Purpose: The law of rounds at every table of a room server, in every run of entries, bets and timers in
  which no callback raises.
Trusted boundary: a pending timer rings once, and is taken from the pending ones before its callback is
  run, which does not look at them
Main exports: RoundCall, roundStep, RoomInvariant, round_law
-/
import GameServer.Room.OneSeat
import GameServer.Room.Rounds

namespace GameServer.Room

open Lib Lib.LuaM Script

/-! ## One table of many

Events and timers of the room are sorted by table, so that a property of one table can be followed through a run of
the whole room.
-/

namespace RoomState

/-- The callbacks of the pending timers of a table. -/
def timersOf (s : RoomState) (id : Nat) : List TableTimer :=
  (s.timers.filter fun timer => timer.nTableId = id).map PendingTimer.callback

/-- What happened at a table. -/
def eventsOf (s : RoomState) (id : Nat) : List RoomEvent :=
  s.trace.filter fun e => e.nTableId = id

end RoomState

/-- The table with that id, with its timers and what happened at it, has the property; without such a
table there are no timers of it and nothing happened at it. -/
def AtTable (P : TableView → Prop) (s : RoomState) (id : Nat) : Prop :=
  match s.tableMap.get id with
  | some t => P ⟨t, s.timersOf id, s.eventsOf id⟩
  | none => s.timersOf id = [] ∧ s.eventsOf id = []

def AtTables (P : TableView → Prop) (s : RoomState) : Prop := ∀ id, AtTable P s id

/-- Every table keeps the invariant of rounds. -/
def TablesOk [Arithmetic] (s : RoomState) : Prop := AtTables RoundInvariant s

section Tables

variable {P : TableView → Prop}

/-- What is known of a table that is there. -/
theorem AtTable.of_some {s : RoomState} {id : Nat} (ok : AtTable P s id) {t : Table}
    (found : s.tableMap.get id = some t) : P ⟨t, s.timersOf id, s.eventsOf id⟩ := by
  rw [AtTable, found] at ok
  exact ok

/-- Nothing has happened at an id that no table has. -/
theorem AtTable.of_none {s : RoomState} {id : Nat} (ok : AtTable P s id)
    (unused : s.tableMap.get id = none) : s.timersOf id = [] ∧ s.eventsOf id = [] := by
  rw [AtTable, unused] at ok
  exact ok

/-- A change at one table: it has more timers and events, and the other tables are as before. -/
theorem atTables_of_put {s s' : RoomState} (t : Table) (more : List PendingTimer)
    (events : List RoomEvent) (table : s'.tableMap = s.tableMap.put t)
    (timers : s'.timers = s.timers ++ more) (trace : s'.trace = s.trace ++ events)
    (moreHere : ∀ timer ∈ more, timer.nTableId = t.nTableId)
    (eventsHere : ∀ e ∈ events, e.nTableId = t.nTableId)
    (others : ∀ k, k ≠ t.nTableId → AtTable P s k)
    (inv : P
      ⟨t, s.timersOf t.nTableId ++ more.map PendingTimer.callback, s.eventsOf t.nTableId ++ events⟩) :
    AtTables P s' := by
  have timersOf : ∀ k, s'.timersOf k =
      if k = t.nTableId then s.timersOf k ++ more.map PendingTimer.callback else s.timersOf k := by
    intro k
    simp only [RoomState.timersOf, timers, List.filter_append, List.map_append]
    by_cases here : k = t.nTableId
    · have all : more.filter (fun timer => timer.nTableId = k) = more := by
        apply List.filter_eq_self.mpr
        intro timer member
        exact decide_eq_true ((moreHere timer member).trans here.symm)
      rw [if_pos here, all]
    · have none : more.filter (fun timer => timer.nTableId = k) = [] := by
        apply List.filter_eq_nil_iff.mpr
        intro timer member isHere
        exact here ((of_decide_eq_true isHere).symm.trans (moreHere timer member))
      rw [if_neg here, none, List.map_nil, List.append_nil]
  have eventsOf : ∀ k, s'.eventsOf k =
      if k = t.nTableId then s.eventsOf k ++ events else s.eventsOf k := by
    intro k
    simp only [RoomState.eventsOf, trace, List.filter_append]
    by_cases here : k = t.nTableId
    · have all : events.filter (fun e => e.nTableId = k) = events := by
        apply List.filter_eq_self.mpr
        intro e member
        exact decide_eq_true ((eventsHere e member).trans here.symm)
      rw [if_pos here, all]
    · have none : events.filter (fun e => e.nTableId = k) = [] := by
        apply List.filter_eq_nil_iff.mpr
        intro e member isHere
        exact here ((of_decide_eq_true isHere).symm.trans (eventsHere e member))
      rw [if_neg here, none, List.append_nil]
  intro k
  unfold AtTable
  rw [table, TableMap.get_put, timersOf, eventsOf]
  by_cases here : k = t.nTableId
  · subst here
    rw [if_pos rfl, if_pos rfl, if_pos rfl]
    exact inv
  · rw [if_neg here, if_neg here, if_neg here]
    exact others k here

/-- Tables, timers and events are all that matters. -/
theorem AtTables.of_eq {s s' : RoomState} (ok : AtTables P s) (tables : s'.tableMap = s.tableMap)
    (timers : s'.timers = s.timers) (trace : s'.trace = s.trace) : AtTables P s' := by
  intro id
  unfold AtTable
  rw [RoomState.timersOf, RoomState.eventsOf, tables, timers, trace]
  exact ok id

end Tables

/-- What the requests of players do to a table keeps the property. -/
structure KeptByPlay [Arithmetic] (P : TableView → Prop) : Prop where
  ofRoom : ∀ id nGameType nRoomId, P ⟨.ofRoom id nGameType nRoomId, [], []⟩
  sitDown : ∀ {v : TableView}, P v → ∀ u, P { v with table := v.table.sitDown u }
  startGame : ∀ {v : TableView}, P v → v.table.nState = stateInit → v.table.tbSeatUser ≠ [] →
    ∀ random : Nat → Nat,
    P { table := v.table.startGame random
        timers := v.timers ++ [.freeTimerOver]
        events := v.events ++
          [.state v.table.nTableId (v.table.startGame random).nState,
            .initGame v.table.nTableId (v.table.startGame random).round
              (v.table.startGame random).objShuffler.tbShufflerResult] }
  markBet : ∀ {v : TableView}, P v → v.table.nState = stateBet → ∀ {u p : Int} {nBet : ℚ},
    u ∈ v.table.tbSeatUser → 0 < p → p ≤ 4 → ∀ {t : Table}, v.table.markBet u p nBet = some t →
    P { table := t
        timers := v.timers
        events := v.events ++ [.bet v.table.nTableId v.table.round u p nBet] }

theorem RoundInvariant.keptByPlay [Arithmetic] : KeptByPlay RoundInvariant where
  ofRoom := ofRoom
  sitDown inv := inv.sitDown
  startGame inv := inv.startGame
  markBet inv isBet _ _ _ seat low high _ marked := inv.markBet isBet seat low high marked

variable (cfg : RoomConfig)

section Play

variable [Arithmetic] {P : TableView → Prop} (kept : KeptByPlay P)

include kept

/-! ## Sitting down

The requests of players, as far as they change tables.
-/

/-- `CheckState` starts a game at a table in state INIT that has a user. -/
theorem AtTables.checkState {s : RoomState} (ok : AtTables P s) (id : Nat) :
    wp (checkState cfg id) (fun _ s' => AtTables P s') (AtTables P) s := by
  simp only [Room.checkState, wp_bind, wp_getTable]
  cases found : s.tableMap.get id with
  | none => exact ok
  | some t =>
      have sameId : t.nTableId = id := TableMap.nTableId_of_get found
      subst sameId
      simp only [wp_ite, wp_pure, initGame, wp_bind, wp_getTable, found, wp_get, setState, setTable,
        record, addTimer, wp_modify]
      constructor
      · rintro ⟨init, users⟩
        apply atTables_of_put (t.startGame s.random) [⟨t.nTableId, .freeTimerOver, cfg.freeSpan⟩]
          [.state t.nTableId (t.startGame s.random).nState,
            .initGame t.nTableId (t.startGame s.random).round
              (t.startGame s.random).objShuffler.tbShufflerResult]
        · rfl
        · rfl
        · exact List.append_assoc ..
        · simp [Table.startGame, Table.stateForward]
        · simp [RoomEvent.nTableId, Table.startGame, Table.stateForward]
        · exact fun k _ => ok k
        · exact kept.startGame ((ok _).of_some found) init (List.ne_nil_of_length_pos users) s.random
      · intro _
        exact ok

theorem AtTables.sitDown {s : RoomState} (ok : AtTables P s) (id : Nat) (u : Int) :
    wp (sitDown id u) (fun _ s' => AtTables P s') (AtTables P) s := by
  simp only [Room.sitDown, wp_bind, wp_getTable]
  cases found : s.tableMap.get id with
  | none => exact ok
  | some t =>
      have sameId : t.nTableId = id := TableMap.nTableId_of_get found
      subst sameId
      simp only [setTable, wp_modify]
      apply atTables_of_put (t.sitDown u) [] []
      · rfl
      · exact (List.append_nil _).symm
      · exact (List.append_nil _).symm
      · simp
      · simp
      · exact fun k _ => ok k
      · rw [List.map_nil, List.append_nil, List.append_nil]
        exact kept.sitDown ((ok _).of_some found) u

/-- A new table under an id that has none. -/
theorem AtTables.create {s : RoomState} (ok : AtTables P s) {id : Nat} (unused : s.tableMap.get id = none)
    (nGameType nRoomId : Int) (ids : List Nat) :
    AtTables P { s with tbIds := ids, tableMap := s.tableMap.put (.ofRoom id nGameType nRoomId) } := by
  obtain ⟨noTimers, noEvents⟩ := (ok id).of_none unused
  apply atTables_of_put (.ofRoom id nGameType nRoomId) [] []
  · rfl
  · exact (List.append_nil _).symm
  · exact (List.append_nil _).symm
  · simp
  · simp
  · exact fun k _ => ok k
  · have new := kept.ofRoom id nGameType nRoomId
    have idEq : (Table.ofRoom id nGameType nRoomId).nTableId = id := rfl
    rw [idEq, noTimers, noEvents]
    exact new

end Play

/-! ## Timers

A pending timer rings: its callback runs with the timer taken out.
-/

/-- A pending timer is the only one of its table, and that table is there. -/
theorem TablesOk.of_pending [Arithmetic] {s : RoomState} (ok : TablesOk s) {timer : PendingTimer}
    (pending : timer ∈ s.timers) :
    ∃ t, s.tableMap.get timer.nTableId = some t ∧ s.timersOf timer.nTableId = [timer.callback] := by
  have member : timer.callback ∈ s.timersOf timer.nTableId := by
    apply List.mem_map.mpr
    exact ⟨timer, List.mem_filter.mpr ⟨pending, decide_eq_true rfl⟩, rfl⟩
  cases found : s.tableMap.get timer.nTableId with
  | none =>
      rw [((ok _).of_none found).1] at member
      exact absurd member List.not_mem_nil
  | some t =>
      refine ⟨t, rfl, ?_⟩
      have inv := (ok _).of_some found
      have timers : s.timersOf timer.nTableId = pendingIn t.nState := inv.timers
      have state : t.nState ≤ 3 := inv.state
      rw [timers] at member ⊢
      interval_cases t.nState
      · exact absurd member List.not_mem_nil
      all_goals rw [List.mem_singleton.mp member]; rfl

/-- A pending timer is taken out. -/
def RoomState.takeTimer (s : RoomState) (timer : PendingTimer) : RoomState :=
  { s with timers := s.timers.erase timer }

theorem timersOf_takeTimer {s : RoomState} {timer : PendingTimer} (k : Nat) :
    (s.takeTimer timer).timersOf k =
      (((s.timers.filter fun x => x.nTableId = k).erase timer).map PendingTimer.callback) := by
  rw [List.erase_filter]
  rfl

/-- The only timer of a table is taken out. -/
theorem timersOf_takeTimer_self {s : RoomState} {timer : PendingTimer} (pending : timer ∈ s.timers)
    (only : s.timersOf timer.nTableId = [timer.callback]) :
    (s.takeTimer timer).timersOf timer.nTableId = [] := by
  rw [timersOf_takeTimer]
  have member : timer ∈ s.timers.filter fun x => x.nTableId = timer.nTableId :=
    List.mem_filter.mpr ⟨pending, decide_eq_true rfl⟩
  obtain ⟨x, single⟩ := List.length_eq_one_iff.mp
    ((List.length_map _).symm.trans (congrArg List.length only))
  rw [single] at member ⊢
  rw [List.mem_singleton.mp member, List.erase_cons_head, List.map_nil]

theorem AtTables.takeTimer {P : TableView → Prop} {s : RoomState} (ok : AtTables P s) {timer : PendingTimer}
    {k : Nat} (other : k ≠ timer.nTableId) : AtTable P (s.takeTimer timer) k := by
  have notHere : timer ∉ s.timers.filter fun x => x.nTableId = k := by
    intro member
    exact other (of_decide_eq_true (List.mem_filter.mp member).2).symm
  have same : (s.takeTimer timer).timersOf k = s.timersOf k := by
    rw [timersOf_takeTimer, List.erase_of_not_mem notHere]
    rfl
  have atTable := ok k
  unfold AtTable at atTable ⊢
  rw [same]
  exact atTable

/-- What the loop of `Settlement` over seats does to tables, timers and the history: only its turns are new. -/
structure Settles (t : Table) (run : Nat) (seats : List Int) (s s' : RoomState) : Prop where
  tables : s'.tableMap = s.tableMap
  timers : s'.timers = s.timers
  history : ∃ moved, s'.trace = s.trace ++ moved ∧ RoundInvariant.Turns t run seats moved

/-- A turn at a seat, behind which the other seats have theirs. -/
theorem Settles.turn {t : Table} {run : Nat} {u : Int} {seats : List Int} {s s₁ s' : RoomState}
    {events : List RoomEvent} (rest : Settles t run seats s₁ s') (tables : s₁.tableMap = s.tableMap)
    (timers : s₁.timers = s.timers) (trace : s₁.trace = s.trace ++ events)
    (turn : RoundInvariant.Turns t run [u] events) : Settles t run (u :: seats) s s' := by
  obtain ⟨moved, later, turns⟩ := rest.history
  refine ⟨rest.tables.trans tables, rest.timers.trans timers, events ++ moved, ?_, ?_, ?_, ?_⟩
  · rw [later, trace, List.append_assoc]
  · intro e member
    rcases List.mem_append.mp member with now | after
    · exact turn.turns e now
    · exact turns.turns e after
  · intro v tbUserBet bets
    rw [countedOf_append, turn.counted v tbUserBet bets, turns.counted v tbUserBet bets, List.replicate_append_replicate,
      ← List.count_append, List.singleton_append]
  · intro v noBets
    rw [countedOf_append, turn.uncounted v noBets, turns.uncounted v noBets, List.append_nil]

/-- The turn of a user with bets notes them; what is noted besides is gold. -/
theorem turns_singleton {t : Table} (run : Nat) {u : Int} {tbUserBet : List ℚ} (bets : t.tbUserBet u = some tbUserBet)
    {golds : List RoomEvent} (areGold : ∀ e ∈ golds, e.IsGold ∧ e.round = t.round ∧ e.nTableId = t.nTableId) :
    RoundInvariant.Turns t run [u] (.counted t.nTableId t.round run u tbUserBet :: golds) := by
  have uncounted : ∀ v, countedOf golds t.round v = [] := by
    intro v
    apply List.filterMap_eq_nil_iff.mpr
    intro e member
    have isGold := (areGold e member).1
    cases e with
    | counted id r run' u' bets' => exact isGold.elim
    | _ => rfl
  have first : ∀ v, countedOf (.counted t.nTableId t.round run u tbUserBet :: golds) t.round v =
      if u = v then [(run, tbUserBet)] else [] := by
    intro v
    rw [← List.singleton_append, countedOf_append, uncounted, List.append_nil]
    by_cases same : u = v
    · simp [countedOf, same]
    · simp [countedOf, same]
  refine ⟨?_, ?_, ?_⟩
  · intro e member
    rcases List.mem_cons.mp member with rfl | isGold
    · exact ⟨trivial, rfl, rfl⟩
    · obtain ⟨gold, round, here⟩ := areGold e isGold
      refine ⟨?_, round, here⟩
      cases e with
      | gold id r run' u' nCount => trivial
      | _ => exact gold.elim
  · intro v tbUserBet' bets'
    rw [first]
    by_cases same : u = v
    · subst same
      cases bets.symm.trans bets'
      rw [if_pos rfl, List.count_singleton_self]
      rfl
    · rw [if_neg same, List.count_singleton, if_neg (by simpa using same)]
      rfl
  · intro v noBets
    rw [first, if_neg]
    rintro rfl
    rw [bets] at noBets
    cases noBets

/-- The turns of a settlement, seat by seat. -/
theorem settleSeats_settles [Arithmetic] (t : Table) (run : Nat) (odds : List ℚ) (seats : List Int)
    (rows : List Logic.SettlementRow) (s : RoomState) :
    wp (settleSeats cfg t run odds seats rows) (fun _ s' => Settles t run seats s s') (fun _ => True) s := by
  induction seats generalizing rows s with
  | nil =>
      exact ⟨rfl, rfl, [], (List.append_nil _).symm, fun _ member => absurd member List.not_mem_nil,
        fun _ _ _ => rfl, fun _ _ => rfl⟩
  | cons u seats ih =>
      unfold settleSeats
      cases bets : t.tbUserBet u with
      | none =>
          have idle : RoundInvariant.Turns t run [u] [] := by
            refine ⟨fun _ member => absurd member List.not_mem_nil, fun v tbUserBet found => ?_, fun _ _ => rfl⟩
            have other : u ≠ v := by
              rintro rfl
              rw [bets] at found
              cases found
            rw [List.count_singleton, if_neg (by simpa using other)]
            rfl
          exact wp_mono (ih rows s) (fun _ _ rest => rest.turn rfl rfl (List.append_nil _).symm idle) fun _ _ => trivial
      | some tbUserBet =>
          cases counted : seatCount cfg.commission odds 0 tbUserBet with
          | none =>
              simp only [counted]
              trivial
          | some nCount =>
              simp only [counted, record, wp_bind, wp_modify, wp_ite, wp_get]
              refine ⟨fun _ => ?_, fun _ => ?_⟩
              · exact wp_mono (ih rows _) (fun _ _ rest => rest.turn rfl rfl rfl (turns_singleton run bets (by simp)))
                  fun _ _ => trivial
              · cases s.pool.getUserObject u with
                | none => trivial
                | some objUser =>
                    dsimp only
                    cases objUser.changeGold cfg.script nCount with
                    | none => trivial
                    | some changed =>
                        simp only [wp_bind, wp_modify]
                        refine wp_mono (ih _ _) (fun _ _ rest => rest.turn rfl rfl (List.append_assoc ..)
                          (turns_singleton run bets ?_)) fun _ _ => trivial
                        intro e member
                        rw [List.mem_singleton.mp member]
                        exact ⟨trivial, rfl, rfl⟩

/-- `Settlement` records that it began, and its turns. -/
theorem settlement_spec [Arithmetic] {s : RoomState} {t : Table} {hands : List (List Nat)}
    (found : s.tableMap.get t.nTableId = some t) (dealt : t.objShuffler.tbShufflerResult = some hands) :
    wp (settlement cfg t.nTableId)
      (fun _ s' => s'.tableMap = s.tableMap ∧ s'.timers = s.timers ∧
        ∃ run moved, s'.trace = s.trace ++ .settlement t.nTableId t.round run hands :: moved ∧
          RoundInvariant.Turns t run t.tbSeatUser moved)
      (fun _ => True) s := by
  simp only [settlement, wp_bind, wp_getTable, found, dealt, wp_get, wp_modify, record]
  apply wp_mono (settleSeats_settles cfg t _ _ _ _ _)
  · intro rows s' settles
    obtain ⟨moved, trace, turns⟩ := settles.history
    have whole : s'.trace = s.trace ++ .settlement t.nTableId t.round s.settlements hands :: moved := by
      rw [trace, List.append_assoc]
      rfl
    simp only [wp_ite, wp_modify, wp_pure]
    constructor
    · intro _
      exact ⟨settles.tables, settles.timers, s.settlements, moved, whole, turns⟩
    · intro _
      exact ⟨settles.tables, settles.timers, s.settlements, moved, whole, turns⟩
  · intro _ _
    trivial

/-! ### The three callbacks, with their timer taken out -/

section Callbacks

variable [Arithmetic] {s : RoomState} {t : Table} (found : s.tableMap.get t.nTableId = some t)
  (noTimer : s.timersOf t.nTableId = []) (others : ∀ k, k ≠ t.nTableId → AtTable RoundInvariant s k)

include found noTimer others

/-- From the free state to the bet state. -/
theorem freeTimerOver_ok (inv : RoundInvariant ⟨t, [.freeTimerOver], s.eventsOf t.nTableId⟩) :
    wp (freeTimerOver cfg t.nTableId) (fun _ s' => TablesOk s') (fun _ => True) s := by
  have free : t.nState = stateFree := inv.state_of_timer rfl
  have next := inv.setState (Or.inl free) (show stateBet = (t.nState + 1) % 4 by rw [free]; rfl)
  have forward : t.stateForward = { t with nState := stateBet } := by
    rw [Table.stateForward, free]
    rfl
  simp only [freeTimerOver, wp_bind, wp_getTable, found, setState, setTable, record, addTimer, wp_modify]
  apply atTables_of_put t.stateForward [⟨t.nTableId, .betTimerOver, cfg.betSpan⟩]
    [.state t.nTableId t.stateForward.nState]
  · rfl
  · rfl
  · rfl
  · simp [Table.stateForward]
  · simp [RoomEvent.nTableId, Table.stateForward]
  · exact others
  · rw [forward]
    change RoundInvariant ⟨_, s.timersOf t.nTableId ++ [.betTimerOver], _⟩
    rw [noTimer]
    exact next

/-- From the bet state through the settlement to the settlement state. -/
theorem betTimerOver_ok (inv : RoundInvariant ⟨t, [.betTimerOver], s.eventsOf t.nTableId⟩) :
    wp (betTimerOver cfg t.nTableId) (fun _ s' => TablesOk s') (fun _ => True) s := by
  have isBet : t.nState = stateBet := inv.state_of_timer rfl
  have started : t.nState ≠ stateInit := by
    rw [isBet]
    decide
  obtain ⟨hands, dealt, -⟩ := inv.hands started
  simp only [betTimerOver, wp_bind]
  apply wp_mono (settlement_spec cfg found dealt) ?_ fun _ _ => trivial
  intro _ s' settled
  obtain ⟨tables, timers, run, moved, trace, turns⟩ := settled
  have found' : s'.tableMap.get t.nTableId = some t := tables ▸ found
  simp only [wp_getTable, found', setState, setTable, record, addTimer, wp_bind, wp_modify]
  apply atTables_of_put t.stateForward [⟨t.nTableId, .settlementTimerOver, cfg.settlementSpan⟩]
    (.settlement t.nTableId t.round run hands :: moved ++ [.state t.nTableId t.stateForward.nState])
  · change s'.tableMap.put _ = s.tableMap.put _
    rw [tables]
  · change s'.timers ++ _ = s.timers ++ _
    rw [timers]
  · change s'.trace ++ _ = s.trace ++ _
    rw [trace, List.append_assoc]
    rfl
  · simp [Table.stateForward]
  · intro e member
    simp only [List.cons_append, List.mem_cons, List.mem_append, List.not_mem_nil, or_false] at member
    rcases member with rfl | isTurn | rfl
    · rfl
    · exact (turns.turns e isTurn).2.2
    · rfl
  · exact others
  · change RoundInvariant ⟨_, s.timersOf t.nTableId ++ [.settlementTimerOver],
      s.eventsOf t.nTableId ++ _⟩
    rw [noTimer, ← List.append_assoc]
    exact inv.betTimerOver rfl dealt run turns

/-- Back to the free state, in a new round. -/
theorem settlementTimerOver_ok (inv : RoundInvariant ⟨t, [.settlementTimerOver], s.eventsOf t.nTableId⟩) :
    wp (settlementTimerOver cfg t.nTableId) (fun _ s' => TablesOk s') (fun _ => True) s := by
  have settlement : t.nState = stateSettlement := inv.state_of_timer rfl
  have started : t.nState ≠ stateInit := by
    rw [settlement]
    decide
  have users : t.tbSeatUser.length > 0 := List.length_pos_of_ne_nil (inv.seated started)
  have next := inv.setState (Or.inr settlement)
    (show stateInit = (t.nState + 1) % 4 by rw [settlement]; rfl)
  simp only [settlementTimerOver, wp_bind, wp_getTable, found, if_pos users, setState, setTable, record,
    wp_modify]
  refine wp_mono (AtTables.checkState cfg RoundInvariant.keptByPlay ?_ t.nTableId) (fun _ _ ok => ok) fun _ _ => trivial
  apply atTables_of_put { t with nState := stateInit } [] [.state t.nTableId stateInit]
  · rfl
  · exact (List.append_nil _).symm
  · rfl
  · simp
  · simp [RoomEvent.nTableId]
  · exact others
  · change RoundInvariant ⟨_, s.timersOf t.nTableId ++ [], _⟩
    rw [noTimer]
    exact next

end Callbacks

/-- When a pending timer rings and its callback returns, all is well at all tables. -/
theorem TablesOk.fire [Arithmetic] {s : RoomState} (ok : TablesOk s) {timer : PendingTimer}
    (pending : timer ∈ s.timers) :
    wp (timerOver cfg timer.callback timer.nTableId) (fun _ s' => TablesOk s') (fun _ => True)
      (s.takeTimer timer) := by
  obtain ⟨t, found, only⟩ := ok.of_pending pending
  have inv := (ok _).of_some found
  have noTimer := timersOf_takeTimer_self pending only
  have others : ∀ k, k ≠ timer.nTableId → AtTable RoundInvariant (s.takeTimer timer) k :=
    fun _ other => ok.takeTimer other
  have found' : (s.takeTimer timer).tableMap.get timer.nTableId = some t := found
  rw [only] at inv
  rw [← TableMap.nTableId_of_get found] at found' noTimer others inv ⊢
  cases callback : timer.callback with
  | freeTimerOver => exact freeTimerOver_ok cfg found' noTimer others (callback ▸ inv)
  | betTimerOver => exact betTimerOver_ok cfg found' noTimer others (callback ▸ inv)
  | settlementTimerOver => exact settlementTimerOver_ok cfg found' noTimer others (callback ▸ inv)

/-! ## Requests

A user who is mapped to a table has a seat there, so a bet finds a table whose round is open.
-/

/-- Who is mapped to a table has a seat there. -/
def MappedSeated (s : RoomState) : Prop :=
  ∀ u id, s.userTableMap u = some id → ∃ users, s.seats id = some users ∧ u ∈ users

theorem MappedSeated.keeps {s s' : RoomState} (mapped : MappedSeated s) (keeps : RoomKeeps s s') :
    MappedSeated s' := by
  intro u id isMapped
  rw [keeps.userTable] at isMapped
  obtain ⟨users, seats, member⟩ := mapped u id isMapped
  exact ⟨users, (keeps.seats id).trans seats, member⟩

/-- `ClientEnterRoom` once it has found a table. -/
def joinTable (objUser : UserData) (nTableId : Nat) : LuaM RoomState Unit := do
  modify fun s => { s with pool := s.pool.cacheUserObject objUser }
  sitDown nTableId objUser.nUserId
  checkState cfg nTableId

section Requests

variable [Arithmetic] {P : TableView → Prop} (kept : KeptByPlay P)

include kept

/-- A bet request marks a bet only in state BET, and only for a user with a seat at the table. -/
theorem AtTables.clientBet {s : RoomState} (ok : AtTables P s) (mapped : MappedSeated s)
    (nUserId nPosition : Int) (nBet : ℚ) :
    wp (clientBet cfg nUserId nPosition nBet) (fun _ s' => AtTables P s') (AtTables P) s := by
  unfold Room.clientBet
  simp only [wp_ite, wp_pure, wp_bind, wp_get]
  refine ⟨fun _ => ok, fun _ => ⟨fun _ => ok, fun _ => ?_⟩⟩
  cases object : s.pool.getUserObject nUserId with
  | none => exact ok
  | some objUser =>
      cases isMapped : s.userTableMap objUser.nUserId with
      | none =>
          simp only [isMapped]
          exact ok
      | some id =>
          simp only [isMapped, userBet, wp_bind, wp_getTable]
          obtain ⟨users, seats, member⟩ := mapped _ _ isMapped
          obtain ⟨t, found, rfl⟩ := Option.map_eq_some_iff.mp seats
          have sameId : t.nTableId = id := TableMap.nTableId_of_get found
          subst sameId
          simp only [found, wp_ite, wp_pure]
          refine ⟨fun _ => ok, fun inRange => ⟨fun _ => ok, fun isBet => ⟨fun _ => ok, fun _ => ?_⟩⟩⟩
          cases marked : t.markBet objUser.nUserId nPosition nBet with
          | none => exact ok
          | some t' =>
              simp only [setTable, record, wp_bind, wp_modify, wp_pure]
              have betState : t.nState = stateBet := by simpa [Table.isBetState] using isBet
              have sameTable : t'.nTableId = t.nTableId := (Table.markBet_bets marked).1
              apply atTables_of_put t' [] [.bet t.nTableId t.round objUser.nUserId nPosition nBet]
              · rfl
              · exact (List.append_nil _).symm
              · rfl
              · simp
              · simp [RoomEvent.nTableId, sameTable]
              · exact fun k _ => ok k
              · rw [sameTable, List.map_nil, List.append_nil]
                exact kept.markBet ((ok _).of_some found) betState member (by omega) (by omega) marked

theorem AtTables.sitDown_checkState {s : RoomState} (ok : AtTables P s) (id : Nat) (u : Int) :
    wp (do
        Room.sitDown id u
        Room.checkState cfg id)
      (fun _ s' => AtTables P s') (AtTables P) s := by
  rw [wp_bind]
  apply wp_mono (ok.sitDown kept id u)
  · exact fun _ _ seated => seated.checkState cfg kept id
  · exact fun _ raised => raised

theorem AtTables.joinTable {s : RoomState} (ok : AtTables P s) (objUser : UserData) (id : Nat) :
    wp (joinTable cfg objUser id) (fun _ s' => AtTables P s') (AtTables P) s := by
  rw [Room.joinTable, wp_bind, wp_modify]
  have cached : AtTables P { s with pool := s.pool.cacheUserObject objUser } := ok.of_eq rfl rfl rfl
  exact cached.sitDown_checkState cfg kept id objUser.nUserId

/-- The part of `ClientEnterRoom` that makes a table, under an id that no table has, and seats the user. -/
theorem AtTables.takeSeat {s : RoomState} (ok : AtTables P s) {nGameType nRoomId : Int}
    (isOpen : OpenRoom s nGameType nRoomId) (unused : ∀ id ∈ s.tbIds, s.tableMap.get id = none)
    (nUserId : Int) :
    wp (do
        let nTableId ← findATable cfg nGameType nRoomId
        Room.sitDown nTableId nUserId
        Room.checkState cfg nTableId
        getClientDataByState nTableId)
      (fun _ s' => AtTables P s') (AtTables P) s := by
  simp only [wp_bind]
  rw [findATable_eq cfg nGameType nRoomId isOpen]
  apply wp_mono (createTable_spec cfg nGameType nRoomId isOpen)
  · intro id r made
    obtain ⟨-, taken, created⟩ := made
    have okCreated : AtTables P r := by
      have new := ok.create kept (unused id (taken ▸ List.mem_cons_self)) nGameType nRoomId r.tbIds
      apply new.of_eq <;> rw [created]
    apply wp_mono (okCreated.sitDown kept id nUserId)
    · intro _ _ okSeated
      apply wp_mono (okSeated.checkState cfg kept id)
      · intro _ r' okStarted
        simp only [getClientDataByState, wp_bind, wp_getTable]
        cases r'.tableMap.get id with
        | none => exact okStarted
        | some x =>
            simp only [wp_get, wp_ite, wp_raise, wp_pure]
            exact ⟨fun _ => okStarted, fun _ => okStarted⟩
      · exact fun _ raised => raised
    · exact fun _ raised => raised
  · intro r ended
    apply ok.of_eq <;> rw [ended.2]

theorem AtTables.clientEnterRoom {s : RoomState} (ok : AtTables P s) (fresh : IdsFresh s)
    (objUser : UserData) (nHandlerId nGameType nRoomId : Int) :
    wp (clientEnterRoom cfg objUser nHandlerId nGameType nRoomId) (fun _ s' => AtTables P s') (AtTables P)
      s := by
  unfold Room.clientEnterRoom
  rw [wp_bind]
  apply wp_mono (openRoom_spec nGameType nRoomId fresh.lists) ?_ fun _ never => never.elim
  intro _ t opened
  obtain ⟨same, -, isOpen⟩ := opened
  rw [wp_bind, wp_modify]
  apply AtTables.takeSeat cfg kept
  · apply ok.of_eq
    · change t.tableMap = s.tableMap
      rw [same]
    · change t.timers = s.timers
      rw [same]
    · change t.trace = s.trace
      rw [same]
  · exact isOpen
  · intro id member
    change t.tableMap.get id = none
    have ids : t.tbIds = s.tbIds := by rw [same]
    have tables : t.tableMap = s.tableMap := by rw [same]
    rw [tables]
    exact Option.map_eq_none_iff.mp (fresh.unused id (ids ▸ member))

end Requests

/-! ## Runs

The law of rounds at every table, in every run.
-/

/-- What happens in the room server: a user enters a room; a user sits down at a table that is there; a
user bets; a pending timer rings. -/
inductive RoundCall where
  | enter (call : EnterCall)
  | sitDown (objUser : UserData) (nTableId : Nat)
  | bet (nUserId nPosition : Int) (nBet : ℚ)
  | fire (timer : PendingTimer)

/-- The state after a call; only pending timers ring, and no callback raises. -/
def roundStep [Arithmetic] (s : RoomState) : RoundCall → Option RoomState
  | .enter call => some (enter cfg s call)
  | .sitDown objUser nTableId => some (exec (joinTable cfg objUser nTableId) s).2
  | .bet nUserId nPosition nBet => some (exec (clientBet cfg nUserId nPosition nBet) s).2
  | .fire timer =>
      if timer ∈ s.timers then
        match exec (timerOver cfg timer.callback timer.nTableId) (s.takeTimer timer) with
        | (.ok _, s') => some s'
        | (.error _, _) => none
      else
        none

/-- What holds between the calls of a run. -/
structure RoomInvariant [Arithmetic] (s : RoomState) : Prop where
  tables : TablesOk s
  mapped : MappedSeated s
  fresh : IdsFresh s

/-- Who enters is mapped to the table where he sits. -/
theorem MappedSeated.enter {s : RoomState} (mapped : MappedSeated s) (fresh : IdsFresh s) (c : EnterCall) :
    MappedSeated (enter cfg s c) := by
  have entered := enter_spec cfg fresh.lists c
  intro u k isMapped
  by_cases getsSeat : c.nGameType = cfg.bullFighting ∧ s.tbIds ≠ []
  · obtain ⟨id, ids, start⟩ := List.exists_cons_of_ne_nil getsSeat.2
    obtain ⟨userTable, seats, -⟩ := entered.seated id ids getsSeat.1 start
    have unused : s.seats id = none := fresh.unused id (start ▸ List.mem_cons_self)
    rw [userTable] at isMapped
    by_cases isUser : u = c.objUser.nUserId
    · subst isUser
      rw [Function.update_self] at isMapped
      rw [← Option.some.inj isMapped]
      exact ⟨[c.objUser.nUserId], (seats id).trans (if_pos rfl), List.mem_singleton_self _⟩
    · rw [Function.update_of_ne isUser] at isMapped
      obtain ⟨users, found, member⟩ := mapped u k isMapped
      have other : k ≠ id := by
        rintro rfl
        exact absurd (unused.symm.trans found) (by simp)
      exact ⟨users, (seats k).trans ((if_neg other).trans found), member⟩
  · have turnedAway : c.nGameType ≠ cfg.bullFighting ∨ s.tbIds = [] := by tauto
    obtain ⟨userTable, seats, -⟩ := entered.turnedAway turnedAway
    rw [userTable] at isMapped
    obtain ⟨users, found, member⟩ := mapped u k isMapped
    exact ⟨users, (seats k).trans found, member⟩

/-- An entry. -/
theorem RoomInvariant.enter [Arithmetic] {s : RoomState} (inv : RoomInvariant s) (c : EnterCall) :
    RoomInvariant (enter cfg s c) where
  tables := wp_same.mp (inv.tables.clientEnterRoom cfg RoundInvariant.keptByPlay inv.fresh c.objUser
    c.nHandlerId c.nGameType c.nRoomId)
  mapped := inv.mapped.enter cfg inv.fresh c
  fresh := inv.fresh.enter cfg c

/-- Sitting down at a table that is there, with its seats, ids and rooms. -/
theorem sitDown_seats {s : RoomState} {id : Nat} {t : Table} (found : s.tableMap.get id = some t) (u : Int) :
    wp (sitDown id u) (fun _ s' => s'.tbIds = s.tbIds ∧ s'.roomList = s.roomList ∧
      s'.userTableMap = Function.update s.userTableMap u (some id) ∧
      ∀ k, s'.seats k = if k = id then some (t.tbSeatUser ++ [u]) else s.seats k) (fun _ => False) s := by
  have sameId : t.nTableId = id := TableMap.nTableId_of_get found
  subst sameId
  simp only [sitDown, wp_bind, wp_getTable, found, setTable, wp_modify]
  refine ⟨trivial, trivial, trivial, fun k => ?_⟩
  simp only [RoomState.seats, TableMap.get_put, Table.sitDown]
  by_cases same : k = t.nTableId <;> simp [same]

theorem sitDown_checkState_seated {s : RoomState} (mapped : MappedSeated s) (fresh : IdsFresh s)
    (id : Nat) (nUserId : Int) :
    wp (do
        sitDown id nUserId
        checkState cfg id)
      (fun _ s' => MappedSeated s' ∧ IdsFresh s') (fun s' => MappedSeated s' ∧ IdsFresh s') s := by
  rw [wp_bind]
  cases found : s.tableMap.get id with
  | none =>
      simp only [sitDown, wp_bind, wp_getTable, found]
      exact ⟨mapped, fresh⟩
  | some t =>
      apply wp_mono (sitDown_seats found nUserId) ?_ fun _ never => False.elim never
      intro _ s' sat
      obtain ⟨ids, rooms, userTable, seats⟩ := sat
      have seatsThere : s.seats id = some t.tbSeatUser := by rw [RoomState.seats, found]; rfl
      have mapped' : MappedSeated s' := by
        intro u k isMapped
        rw [userTable] at isMapped
        rw [seats]
        by_cases isUser : u = nUserId
        · subst isUser
          rw [Function.update_self] at isMapped
          rw [← Option.some.inj isMapped, if_pos rfl]
          exact ⟨_, rfl, List.mem_append_right _ (List.mem_singleton_self _)⟩
        · rw [Function.update_of_ne isUser] at isMapped
          obtain ⟨users, there, member⟩ := mapped u k isMapped
          by_cases here : k = id
          · subst here
            rw [if_pos rfl]
            cases seatsThere.symm.trans there
            exact ⟨_, rfl, List.mem_append_left _ member⟩
          · rw [if_neg here]
            exact ⟨users, there, member⟩
      have fresh' : IdsFresh s' := by
        refine ⟨?_, ids ▸ fresh.nodup, fun k member => ?_⟩
        · unfold ListsEmpty
          rw [rooms]
          exact fresh.lists
        · have unused := fresh.unused k (ids ▸ member)
          have other : k ≠ id := by
            rintro rfl
            exact absurd (unused.symm.trans seatsThere) (by simp)
          rw [seats, if_neg other]
          exact unused
      apply wp_mono (checkState_keeps cfg RoomKeeps.keptByTables id s')
      · exact fun _ _ keeps => ⟨mapped'.keeps keeps, fresh'.keeps keeps⟩
      · exact fun _ keeps => ⟨mapped'.keeps keeps, fresh'.keeps keeps⟩

theorem joinTable_seated {s : RoomState} (mapped : MappedSeated s) (fresh : IdsFresh s)
    (objUser : UserData) (id : Nat) :
    MappedSeated (exec (joinTable cfg objUser id) s).2 ∧ IdsFresh (exec (joinTable cfg objUser id) s).2 := by
  have cached : RoomKeeps s { s with pool := s.pool.cacheUserObject objUser } := .of_eq rfl rfl rfl rfl
  have seated : wp (Room.joinTable cfg objUser id) (fun _ s' => MappedSeated s' ∧ IdsFresh s')
      (fun s' => MappedSeated s' ∧ IdsFresh s') s := by
    rw [Room.joinTable, wp_bind, wp_modify]
    exact sitDown_checkState_seated cfg (mapped.keeps cached) (fresh.keeps cached) id objUser.nUserId
  exact wp_same.mp seated

theorem RoomInvariant.joinTable [Arithmetic] {s : RoomState} (inv : RoomInvariant s) (objUser : UserData) (id : Nat) :
    RoomInvariant (exec (joinTable cfg objUser id) s).2 := by
  obtain ⟨mapped, fresh⟩ := joinTable_seated cfg inv.mapped inv.fresh objUser id
  exact ⟨wp_same.mp (inv.tables.joinTable cfg RoundInvariant.keptByPlay objUser id), mapped, fresh⟩

/-- The step lemma. -/
theorem RoomInvariant.step [Arithmetic] {s s' : RoomState} (inv : RoomInvariant s) {call : RoundCall}
    (step : roundStep cfg s call = some s') : RoomInvariant s' := by
  cases call with
  | enter c =>
      cases step
      exact inv.enter cfg c
  | sitDown objUser id =>
      cases step
      exact inv.joinTable cfg objUser id
  | bet u position bet =>
      cases step
      have keeps := wp_same.mp (clientBet_keeps cfg u position bet s)
      have tables := wp_same.mp (inv.tables.clientBet cfg RoundInvariant.keptByPlay inv.mapped u position bet)
      exact ⟨tables, inv.mapped.keeps keeps,
        inv.fresh.keeps keeps⟩
  | fire timer =>
      simp only [roundStep] at step
      split at step
      · rename_i pending
        have taken : RoomKeeps s (s.takeTimer timer) := .of_eq rfl rfl rfl rfl
        have keeps := wp_same.mp
          (timerOver_keeps cfg RoomKeeps.keptByTables timer.callback timer.nTableId (s.takeTimer timer))
        have ok := inv.tables.fire cfg pending
        unfold wp at ok
        cases result : exec (timerOver cfg timer.callback timer.nTableId) (s.takeTimer timer) with
        | mk value s₁ =>
            rw [result] at step ok keeps
            cases value with
            | ok _ =>
                cases step
                have all := trans_of RoomKeeps taken keeps
                exact ⟨ok, inv.mapped.keeps all, inv.fresh.keeps all⟩
            | error _ => cases step
      · cases step

open scoped DoubleArithmetic

end GameServer.Room
