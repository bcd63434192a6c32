/-
Module: GameServer.Room.PaysOnce
Purpose: Which settlements move gold in a round, when a callback that raises keeps its timer and is called again.
Trusted boundary: as for the tables; `update` calls the callbacks of pending timers in any order, and takes a timer
  out when its callback has returned
Main exports: TableCall, tableStep, PaysOnce, seatTurn, SettlesWhole, paysOnce_of_whole
-/
import GameServer.Room.RoundRuns

namespace GameServer.Room

open Lib Lib.LuaM Script
open Logic (SettlementRow)

variable (cfg : RoomConfig)

/-! ## Calls

Entries, bets, and timers that ring while they are pending.
-/

/-- What happens in the room server. -/
inductive TableCall where
  | enter (call : EnterCall)
  | sitDown (objUser : UserData) (nTableId : Nat)
  | bet (nUserId nPosition : Int) (nBet : ℚ)
  /-- Users come and go, and their objects change. -/
  | users (pool : UserPool)
  /-- A turn of the loop in `update` over the timers that are due. -/
  | ring (timer : PendingTimer)

/-- The state after a call; only pending timers ring. -/
def tableStep [Arithmetic] (s : RoomState) : TableCall → Option RoomState
  | .enter call => some (enter cfg s call)
  | .sitDown objUser nTableId => some (exec (joinTable cfg objUser nTableId) s).2
  | .bet nUserId nPosition nBet => some (exec (clientBet cfg nUserId nPosition nBet) s).2
  | .users pool => some { s with pool := pool }
  | .ring timer =>
      if timer ∈ s.timers then
        match exec (timerOver cfg timer.callback timer.nTableId) s with
        -- `remove_timer` comes after the callback, and is not reached when it raises
        | (.ok _, s') => some (s'.takeTimer timer)
        | (.error _, s') => some s'
      else none

/-- The gold of a user is moved by one settlement of a round at most. -/
def PaysOnce (trace : List RoomEvent) : Prop :=
  ∀ nTableId round run run' nUserId nCount nCount',
    .gold nTableId round run nUserId nCount ∈ trace → .gold nTableId round run' nUserId nCount' ∈ trace →
      run = run'

/-- A timer that rings changes no seats. -/
theorem ring_keeps [Arithmetic] {s s' : RoomState} {timer : PendingTimer} (step : tableStep cfg s (.ring timer) = some s') :
    RoomKeeps s s' := by
  obtain ⟨-, step⟩ := Option.ite_none_right_eq_some.mp step
  have kept := wp_same.mp (timerOver_keeps cfg RoomKeeps.keptByTables timer.callback timer.nTableId s)
  cases result : exec (timerOver cfg timer.callback timer.nTableId) s with
  | mk value s₁ =>
      rw [result] at step kept
      cases value with
      | ok _ =>
          cases step
          exact kept.andThen rfl rfl rfl rfl
      | error _ =>
          cases step
          exact kept

/-! ## The turns of a settlement

A settlement moves gold seat by seat, and may raise in the middle: what it has moved stays moved, and the timer rings
again.
-/

/-- What the loop of `Settlement` does with a user: nothing, a movement of gold, or it raises. -/
inductive SeatTurn where
  | idle
  | moves
  | stops
deriving Repr, DecidableEq

def seatTurn [Arithmetic] (pool : UserPool) (t : Table) (odds : List ℚ) (nUserId : Int) : SeatTurn :=
  match t.tbUserBet nUserId with
  | none => .idle
  | some tbUserBet =>
      match seatCount cfg.commission odds 0 tbUserBet with
      | none => .stops
      | some nCount =>
          if nCount = 0 then .idle
          else if (pool.getUserObject nUserId).isSome ∧ cfg.script.raisesFor nUserId nCount = false then .moves
          else .stops

/-- No user whose gold is moved comes before one at whom the loop raises. -/
def SettlesWhole [Arithmetic] (pool : UserPool) (t : Table) (odds : List ℚ) : Prop :=
  t.tbSeatUser.Pairwise fun earlier later =>
    seatTurn cfg pool t odds earlier = .moves → seatTurn cfg pool t odds later ≠ .stops

/-- Settlements move the gold of all their users or of nobody. -/
def Whole [Arithmetic] (s : RoomState) : TableCall → Prop
  | .ring ⟨nTableId, .betTimerOver, _⟩ =>
      ∀ t ∈ s.tableMap.get nTableId, ∀ hands ∈ t.objShuffler.tbShufflerResult,
        SettlesWhole cfg s.pool t (handOdds cfg hands)
  | _ => True

instance [Arithmetic] (pool : UserPool) (t : Table) (odds : List ℚ) : Decidable (SettlesWhole cfg pool t odds) :=
  inferInstanceAs (Decidable (List.Pairwise _ _))

instance [Arithmetic] (s : RoomState) : (call : TableCall) → Decidable (Whole cfg s call)
  | .ring ⟨nTableId, .betTimerOver, _⟩ =>
      inferInstanceAs (Decidable (∀ t ∈ s.tableMap.get nTableId, ∀ hands ∈ t.objShuffler.tbShufflerResult, _))
  | .ring ⟨_, .freeTimerOver, _⟩ | .ring ⟨_, .settlementTimerOver, _⟩ => isTrue trivial
  | .enter _ | .sitDown .. | .bet .. | .users _ => isTrue trivial

/-- Only who has an object matters. -/
theorem seatTurn_congr [Arithmetic] {pool pool' : UserPool}
    (same : ∀ u, (pool'.getUserObject u).isSome = (pool.getUserObject u).isSome) (t : Table) (odds : List ℚ)
    (nUserId : Int) : seatTurn cfg pool' t odds nUserId = seatTurn cfg pool t odds nUserId := by
  unfold seatTurn
  rw [same]

/-- A user whose gold is changed had an object before. -/
theorem isSome_cacheUserObject {pool : UserPool} {objUser : UserData} {nUserId : Int}
    (found : pool.getUserObject nUserId = some objUser) (nVal : ℚ) (u : Int) :
    ((pool.cacheUserObject (objUser.setGold nVal)).getUserObject u).isSome = (pool.getUserObject u).isSome := by
  rw [UserPool.getUserObject_cache, UserData.setGold_nUserId, pool.nUserId_of_get found]
  split
  · next same => rw [same, found]; rfl
  · rfl

/-- What turns of a settlement do: they note something at the table, as the filter has it. -/
structure Turned (fits : RoomEvent → Prop) (s s' : RoomState) : Prop where
  tables : s'.tableMap = s.tableMap
  timers : s'.timers = s.timers
  history : ∃ events, s'.trace = s.trace ++ events ∧ ∀ e ∈ events, fits e

/-- The event is at the table; if it moves gold, it does so in the name of the settlement. -/
def Named (t : Table) (run : Nat) (e : RoomEvent) : Prop :=
  e.nTableId = t.nTableId ∧ (e.IsGold → ∃ u nCount, e = .gold t.nTableId t.round run u nCount)

/-- The event is at the table, and moves no gold. -/
def Quiet (t : Table) (e : RoomEvent) : Prop := ¬ e.IsGold ∧ e.nTableId = t.nTableId

theorem Quiet.named {t : Table} {e : RoomEvent} (quiet : Quiet t e) (run : Nat) : Named t run e :=
  ⟨quiet.2, fun isGold => absurd isGold quiet.1⟩

namespace Turned

variable {fits fits' : RoomEvent → Prop} {s s' s'' : RoomState}

theorem refl (fits : RoomEvent → Prop) (s : RoomState) : Turned fits s s :=
  ⟨rfl, rfl, [], (List.append_nil _).symm, fun _ member => absurd member List.not_mem_nil⟩

/-- Turns one after the other. -/
theorem trans (first : Turned fits s s') (second : Turned fits s' s'') : Turned fits s s'' := by
  obtain ⟨events, trace, each⟩ := first.history
  obtain ⟨events', trace', each'⟩ := second.history
  refine ⟨second.tables.trans first.tables, second.timers.trans first.timers, events ++ events', ?_, ?_⟩
  · rw [trace', trace, List.append_assoc]
  · intro e member
    rcases List.mem_append.mp member with early | late
    · exact each e early
    · exact each' e late

/-- A weaker filter lets the turns through. -/
theorem mono (turned : Turned fits s s') (weaker : ∀ e, fits e → fits' e) : Turned fits' s s' := by
  obtain ⟨events, trace, each⟩ := turned.history
  exact ⟨turned.tables, turned.timers, events, trace, fun e member => weaker e (each e member)⟩

end Turned

/-- One turn of the loop, and what is left of it. -/
theorem settleSeats_cons [Arithmetic] {t : Table} {run : Nat} {odds : List ℚ} {u : Int} {seats : List Int}
    {rows : List SettlementRow} {Q : List SettlementRow → RoomState → Prop} {R : RoomState → Prop} {s : RoomState}
    (idle : seatTurn cfg s.pool t odds u = .idle → ∀ s', Turned (Quiet t) s s' → s'.pool = s.pool →
      wp (settleSeats cfg t run odds seats rows) Q R s')
    (moves : seatTurn cfg s.pool t odds u = .moves → ∀ s' more, Turned (Named t run) s s' →
      (∀ v, (s'.pool.getUserObject v).isSome = (s.pool.getUserObject v).isSome) →
      wp (settleSeats cfg t run odds seats more) Q R s')
    (stops : seatTurn cfg s.pool t odds u = .stops → ∀ s', Turned (Quiet t) s s' → R s') :
    wp (settleSeats cfg t run odds (u :: seats) rows) Q R s := by
  have noted : ∀ tbUserBet, Turned (Quiet t) s
      { s with trace := s.trace ++ [.counted t.nTableId t.round run u tbUserBet] } := by
    intro tbUserBet
    refine ⟨rfl, rfl, [_], rfl, fun e member => ?_⟩
    rw [List.mem_singleton.mp member]
    exact ⟨fun isGold => isGold, rfl⟩
  unfold settleSeats
  cases bets : t.tbUserBet u with
  | none => exact idle (by rw [seatTurn, bets]) s (Turned.refl _ s) rfl
  | some tbUserBet =>
      cases count : seatCount cfg.commission odds 0 tbUserBet with
      | none =>
          simp only [count, wp_raise]
          exact stops (by simp only [seatTurn, bets, count]) s (Turned.refl _ s)
      | some nCount =>
          simp only [count, record, wp_bind, wp_modify]
          by_cases zero : nCount = 0
          · rw [if_pos zero]
            exact idle (by simp only [seatTurn, bets, count, if_pos zero]) _ (noted tbUserBet) rfl
          · simp only [if_neg zero, wp_bind, wp_get]
            cases found : s.pool.getUserObject u with
            | none => exact stops (by simp [seatTurn, bets, count, zero, found]) _ (noted tbUserBet)
            | some objUser =>
                have id_eq : objUser.nUserId = u := s.pool.nUserId_of_get found
                simp only [UserData.changeGold_eq, id_eq]
                cases raises : cfg.script.raisesFor u nCount with
                | true => exact stops (by simp [seatTurn, bets, count, zero, raises]) _ (noted tbUserBet)
                | false =>
                    simp only [wp_bind, wp_modify, Bool.false_eq_true, if_false]
                    apply moves
                    · simp [seatTurn, bets, count, zero, found, raises]
                    · refine ((noted tbUserBet).mono fun e quiet => quiet.named run).trans ⟨rfl, rfl, [_], rfl, ?_⟩
                      intro e member
                      rw [List.mem_singleton.mp member]
                      exact ⟨rfl, fun _ => ⟨u, nCount, rfl⟩⟩
                    · exact isSome_cacheUserObject found _

/-- When no user stops it, the loop gets through. -/
theorem settleSeats_through [Arithmetic] {t : Table} {run : Nat} {odds : List ℚ} {seats : List Int} {rows : List SettlementRow}
    {s : RoomState} (through : ∀ u ∈ seats, seatTurn cfg s.pool t odds u ≠ .stops) :
    wp (settleSeats cfg t run odds seats rows) (fun _ => Turned (Named t run) s) (fun _ => False) s := by
  induction seats generalizing rows s with
  | nil => exact Turned.refl _ s
  | cons u seats ih =>
      rw [List.forall_mem_cons] at through
      apply settleSeats_cons
      · intro _ s' noted same
        refine wp_mono (ih ?_) (fun _ _ rest => (noted.mono fun e quiet => quiet.named run).trans rest) fun _ never => never
        rw [same]
        exact through.2
      · intro _ s' more moved same
        have later : ∀ v ∈ seats, seatTurn cfg s'.pool t odds v ≠ .stops := by
          intro v member
          rw [seatTurn_congr cfg same]
          exact through.2 v member
        exact wp_mono (ih later) (fun _ _ rest => moved.trans rest) fun _ never => never
      · intro stops
        exact absurd stops through.1

/-- A settlement that moves the gold of all or of nobody raises before any is moved. -/
theorem settleSeats_whole [Arithmetic] {t : Table} {run : Nat} {odds : List ℚ} {seats : List Int} {rows : List SettlementRow}
    {s : RoomState} (whole : seats.Pairwise fun earlier later =>
      seatTurn cfg s.pool t odds earlier = .moves → seatTurn cfg s.pool t odds later ≠ .stops) :
    wp (settleSeats cfg t run odds seats rows) (fun _ => Turned (Named t run) s) (Turned (Quiet t) s) s := by
  induction seats generalizing rows s with
  | nil => exact Turned.refl _ s
  | cons u seats ih =>
      obtain ⟨first, rest⟩ := List.pairwise_cons.mp whole
      apply settleSeats_cons
      · intro _ s' noted same
        rw [← same] at rest
        exact wp_mono (ih rest) (fun _ _ later => (noted.mono fun e quiet => quiet.named run).trans later)
          fun _ later => noted.trans later
      · intro moves s' more moved same
        have later : ∀ v ∈ seats, seatTurn cfg s'.pool t odds v ≠ .stops := by
          intro v member
          rw [seatTurn_congr cfg same]
          exact first v member moves
        exact wp_mono (settleSeats_through cfg later) (fun _ _ rest => moved.trans rest) fun _ never => never.elim
      · intro _ s' noted
        exact noted

/-- `Settlement` where it moves the gold of all or of nobody; when it raises, it has moved none. -/
theorem settlement_whole [Arithmetic] {s : RoomState} {t : Table} (found : s.tableMap.get t.nTableId = some t)
    (whole : ∀ hands, t.objShuffler.tbShufflerResult = some hands →
      SettlesWhole cfg s.pool t (handOdds cfg hands)) :
    wp (settlement cfg t.nTableId) (fun _ => Turned (Named t s.settlements) s) (Turned (Quiet t) s) s := by
  simp only [settlement, wp_bind, wp_getTable, found]
  cases dealt : t.objShuffler.tbShufflerResult with
  | none => exact Turned.refl _ s
  | some hands =>
      simp only [wp_bind, wp_get, wp_modify, record]
      have begun : Turned (Quiet t) s
          { s with
            settlements := s.settlements + 1
            trace := s.trace ++ [.settlement t.nTableId t.round s.settlements hands] } := by
        refine ⟨rfl, rfl, [_], rfl, fun e member => ?_⟩
        rw [List.mem_singleton.mp member]
        exact ⟨fun isGold => isGold, rfl⟩
      refine wp_mono (settleSeats_whole cfg (whole hands dealt)) ?_ fun _ turned => begun.trans turned
      intro rows s' turned
      have done := (begun.mono fun e quiet => quiet.named s.settlements).trans turned
      simp only [wp_ite, wp_modify, wp_pure]
      exact ⟨fun _ => ⟨done.tables, done.timers, done.history⟩, fun _ => done⟩

/-! ## The invariant of a table

The law of rounds, with the settlements that moved gold: at most one in each round.
-/

/-- A table has the timer of its state or none, and in the states before a settlement no gold was moved in its
round. -/
structure PaysInvariant (v : TableView) : Prop where
  timers : v.timers.Sublist (pendingIn v.table.nState)
  rounds : ∀ e ∈ v.events, e.IsGold → e.round ≤ v.table.round
  unpaid : v.table.nState = stateFree ∨ v.table.nState = stateBet →
    ∀ e ∈ v.events, e.IsGold → e.round ≠ v.table.round
  once : PaysOnce v.events

namespace PaysInvariant

variable {v : TableView}

/-- Further events that move no gold. -/
theorem once_append {events more : List RoomEvent} (once : PaysOnce events) (noGold : ∀ e ∈ more, ¬ e.IsGold) :
    PaysOnce (events ++ more) := by
  intro id round run run' u nCount nCount' first second
  have before : ∀ e ∈ events ++ more, e.IsGold → e ∈ events := by
    intro e member isGold
    rcases List.mem_append.mp member with early | late
    · exact early
    · exact absurd isGold (noGold e late)
  exact once id round run run' u nCount nCount' (before _ first trivial) (before _ second trivial)

/-- What is asked of a history goes on when no gold is moved. -/
theorem append {t : Table} {timers : List TableTimer} {more : List RoomEvent} (inv : PaysInvariant v)
    (round : v.table.round ≤ t.round) (noGold : ∀ e ∈ more, ¬ e.IsGold)
    (isTimers : timers.Sublist (pendingIn t.nState))
    (unpaid : t.nState = stateFree ∨ t.nState = stateBet → ∀ e ∈ v.events, e.IsGold → e.round ≠ t.round) :
    PaysInvariant ⟨t, timers, v.events ++ more⟩ where
  timers := isTimers
  rounds e member isGold := by
    rcases List.mem_append.mp member with early | late
    · exact Nat.le_trans (inv.rounds e early isGold) round
    · exact absurd isGold (noGold e late)
  unpaid open' e member isGold := by
    rcases List.mem_append.mp member with early | late
    · exact unpaid open' e early isGold
    · exact absurd isGold (noGold e late)
  once := once_append inv.once noGold

/-- A new round, in which no gold was moved yet. -/
theorem startGame (inv : PaysInvariant v) (init : v.table.nState = stateInit) (random : Nat → Nat) :
    PaysInvariant
      { table := v.table.startGame random
        timers := v.timers ++ [.freeTimerOver]
        events := v.events ++
          [.state v.table.nTableId (v.table.startGame random).nState,
            .initGame v.table.nTableId (v.table.startGame random).round
              (v.table.startGame random).objShuffler.tbShufflerResult] } := by
  have noTimers : v.timers = [] := by
    have timers := inv.timers
    rw [init] at timers
    exact List.sublist_nil.mp timers
  have free : (v.table.startGame random).nState = stateFree := by
    simp [Table.startGame, Table.stateForward, init, stateInit, stateFree]
  apply inv.append
  · exact Nat.le_succ _
  · simp [RoomEvent.IsGold]
  · rw [noTimers, free]
    exact List.Sublist.refl _
  · intro _ e member isGold
    exact Nat.ne_of_lt (Nat.lt_succ_of_le (inv.rounds e member isGold))

/-- Requests of players keep the invariant. -/
theorem keptByPlay [Arithmetic] : KeptByPlay PaysInvariant where
  ofRoom id nGameType nRoomId :=
    ⟨List.nil_sublist _, fun _ member => absurd member List.not_mem_nil,
      fun _ _ member => absurd member List.not_mem_nil,
      fun _ _ _ _ _ _ _ member => absurd member List.not_mem_nil⟩
  sitDown inv u := ⟨inv.timers, inv.rounds, inv.unpaid, inv.once⟩
  startGame inv init _ := inv.startGame init
  markBet {v} inv _ _ _ _ _ low high t marked := by
    obtain ⟨tbPlayerBet, rfl⟩ := Table.markBet_eq low high marked
    apply inv.append
    · exact Nat.le_refl _
    · simp [RoomEvent.IsGold]
    · exact inv.timers
    · exact inv.unpaid

/-- The gold of one settlement, in a round in which none was moved. -/
theorem settled {t : Table} {events : List RoomEvent} {turns : List RoomEvent} {run : Nat}
    (once : PaysOnce events) (unpaid : ∀ e ∈ events, e.IsGold → e.round ≠ t.round)
    (named : ∀ e ∈ turns, Named t run e) : PaysOnce (events ++ turns) := by
  intro id' round' run₁ run₂ u nCount nCount' first second
  have split : ∀ r n, RoomEvent.gold id' round' r u n ∈ events ++ turns →
      .gold id' round' r u n ∈ events ∨ (round' = t.round ∧ r = run) := by
    intro r n member
    rcases List.mem_append.mp member with early | late
    · exact Or.inl early
    · obtain ⟨u', n', same⟩ := (named _ late).2 trivial
      cases same
      exact Or.inr ⟨rfl, rfl⟩
  rcases split _ _ first with early | ⟨sameRound, sameRun⟩
  · rcases split _ _ second with early' | ⟨sameRound, -⟩
    · exact once id' round' run₁ run₂ u nCount nCount' early early'
    · exact absurd sameRound (unpaid _ early trivial)
  · rcases split _ _ second with early' | ⟨-, sameRun'⟩
    · exact absurd sameRound (unpaid _ early' trivial)
    · rw [sameRun, sameRun']

/-- A settlement that gets through, and the state behind it. -/
theorem settle (inv : PaysInvariant v) (isBet : v.table.nState = stateBet) (run : Nat) {turns : List RoomEvent}
    (named : ∀ e ∈ turns, Named v.table run e) :
    PaysInvariant ⟨v.table.stateForward, [.settlementTimerOver],
      v.events ++ (turns ++ [.state v.table.nTableId v.table.stateForward.nState])⟩ where
  timers := by
    rw [Table.stateForward, isBet]
    exact List.Sublist.refl _
  rounds e member isGold := by
    rw [List.mem_append, List.mem_append, List.mem_singleton] at member
    rcases member with early | turn | same
    · exact inv.rounds e early isGold
    · obtain ⟨u, nCount, same⟩ := (named e turn).2 isGold
      rw [same]
      exact Nat.le_refl _
    · rw [same] at isGold
      exact isGold.elim
  unpaid before := by
    have settlement : v.table.stateForward.nState = stateSettlement := by
      rw [Table.stateForward, isBet]
      rfl
    simp [settlement, stateSettlement, stateFree, stateBet] at before
  once := by
    rw [← List.append_assoc]
    apply once_append
    · exact settled inv.once (inv.unpaid (Or.inr isBet)) named
    · simp [RoomEvent.IsGold]

end PaysInvariant

/-! ## Timers

A timer that raised stays pending; the invariant must hold with it still there.
-/

/-- A table that is put where it is. -/
theorem TableMap.put_of_get {m : TableMap} {t : Table} (found : m.get t.nTableId = some t) : m.put t = m := by
  obtain ⟨tables, keyed⟩ := m
  have same : Function.update tables t.nTableId (some t) = tables := by
    rw [← show tables t.nTableId = some t from found]
    exact Function.update_eq_self t.nTableId tables
  simp only [put, same]

theorem TableMap.put_put {m : TableMap} {t t' : Table} (same : t'.nTableId = t.nTableId) :
    (m.put t).put t' = m.put t' := by
  simp only [put, same, Function.update_idem]

/-- A table has one pending timer at most, that of its state. -/
theorem pending_eq {nState : Nat} {timers : List TableTimer} (isTimers : timers.Sublist (pendingIn nState))
    {callback : TableTimer} (member : callback ∈ timers) : timers = [callback] ∧ pendingIn nState = [callback] := by
  have short : (pendingIn nState).length ≤ 1 := by
    unfold pendingIn
    split <;> simp
  have some_there := List.length_pos_of_mem member
  have whole : timers = pendingIn nState := isTimers.eq_of_length_le (by omega)
  rw [whole] at member some_there ⊢
  obtain ⟨only, single⟩ := List.length_eq_one_iff.mp (Nat.le_antisymm short some_there)
  rw [single] at member ⊢
  rw [List.mem_singleton.mp member]
  exact ⟨rfl, rfl⟩

/-- The state whose timer it is. -/
def stateOf : TableTimer → Nat
  | .freeTimerOver => stateFree
  | .betTimerOver => stateBet
  | .settlementTimerOver => stateSettlement

theorem state_of_pending {nState : Nat} {callback : TableTimer} (pending : pendingIn nState = [callback]) :
    nState = stateOf callback := by
  unfold pendingIn at pending
  split at pending
  · cases pending
    rfl
  · cases pending
    rfl
  · cases pending
    rfl
  · cases pending

section Rings

variable {s : RoomState} (ok : AtTables PaysInvariant s)

include ok

/-- A pending timer has its table, which is in the state of the timer and has no other timer. -/
theorem paysInvariant_of_pending {timer : PendingTimer} (pending : timer ∈ s.timers) :
    ∃ t, s.tableMap.get timer.nTableId = some t ∧ t.nTableId = timer.nTableId ∧
      t.nState = stateOf timer.callback ∧ s.timersOf timer.nTableId = [timer.callback] ∧
      PaysInvariant ⟨t, [timer.callback], s.eventsOf timer.nTableId⟩ := by
  have member : timer.callback ∈ s.timersOf timer.nTableId :=
    List.mem_map.mpr ⟨timer, List.mem_filter.mpr ⟨pending, decide_eq_true rfl⟩, rfl⟩
  cases found : s.tableMap.get timer.nTableId with
  | none =>
      rw [((ok _).of_none found).1] at member
      exact absurd member List.not_mem_nil
  | some t =>
      have inv := (ok _).of_some found
      obtain ⟨only, its⟩ : s.timersOf timer.nTableId = [timer.callback] ∧ pendingIn t.nState = [timer.callback] :=
        pending_eq inv.timers member
      rw [only] at inv
      exact ⟨t, rfl, TableMap.nTableId_of_get found, state_of_pending its, only, inv⟩

/-- A timer whose callback has returned is taken out; its table has the timers that the callback has added. -/
theorem returned {s' : RoomState} {timer : PendingTimer} (pending : timer ∈ s.timers) {t : Table}
    (here : t.nTableId = timer.nTableId) (more : List PendingTimer) (events : List RoomEvent)
    (table : s'.tableMap = s.tableMap.put t) (timers : s'.timers = s.timers ++ more)
    (trace : s'.trace = s.trace ++ events) (moreHere : ∀ added ∈ more, added.nTableId = t.nTableId)
    (eventsHere : ∀ e ∈ events, e.nTableId = t.nTableId)
    (inv : PaysInvariant ⟨t, more.map PendingTimer.callback, s.eventsOf t.nTableId ++ events⟩) :
    AtTables PaysInvariant (s'.takeTimer timer) := by
  obtain ⟨_, -, -, -, only, -⟩ := paysInvariant_of_pending ok pending
  have none := timersOf_takeTimer_self pending only
  have rest : (s'.takeTimer timer).timers = (s.takeTimer timer).timers ++ more := by
    change s'.timers.erase timer = s.timers.erase timer ++ more
    rw [timers, List.erase_append_left _ pending]
  have tables : (s'.takeTimer timer).tableMap = (s.takeTimer timer).tableMap.put t := table
  refine atTables_of_put t more events tables rest trace moreHere eventsHere ?_ ?_
  · intro k other
    rw [here] at other
    exact ok.takeTimer other
  · rw [here, none, List.nil_append]
    rw [here] at inv
    exact inv

/-- When a callback has raised, its timer is still pending, and so it must not have moved gold. -/
theorem raised {s' : RoomState} {t : Table} (found : s.tableMap.get t.nTableId = some t)
    (table : s'.tableMap = s.tableMap) (timers : s'.timers = s.timers) {events : List RoomEvent}
    (trace : s'.trace = s.trace ++ events) (quiet : ∀ e ∈ events, Quiet t e) :
    AtTables PaysInvariant s' := by
  have inv := (ok _).of_some found
  have same : s.tableMap = s.tableMap.put t := (TableMap.put_of_get found).symm
  apply atTables_of_put t [] events (table.trans same) (timers.trans (List.append_nil _).symm) trace
  · simp
  · exact fun e member => (quiet e member).2
  · exact fun k _ => ok k
  · rw [List.map_nil, List.append_nil]
    exact inv.append (Nat.le_refl _) (fun e member => (quiet e member).1) inv.timers inv.unpaid

end Rings

section Callbacks

variable {s : RoomState} (ok : AtTables PaysInvariant s) {timer : PendingTimer} (pending : timer ∈ s.timers)
  {t : Table} (found : s.tableMap.get t.nTableId = some t) (here : t.nTableId = timer.nTableId)
  (inv : PaysInvariant ⟨t, [timer.callback], s.eventsOf t.nTableId⟩)

include ok pending found here inv

/-- The free timer moves no gold. -/
theorem freeTimerOver_pays (free : t.nState = stateFree) :
    wp (freeTimerOver cfg t.nTableId) (fun _ s' => AtTables PaysInvariant (s'.takeTimer timer))
      (AtTables PaysInvariant) s := by
  simp only [freeTimerOver, wp_bind, wp_getTable, found, setState, setTable, record, addTimer, wp_modify]
  apply returned ok pending (t := t.stateForward) here [⟨t.nTableId, .betTimerOver, cfg.betSpan⟩]
    [.state t.nTableId t.stateForward.nState]
  · rfl
  · rfl
  · rfl
  · simp [Table.stateForward]
  · simp [RoomEvent.nTableId, Table.stateForward]
  · apply inv.append
    · exact Nat.le_refl _
    · simp [RoomEvent.IsGold]
    · rw [Table.stateForward, free]
      exact List.Sublist.refl _
    · exact fun _ => inv.unpaid (Or.inl free)

/-- The bet timer settles, for all users or for none. -/
theorem betTimerOver_pays [Arithmetic] (isBet : t.nState = stateBet)
    (whole : ∀ hands, t.objShuffler.tbShufflerResult = some hands →
      SettlesWhole cfg s.pool t (handOdds cfg hands)) :
    wp (betTimerOver cfg t.nTableId) (fun _ s' => AtTables PaysInvariant (s'.takeTimer timer))
      (AtTables PaysInvariant) s := by
  simp only [betTimerOver, wp_bind]
  apply wp_mono (settlement_whole cfg found whole)
  · rintro _ s' ⟨tables, timers, turns, trace, named⟩
    have found' : s'.tableMap.get t.nTableId = some t := tables ▸ found
    simp only [wp_getTable, found', setState, setTable, record, addTimer, wp_bind, wp_modify]
    apply returned ok pending (t := t.stateForward) here [⟨t.nTableId, .settlementTimerOver, cfg.settlementSpan⟩]
      (turns ++ [.state t.nTableId t.stateForward.nState])
    · change s'.tableMap.put _ = s.tableMap.put _
      rw [tables]
    · change s'.timers ++ _ = s.timers ++ _
      rw [timers]
    · change s'.trace ++ _ = s.trace ++ _
      rw [trace, List.append_assoc]
      rfl
    · simp [Table.stateForward]
    · intro e member
      rcases List.mem_append.mp member with turn | last
      · exact (named e turn).1
      · rw [List.mem_singleton.mp last]
        rfl
    · exact inv.settle isBet s.settlements named
  · rintro s' ⟨tables, timers, events, trace, quiet⟩
    exact raised ok found tables timers trace quiet

/-- The settlement timer moves no gold. -/
theorem settlementTimerOver_pays :
    wp (settlementTimerOver cfg t.nTableId) (fun _ s' => AtTables PaysInvariant (s'.takeTimer timer))
      (AtTables PaysInvariant) s := by
  simp only [settlementTimerOver, wp_bind, wp_getTable, found, wp_ite, wp_pure]
  constructor
  · intro users
    have ended : PaysInvariant ⟨{ t with nState := stateInit }, [],
        s.eventsOf t.nTableId ++ [.state t.nTableId stateInit]⟩ := by
      apply inv.append
      · exact Nat.le_refl _
      · simp [RoomEvent.IsGold]
      · exact List.nil_sublist _
      · simp [stateInit, stateFree, stateBet]
    let started := Table.startGame { t with nState := stateInit } s.random
    have next : PaysInvariant ⟨started, [.freeTimerOver], s.eventsOf t.nTableId ++ ([.state t.nTableId stateInit] ++
        [.state t.nTableId started.nState,
          .initGame t.nTableId started.round started.objShuffler.tbShufflerResult])⟩ := by
      rw [← List.append_assoc]
      exact ended.startGame rfl s.random
    simp only [setState, setTable, record, addTimer, wp_bind, wp_modify, checkState, initGame, wp_getTable,
      TableMap.get_put, if_true, wp_get, wp_ite, wp_pure]
    constructor
    · intro _
      refine returned ok pending (t := started) here [⟨t.nTableId, .freeTimerOver, cfg.freeSpan⟩] _
        ?_ ?_ ?_ ?_ ?_ next
      · exact TableMap.put_put rfl
      · rfl
      · simp only [List.append_assoc]
        rfl
      · simp [started, Table.startGame, Table.stateForward]
      · simp [RoomEvent.nTableId, started, Table.startGame, Table.stateForward]
    · intro noUsers
      exact absurd ⟨trivial, users⟩ noUsers
  · intro _
    refine returned ok pending (t := t) here [] [] (TableMap.put_of_get found).symm (List.append_nil _).symm
      (List.append_nil _).symm ?_ ?_ ?_
    · simp
    · simp
    · rw [List.append_nil]
      exact ⟨List.nil_sublist _, inv.rounds, inv.unpaid, inv.once⟩

end Callbacks

/-- A pending timer rings. -/
theorem AtTables.ring [Arithmetic] {s s' : RoomState} (ok : AtTables PaysInvariant s) {timer : PendingTimer}
    (whole : Whole cfg s (.ring timer)) (step : tableStep cfg s (.ring timer) = some s') :
    AtTables PaysInvariant s' := by
  obtain ⟨pending, step⟩ := Option.ite_none_right_eq_some.mp step
  obtain ⟨t, found, here, state, -, inv⟩ := paysInvariant_of_pending ok pending
  have rings : wp (timerOver cfg timer.callback timer.nTableId)
      (fun _ s' => AtTables PaysInvariant (s'.takeTimer timer)) (AtTables PaysInvariant) s := by
    have inWhole := whole
    rw [← here] at found inv ⊢
    obtain ⟨nTableId, callback, span⟩ := timer
    cases callback with
    | freeTimerOver => exact freeTimerOver_pays cfg ok pending found here inv state
    | betTimerOver =>
        subst here
        exact betTimerOver_pays cfg ok pending found rfl inv state (whole t found)
    | settlementTimerOver => exact settlementTimerOver_pays cfg ok pending found here inv
  unfold wp at rings
  cases result : exec (timerOver cfg timer.callback timer.nTableId) s with
  | mk value s₁ =>
      rw [result] at step rings
      cases value with
      | ok _ =>
          cases step
          exact rings
      | error _ =>
          cases step
          exact rings

/-! ## Runs

As long as no settlement stops halfway, nobody is paid twice for a round.
-/

/-- What holds between the calls of a run. -/
structure PayingRoom (s : RoomState) : Prop where
  tables : AtTables PaysInvariant s
  mapped : MappedSeated s
  fresh : IdsFresh s

/-- The start. -/
theorem payingRoom_ctor (idRandom random : Nat → Nat) : PayingRoom (.ctor idRandom random) where
  tables _ := ⟨rfl, rfl⟩
  mapped _ _ isMapped := absurd isMapped (by simp [RoomState.ctor])
  fresh := idsFresh_ctor idRandom random

/-- The step lemma. -/
theorem PayingRoom.step [Arithmetic] {s s' : RoomState} {call : TableCall} (room : PayingRoom s) (whole : Whole cfg s call)
    (step : tableStep cfg s call = some s') : PayingRoom s' := by
  cases call with
  | enter c =>
      cases step
      exact ⟨wp_same.mp (room.tables.clientEnterRoom cfg PaysInvariant.keptByPlay room.fresh c.objUser c.nHandlerId
        c.nGameType c.nRoomId), room.mapped.enter cfg room.fresh c, room.fresh.enter cfg c⟩
  | sitDown objUser id =>
      cases step
      obtain ⟨mapped, fresh⟩ := joinTable_seated cfg room.mapped room.fresh objUser id
      exact ⟨wp_same.mp (room.tables.joinTable cfg PaysInvariant.keptByPlay objUser id), mapped, fresh⟩
  | bet u position bet =>
      cases step
      have keeps := wp_same.mp (clientBet_keeps cfg u position bet s)
      exact ⟨wp_same.mp (room.tables.clientBet cfg PaysInvariant.keptByPlay room.mapped u position bet),
        room.mapped.keeps keeps, room.fresh.keeps keeps⟩
  | users pool =>
      cases step
      have keeps : RoomKeeps s { s with pool := pool } := .of_eq rfl rfl rfl rfl
      exact ⟨room.tables.of_eq rfl rfl rfl, room.mapped.keeps keeps, room.fresh.keeps keeps⟩
  | ring timer =>
      have tables := room.tables.ring cfg whole step
      have keeps := ring_keeps cfg step
      exact ⟨tables, room.mapped.keeps keeps, room.fresh.keeps keeps⟩

/-- In every run whose settlements move the gold of all their users or of nobody, each round pays once. -/
theorem paysOnce_of_whole [Arithmetic] (idRandom random : Nat → Nat) {calls : List TableCall} {s : RoomState}
    (run : runSteps (tableStep cfg) (.ctor idRandom random) calls = some s)
    (whole : Guarded (tableStep cfg) (Whole cfg) (.ctor idRandom random) calls) : PaysOnce s.trace := by
  have room : PayingRoom s := guarded_invariant (fun _ _ _ room guard step => room.step cfg guard step)
    (payingRoom_ctor idRandom random) whole run
  intro nTableId round run run' nUserId nCount nCount' first second
  have here : ∀ e ∈ s.trace, e.nTableId = nTableId → e ∈ s.eventsOf nTableId := fun e member atTable =>
    List.mem_filter.mpr ⟨member, decide_eq_true atTable⟩
  have first := here _ first rfl
  have second := here _ second rfl
  cases found : s.tableMap.get nTableId with
  | none =>
      rw [((room.tables nTableId).of_none found).2] at first
      exact absurd first List.not_mem_nil
  | some t =>
      have once := ((room.tables nTableId).of_some found).once
      exact once nTableId round run run' nUserId nCount nCount' first second

open scoped DoubleArithmetic

/-- Two users sit at one table and bet on the first hand. -/
def twoBets : List TableCall :=
  [.enter firstEntry, .sitDown ⟨2, 100, false⟩ 100000, .ring ⟨100000, .freeTimerOver, 1⟩, .bet 1 1 5, .bet 2 1 5]

theorem exists_of_recorded (calls : List TableCall) (events : List RoomEvent)
    (recorded : (runSteps (tableStep plainConfig) (.ctor (fun _ => 0) fun _ => 0) calls).any
      (fun s => decide (∀ e ∈ events, e ∈ s.trace)) = true) :
    ∃ s, runSteps (tableStep plainConfig) (.ctor (fun _ => 0) fun _ => 0) calls = some s ∧
      ∀ e ∈ events, e ∈ s.trace := by
  obtain ⟨s, run, holds⟩ := (Option.any_eq_true _ _).mp recorded
  exact ⟨s, run, of_decide_eq_true holds⟩

/-- Both are there when the timer rings, and the next round begins. -/
theorem paysOnce_of_whole_example :
    ∃ s, runSteps (tableStep plainConfig) (.ctor (fun _ => 0) fun _ => 0)
        (twoBets ++ [.ring ⟨100000, .betTimerOver, 1⟩, .ring ⟨100000, .settlementTimerOver, 1⟩]) = some s ∧
      (∀ e ∈ [RoomEvent.gold 100000 1 0 1 5, .gold 100000 1 0 2 5], e ∈ s.trace) ∧ PaysOnce s.trace := by
  obtain ⟨s, run, paid⟩ := exists_of_recorded
    (twoBets ++ [.ring ⟨100000, .betTimerOver, 1⟩, .ring ⟨100000, .settlementTimerOver, 1⟩])
    [.gold 100000 1 0 1 5, .gold 100000 1 0 2 5] (by decide +kernel)
  exact ⟨s, run, paid, paysOnce_of_whole plainConfig _ _ run (by decide +kernel)⟩

/-- The second user has left when the timer rings: the first is paid, the loop raises, and the timer rings again. -/
theorem paid_by_every_ring :
    ¬ ∀ (cfg : RoomConfig) (idRandom random : Nat → Nat) (calls : List TableCall) (s : RoomState),
      runSteps (tableStep cfg) (.ctor idRandom random) calls = some s → PaysOnce s.trace := by
  intro claim
  obtain ⟨s, run, paid⟩ := exists_of_recorded
    (twoBets ++ [.users (UserPool.empty.cacheUserObject ⟨1, 100, false⟩), .ring ⟨100000, .betTimerOver, 1⟩,
      .ring ⟨100000, .betTimerOver, 1⟩])
    [.gold 100000 1 0 1 5, .gold 100000 1 1 1 5] (by decide +kernel)
  have first := paid (.gold 100000 1 0 1 5) List.mem_cons_self
  have second := paid (.gold 100000 1 1 1 5) (List.mem_cons_of_mem _ List.mem_cons_self)
  have same := claim plainConfig _ _ _ s run 100000 1 0 1 1 5 5 first second
  cases same

end GameServer.Room
