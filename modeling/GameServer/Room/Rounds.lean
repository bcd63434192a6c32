/-
Module: GameServer.Room.Rounds
Purpose: The rounds of one bull-fighting table: its states and timers, its hands, and where its bets go,
  as a law about the table, its pending timers and what happened at it.
Trusted boundary: none
Main exports: TableView, RoundLaw, RoundInvariant and what keeps it
-/
import GameServer.Lib.Runs
import GameServer.Room.RoomManager

namespace GameServer.Room

open Lib
open Arithmetic (rounding)

/-! ## What happened at a table

Bets, deals and settlements are counted from the events that the room recorded, by the round that each belongs to. The
lemmas say what one event adds to each count.
-/

namespace RoomEvent

/-- The table an event is about. -/
def nTableId : RoomEvent → Nat
  | state nTableId _ => nTableId
  | initGame nTableId _ _ => nTableId
  | bet nTableId _ _ _ _ => nTableId
  | settlement nTableId _ _ _ => nTableId
  | counted nTableId _ _ _ _ => nTableId
  | gold nTableId _ _ _ _ => nTableId

/-- The round an event belongs to. -/
def round : RoomEvent → Nat
  | state _ _ => 0
  | initGame _ round _ => round
  | bet _ round _ _ _ => round
  | settlement _ round _ _ => round
  | counted _ round _ _ _ => round
  | gold _ round _ _ _ => round

/-- The event is a movement of gold. -/
def IsGold : RoomEvent → Prop
  | gold _ _ _ _ _ => True
  | _ => False

/-- The event is of a turn of a settlement: it counts the bets of a seat, or moves gold. -/
def IsTurn : RoomEvent → Prop
  | counted _ _ _ _ _ | gold _ _ _ _ _ => True
  | _ => False

end RoomEvent

section Projections

variable (events : List RoomEvent)

/-- The states the table was set to, after the one it was made with. -/
def states : List Nat :=
  events.filterMap fun
    | .state _ nState => some nState
    | _ => none

/-- The state the table was set to last. -/
def lastState : Nat := (states events).getLast?.getD stateInit

/-- The hands that `InitGame` dealt for a round. -/
def handsOf (round : Nat) : List (Option (List (List Nat))) :=
  events.filterMap fun
    | .initGame _ r hands => if r = round then some hands else none
    | _ => none

/-- The settlements of a round, with the hands that each found. -/
def settlementsOf (round : Nat) : List (Nat × List (List Nat)) :=
  events.filterMap fun
    | .settlement _ r run hands => if r = round then some (run, hands) else none
    | _ => none

/-- The bets of a user that settlements of a round went through, with the settlement. -/
def countedOf (round : Nat) (nUserId : Int) : List (Nat × List ℚ) :=
  events.filterMap fun
    | .counted _ r run u tbUserBet => if r = round ∧ u = nUserId then some (run, tbUserBet) else none
    | _ => none

/-- The bets of a user on a position in a round. -/
def betsOf (round : Nat) (nUserId nPosition : Int) : List ℚ :=
  events.filterMap fun
    | .bet _ r u p nBet => if r = round ∧ u = nUserId ∧ p = nPosition then some nBet else none
    | _ => none

/-- What a user has bet on a position in a round, with the bets added one after the other. -/
def betSum [Arithmetic] (round : Nat) (nUserId nPosition : Int) : ℚ :=
  (betsOf events round nUserId nPosition).foldl rounding.add 0

variable (more : List RoomEvent)

@[simp] theorem states_append : states (events ++ more) = states events ++ states more := by
  simp [states]

@[simp] theorem handsOf_append (round : Nat) :
    handsOf (events ++ more) round = handsOf events round ++ handsOf more round := by
  simp [handsOf]

@[simp] theorem settlementsOf_append (round : Nat) :
    settlementsOf (events ++ more) round = settlementsOf events round ++ settlementsOf more round := by
  simp [settlementsOf]

@[simp] theorem countedOf_append (round : Nat) (u : Int) :
    countedOf (events ++ more) round u = countedOf events round u ++ countedOf more round u := by
  simp [countedOf]

@[simp] theorem betsOf_append (round : Nat) (u p : Int) :
    betsOf (events ++ more) round u p = betsOf events round u p ++ betsOf more round u p := by
  simp [betsOf]

section Events

variable (id r n round : Nat) (u p : Int) (hands : Option (List (List Nat))) (nBet : ℚ)

@[simp] theorem handsOf_state : handsOf [.state id n] round = [] := rfl

@[simp] theorem handsOf_bet : handsOf [.bet id r u p nBet] round = [] := rfl

@[simp] theorem settlementsOf_state : settlementsOf [.state id n] round = [] := rfl

@[simp] theorem settlementsOf_bet : settlementsOf [.bet id r u p nBet] round = [] := rfl

@[simp] theorem betsOf_state : betsOf [.state id n] round u p = [] := rfl

@[simp] theorem countedOf_state : countedOf [.state id n] round u = [] := rfl

@[simp] theorem countedOf_bet (v : Int) : countedOf [.bet id r v p nBet] round u = [] := rfl

@[simp] theorem handsOf_settlement (run : Nat) (found : List (List Nat)) :
    handsOf [.settlement id r run found] round = [] := rfl

@[simp] theorem countedOf_settlement (run : Nat) (found : List (List Nat)) :
    countedOf [.settlement id r run found] round u = [] := rfl

@[simp] theorem betsOf_settlement (run : Nat) (found : List (List Nat)) :
    betsOf [.settlement id r run found] round u p = [] := rfl

theorem betsOf_bet (v q : Int) :
    betsOf [.bet id r u p nBet] round v q = if r = round ∧ u = v ∧ p = q then [nBet] else [] := by
  by_cases same : r = round ∧ u = v ∧ p = q
  · simp [betsOf, same]
  · simp [betsOf, same]

@[simp] theorem states_settlement (run : Nat) (found : List (List Nat)) :
    states [.settlement id r run found] = [] := rfl

@[simp] theorem states_state : states [.state id n] = [n] := rfl

theorem settlementsOf_settlement (run : Nat) (found : List (List Nat)) :
    settlementsOf [.settlement id r run found] round = if round = r then [(run, found)] else [] := by
  by_cases same : r = round
  · simp [settlementsOf, same]
  · simp [settlementsOf, same, Ne.symm same]

@[simp] theorem states_bet : states [.bet id r u p nBet] = [] := rfl

end Events

variable {events} {more}

/-- Nothing is known of a round that did not begin yet. -/
theorem handsOf_of_lt {round : Nat} (before : ∀ e ∈ events, e.round < round) :
    handsOf events round = [] := by
  apply List.filterMap_eq_nil_iff.mpr
  intro e member
  cases e with
  | initGame id r hands =>
      have different : r ≠ round := Nat.ne_of_lt (before _ member)
      simp [different]
  | _ => rfl

/-- A round that has not begun has no settlement. -/
theorem settlementsOf_of_lt {round : Nat} (before : ∀ e ∈ events, e.round < round) :
    settlementsOf events round = [] := by
  apply List.filterMap_eq_nil_iff.mpr
  intro e member
  cases e with
  | settlement id r run hands =>
      have different : r ≠ round := Nat.ne_of_lt (before _ member)
      simp [different]
  | _ => rfl

/-- Nothing is counted in a round that none of the events belongs to. -/
theorem countedOf_of_ne {round : Nat} (others : ∀ e ∈ events, e.round ≠ round) (u : Int) :
    countedOf events round u = [] := by
  apply List.filterMap_eq_nil_iff.mpr
  intro e member
  cases e with
  | counted id r run u' tbUserBet =>
      have different : r ≠ round := others _ member
      simp [different]
  | _ => rfl

/-- A round that has not begun has no bets. -/
theorem betsOf_of_lt {round : Nat} (before : ∀ e ∈ events, e.round < round) (u p : Int) :
    betsOf events round u p = [] := by
  apply List.filterMap_eq_nil_iff.mpr
  intro e member
  cases e with
  | bet id r u' p' nBet =>
      have different : r ≠ round := Nat.ne_of_lt (before _ member)
      simp [different]
  | _ => rfl

/-- The turns of a settlement are in none of the other projections. -/
theorem projections_of_turns (turns : ∀ e ∈ events, e.IsTurn) (round : Nat) (u p : Int) :
    states events = [] ∧ handsOf events round = [] ∧ settlementsOf events round = [] ∧
      betsOf events round u p = [] := by
  induction events with
  | nil => simp [states, handsOf, settlementsOf, betsOf]
  | cons e events ih =>
      have rest := ih fun e' member => turns e' (List.mem_cons_of_mem _ member)
      have isTurn := turns e List.mem_cons_self
      cases e with
      | counted id r run u' tbUserBet => exact rest
      | gold id r run u' nCount => exact rest
      | _ => exact isTurn.elim

/-- Events without bets add nothing to a sum. -/
theorem betSum_of_noBets [Arithmetic] {round : Nat} {u p : Int} (noBets : betsOf more round u p = []) :
    betSum (events ++ more) round u p = betSum events round u p := by
  rw [betSum, betsOf_append, noBets, List.append_nil, betSum]

/-- A bet is added to what was bet before it. -/
theorem betSum_bet [Arithmetic] (id r round : Nat) (u p v q : Int) (nBet : ℚ) :
    betSum (events ++ [.bet id r u p nBet]) round v q =
      if r = round ∧ u = v ∧ p = q then rounding.add (betSum events round v q) nBet else betSum events round v q := by
  rw [betSum, betsOf_append, betsOf_bet, List.foldl_append, betSum]
  split <;> rfl

end Projections

/-! ## The law of rounds

A table goes through free, bet and settlement, and what it does in a round is allowed only in the state for it. The
invariant adds what this rests on: the timer that is pending is the one of the state the table is in.
-/

/-- A table, the callbacks of its pending timers, and what happened at it. -/
structure TableView where
  table : Table
  timers : List TableTimer
  events : List RoomEvent

/-- The timers a table has in a state. -/
def pendingIn : Nat → List TableTimer
  | 1 => [.freeTimerOver]
  | 2 => [.betTimerOver]
  | 3 => [.settlementTimerOver]
  | _ => []

/-- A bet is marked only when the table was set to state BET last. -/
def BetState (events : List RoomEvent) : Prop :=
  ∀ before id round u p nBet after, events = before ++ .bet id round u p nBet :: after →
    lastState before = stateBet

/-- The law of rounds of a table.

A table in state INIT has no timer, and in the other states the one of its state.  Each state follows the
one before it in the cycle.  The hands stay as they were dealt until the next game begins, and a
settlement finds the five hands of its round.  Bets are marked in state BET only, and the table knows
their sums.  A bet waits in its round, for which nothing was counted yet, or the one settlement of its round went
through the bets of its user, which have it in the sum of its position, and no other settlement did; where nobody has
two seats, it did so once. -/
structure RoundLaw [Arithmetic] (v : TableView) : Prop where
  state : v.table.nState ≤ stateSettlement
  timers : v.timers = pendingIn v.table.nState
  current : lastState v.events = v.table.nState
  cycle : (stateInit :: states v.events).IsChain fun before after => after = (before + 1) % 4
  hands : v.table.nState ≠ stateInit → ∃ hands, v.table.objShuffler.tbShufflerResult = some hands ∧
    hands.length = 5 ∧ handsOf v.events v.table.round = [some hands]
  settledHands : ∀ round run hands, (run, hands) ∈ settlementsOf v.events round →
    hands.length = 5 ∧ handsOf v.events round = [some hands]
  betState : BetState v.events
  marked : ∀ u p, 0 < p → p ≤ 4 →
    ((v.table.tbUserBet u).getD [0, 0, 0, 0]).getD (p.toNat - 1) 0 = betSum v.events v.table.round u p
  settled : ∀ id round u p nBet, .bet id round u p nBet ∈ v.events →
    (round = v.table.round ∧ v.table.nState = stateBet ∧ settlementsOf v.events round = [] ∧
      countedOf v.events round u = []) ∨
      ∃ run hands b, settlementsOf v.events round = [(run, hands)] ∧ countedOf v.events round u ≠ [] ∧
        (∀ entry ∈ countedOf v.events round u, entry = (run, b)) ∧
        b.getD (p.toNat - 1) 0 = betSum v.events round u p
  countedOnce : v.table.tbSeatUser.Nodup → ∀ round u, (countedOf v.events round u).length ≤ 1

/-- `MarkBet` adds to the record of one user at one place. -/
theorem Table.markBet_eq [Arithmetic] {t t' : Table} {u p : Int} {nBet : ℚ} (low : 0 < p) (high : p ≤ 4)
    (marked : t.markBet u p nBet = some t') :
    ∃ tbPlayerBet, t' =
      { t with
        tbPlayerBet := tbPlayerBet
        tbUserBet := Function.update t.tbUserBet u
          (some (((t.tbUserBet u).getD [0, 0, 0, 0]).set (p.toNat - 1)
            (rounding.add (((t.tbUserBet u).getD [0, 0, 0, 0]).getD (p.toNat - 1) 0) nBet))) } := by
  unfold Table.markBet at marked
  rw [if_pos ⟨low, high⟩] at marked
  dsimp only at marked
  split at marked
  · exact absurd marked (by simp)
  · exact ⟨_, (Option.some.inj marked).symm⟩

/-- The law, and what it rests on. -/
structure RoundInvariant [Arithmetic] (v : TableView) : Prop extends RoundLaw v where
  seated : v.table.nState ≠ stateInit → v.table.tbSeatUser ≠ []
  pack : v.table.objShuffler.tbGameCard.length = 52
  rounds : ∀ e ∈ v.events, e.round ≤ v.table.round
  fourBets : ∀ u b, v.table.tbUserBet u = some b → b.length = 4
  bettors : ∀ id round u p nBet, .bet id round u p nBet ∈ v.events →
    u ∈ v.table.tbSeatUser ∧ 0 < p ∧ p ≤ 4 ∧ (round = v.table.round → v.table.tbUserBet u ≠ none)
  noBetYet : v.table.nState = stateFree → ∀ id u p nBet,
    .bet id v.table.round u p nBet ∉ v.events
  unsettled : v.table.nState = stateFree ∨ v.table.nState = stateBet →
    settlementsOf v.events v.table.round = [] ∧ ∀ u, countedOf v.events v.table.round u = []

/-! ## Longer histories

How the law's clauses about the history read when one event, or the turns of one settlement, are put behind it.
-/

section Snoc

variable {events : List RoomEvent} {e : RoomEvent}

/-- A bet behind the history is allowed in the bet state only. -/
theorem BetState.snoc (inBet : BetState events)
    (last : ∀ id round u p nBet, e = .bet id round u p nBet → lastState events = stateBet) :
    BetState (events ++ [e]) := by
  intro before id round u p nBet after split
  rcases Lib.append_singleton_split split with ⟨-, rfl, isBet⟩ | ⟨rest, -, earlier⟩
  · exact last id round u p nBet isBet
  · exact inBet before id round u p nBet rest earlier

/-- The turns of a settlement hold no bets. -/
theorem BetState.append_turns {more : List RoomEvent} (inBet : BetState events)
    (turns : ∀ e ∈ more, e.IsTurn) : BetState (events ++ more) := by
  induction more generalizing events with
  | nil => simpa using inBet
  | cons e more ih =>
      have first : BetState (events ++ [e]) := by
        apply inBet.snoc
        rintro id round u p nBet rfl
        exact (turns _ List.mem_cons_self).elim
      have rest := ih first fun e' member => turns e' (List.mem_cons_of_mem _ member)
      rwa [List.append_assoc, List.singleton_append] at rest

theorem lastState_state (id nState : Nat) : lastState (events ++ [.state id nState]) = nState := by
  simp [lastState, states]

/-- Events that set no state leave the last one. -/
theorem lastState_of_states {more : List RoomEvent} (same : states more = []) :
    lastState (events ++ more) = lastState events := by
  simp [lastState, same]

/-- The next state of the cycle. -/
theorem cycle_snoc {l : List Nat} {nState : Nat}
    (cycle : (stateInit :: l).IsChain fun before after => after = (before + 1) % 4)
    (next : nState = (l.getLast?.getD stateInit + 1) % 4) :
    (stateInit :: (l ++ [nState])).IsChain fun before after => after = (before + 1) % 4 := by
  rw [← List.cons_append]
  apply List.isChain_append.mpr
  refine ⟨cycle, List.isChain_singleton _, ?_⟩
  intro before last after first
  simp only [List.head?_cons, Option.mem_def, Option.some.injEq] at first
  rw [List.getLast?_cons] at last
  rw [← first, next, Option.some.inj last]

end Snoc

/-! ## What keeps the invariant

One lemma for each thing that can happen at a table: a seat taken, a round begun, a state set, a bet, and the three
timers.
-/

namespace RoundInvariant

variable [Arithmetic] {v : TableView}

/-- A new table. -/
theorem ofRoom (id : Nat) (nGameType nRoomId : Int) :
    RoundInvariant ⟨.ofRoom id nGameType nRoomId, [], []⟩ where
  state := Nat.zero_le _
  timers := rfl
  current := rfl
  cycle := List.isChain_singleton _
  hands started := absurd rfl started
  settledHands _ _ _ member := absurd member List.not_mem_nil
  betState before _ _ _ _ _ after split := absurd split (by simp)
  marked u p low high := by
    have range : p.toNat - 1 < 4 := by omega
    interval_cases p.toNat - 1 <;> rfl
  settled _ _ _ _ _ member := absurd member List.not_mem_nil
  countedOnce _ _ _ := Nat.zero_le _
  seated started := absurd rfl started
  pack := rfl
  rounds _ member := absurd member List.not_mem_nil
  fourBets _ _ none := absurd none (by simp [Table.ofRoom, Table.new])
  bettors _ _ _ _ _ member := absurd member List.not_mem_nil
  noBetYet free := absurd (show stateInit = stateFree from free) (by decide)
  unsettled _ := ⟨rfl, fun _ => rfl⟩

/-- A seat that is taken changes nothing that the invariant speaks of. -/
theorem sitDown (inv : RoundInvariant v) (u : Int) :
    RoundInvariant { v with table := v.table.sitDown u } where
  state := inv.state
  timers := inv.timers
  current := inv.current
  cycle := inv.cycle
  hands := inv.hands
  settledHands := inv.settledHands
  betState := inv.betState
  marked := inv.marked
  settled := inv.settled
  countedOnce once := inv.countedOnce (List.Nodup.of_append_left once)
  seated _ := by simp [Table.sitDown]
  pack := inv.pack
  rounds := inv.rounds
  fourBets := inv.fourBets
  bettors id round u' p nBet member := by
    obtain ⟨seated, rest⟩ := inv.bettors id round u' p nBet member
    exact ⟨List.mem_append_left _ seated, rest⟩
  noBetYet := inv.noBetYet
  unsettled := inv.unsettled

/-- All that happened belongs to rounds before the next one. -/
theorem before_next (inv : RoundInvariant v) : ∀ e ∈ v.events, e.round < v.table.round + 1 :=
  fun e member => Nat.lt_succ_of_le (inv.rounds e member)

/-- `InitGame` of a table in state INIT with a user. -/
theorem startGame (inv : RoundInvariant v) (init : v.table.nState = stateInit)
    (users : v.table.tbSeatUser ≠ []) (random : Nat → Nat) :
    RoundInvariant
      { table := v.table.startGame random
        timers := v.timers ++ [.freeTimerOver]
        events := v.events ++
          [.state v.table.nTableId (v.table.startGame random).nState,
            .initGame v.table.nTableId (v.table.startGame random).round
              (v.table.startGame random).objShuffler.tbShufflerResult] } := by
  have free : (v.table.startGame random).nState = stateFree := by
    simp [Table.startGame, Table.stateForward, init, stateInit, stateFree]
  have noTimer : v.timers = [] := by
    rw [inv.timers, init]
    rfl
  have notBet : v.table.nState ≠ stateBet := by
    rw [init]
    decide
  obtain ⟨pack, hands, dealt, five⟩ := BullFightingShuffler.shuffle_spec random
    (s := v.table.objShuffler) (show 0 < Table.nTotalHand by decide)
    (show 0 < Table.nSingleHand by decide) (by rw [inv.pack]; decide)
  have result : (v.table.startGame random).objShuffler.tbShufflerResult = some hands := dealt
  rw [result, free]
  constructor
  · constructor
    · change (v.table.startGame random).nState ≤ stateSettlement
      rw [free]
      decide
    · change v.timers ++ [TableTimer.freeTimerOver] = pendingIn (v.table.startGame random).nState
      rw [free, noTimer]
      rfl
    · change lastState (v.events ++ [.state _ stateFree, .initGame _ _ _]) =
        (v.table.startGame random).nState
      rw [free]
      simp [lastState, states]
    · simp only [states_append]
      apply cycle_snoc inv.cycle
      change stateFree = (lastState v.events + 1) % 4
      rw [inv.current, init]
      rfl
    · intro _
      refine ⟨hands, result, five, ?_⟩
      change handsOf _ (v.table.round + 1) = _
      rw [handsOf_append, handsOf_of_lt inv.before_next]
      simp [handsOf, Table.startGame]
    · intro round run hands' member
      have before : (run, hands') ∈ settlementsOf v.events round := by
        simpa [settlementsOf] using member
      obtain ⟨five', dealt'⟩ := inv.settledHands round run hands' before
      have notNext : round ≠ v.table.round + 1 := by
        rintro rfl
        rw [handsOf_of_lt inv.before_next] at dealt'
        exact absurd dealt' (by simp)
      have other : handsOf [.state v.table.nTableId stateFree, .initGame v.table.nTableId
          (v.table.startGame random).round (some hands)] round = [] := by
        simp [handsOf, Table.startGame, Table.stateForward, Ne.symm notNext]
      refine ⟨five', ?_⟩
      rw [handsOf_append, dealt', other, List.append_nil]
    · have first := inv.betState.snoc (e := .state v.table.nTableId stateFree) (by simp)
      have second := first.snoc
        (e := .initGame v.table.nTableId (v.table.startGame random).round (some hands)) (by simp)
      rwa [List.append_assoc] at second
    · intro u p low high
      change (([0, 0, 0, 0] : List ℚ)).getD (p.toNat - 1) 0 = betSum _ (v.table.round + 1) u p
      rw [betSum, betsOf_append, betsOf_of_lt inv.before_next]
      have range : p.toNat - 1 < 4 := by omega
      interval_cases p.toNat - 1 <;> rfl
    · intro id round u p nBet member
      have before : .bet id round u p nBet ∈ v.events := by simpa using member
      rcases inv.settled id round u p nBet before with ⟨-, isBet, -⟩ | settled
      · exact absurd isBet notBet
      · right
        simpa [settlementsOf, countedOf, betSum, betsOf] using settled
    · intro once round u
      simpa [countedOf] using inv.countedOnce once round u
  · intro _
    exact users
  · exact pack.trans inv.pack
  · intro e member
    rcases List.mem_append.mp member with before | new
    · exact Nat.le_of_lt (inv.before_next e before)
    · simp only [List.mem_cons, List.not_mem_nil, or_false] at new
      rcases new with rfl | rfl
      · exact Nat.zero_le _
      · exact Nat.le_refl _
  · intro u b none
    exact absurd none (by simp [Table.startGame])
  · intro id round u p nBet member
    have before : .bet id round u p nBet ∈ v.events := by simpa using member
    obtain ⟨seated, low, high, -⟩ := inv.bettors id round u p nBet before
    have notNext : round ≠ v.table.round + 1 := Nat.ne_of_lt (inv.before_next _ before)
    exact ⟨seated, low, high, fun next => absurd next notNext⟩
  · intro _ id u p nBet member
    have before : .bet id (v.table.startGame random).round u p nBet ∈ v.events := by simpa using member
    exact absurd (inv.before_next _ before) (Nat.lt_irrefl _)
  · intro _
    refine ⟨?_, fun u => ?_⟩
    · change settlementsOf _ (v.table.round + 1) = []
      rw [settlementsOf_append, settlementsOf_of_lt inv.before_next]
      rfl
    · change countedOf _ (v.table.round + 1) u = []
      rw [countedOf_append, countedOf_of_ne fun e member => Nat.ne_of_lt (inv.before_next e member)]
      rfl

/-- The pending timer tells the state. -/
theorem state_of_timer (inv : RoundInvariant v) {callback : TableTimer} (pending : v.timers = [callback]) :
    v.table.nState = match callback with
      | .freeTimerOver => stateFree
      | .betTimerOver => stateBet
      | .settlementTimerOver => stateSettlement := by
  have state := inv.state
  have timers := inv.timers.symm.trans pending
  unfold stateSettlement at state
  interval_cases h : v.table.nState <;> cases callback <;> simp_all [pendingIn] <;> rfl

/-- The states in which no bet can be waiting are left for the next one, whose timer is added. -/
theorem setState (inv : RoundInvariant v)
    (before : v.table.nState = stateFree ∨ v.table.nState = stateSettlement) {nState : Nat}
    (next : nState = (v.table.nState + 1) % 4) :
    RoundInvariant
      { table := { v.table with nState := nState }
        timers := pendingIn nState
        events := v.events ++ [.state v.table.nTableId nState] } := by
  have started : v.table.nState ≠ stateInit := by
    rcases before with free | settlement
    · rw [free]
      decide
    · rw [settlement]
      decide
  have noWaiting : v.table.nState ≠ stateBet := by
    rcases before with free | settlement
    · rw [free]
      decide
    · rw [settlement]
      decide
  constructor
  · constructor
    · change nState ≤ stateSettlement
      rw [next]
      exact Nat.le_of_lt_succ (Nat.mod_lt _ (by decide))
    · rfl
    · exact lastState_state _ _
    · simp only [states_append]
      apply cycle_snoc inv.cycle
      change nState = (lastState v.events + 1) % 4
      rw [inv.current, next]
    · intro _
      simpa using inv.hands started
    · intro round run hands member
      simpa using inv.settledHands round run hands (by simpa using member)
    · exact inv.betState.snoc (by simp)
    · intro u p low high
      rw [betSum_of_noBets (betsOf_state ..)]
      exact inv.marked u p low high
    · intro id round u p nBet member
      have happened : .bet id round u p nBet ∈ v.events := by simpa using member
      rcases inv.settled id round u p nBet happened with ⟨-, isBet, -⟩ | settled
      · exact absurd isBet noWaiting
      · right
        rw [betSum_of_noBets (betsOf_state ..)]
        simpa using settled
    · intro once round u
      simpa using inv.countedOnce once round u
  · intro _
    exact inv.seated started
  · exact inv.pack
  · intro e member
    rcases List.mem_append.mp member with happened | new
    · exact inv.rounds e happened
    · rw [List.mem_singleton.mp new]
      exact Nat.zero_le _
  · exact inv.fourBets
  · intro id round u p nBet member
    exact inv.bettors id round u p nBet (by simpa using member)
  · intro isFree
    have free : nState = stateFree := isFree
    rcases before with was | was <;> rw [was, free] at next <;> exact absurd next (by decide)
  · intro waiting
    have isOpen : nState = stateFree ∨ nState = stateBet := waiting
    simp only [settlementsOf_append, settlementsOf_state, countedOf_append, countedOf_state, List.append_nil]
    rcases before with free | settlement
    · exact inv.unsettled (Or.inl free)
    · rw [next, settlement] at isOpen
      exact absurd isOpen (by decide)

/-- `MarkBet` of a user with a seat, in state BET. -/
theorem markBet (inv : RoundInvariant v) (isBet : v.table.nState = stateBet) {u p : Int} {nBet : ℚ}
    (seat : u ∈ v.table.tbSeatUser) (low : 0 < p) (high : p ≤ 4) {t : Table}
    (marked : v.table.markBet u p nBet = some t) :
    RoundInvariant
      { table := t
        timers := v.timers
        events := v.events ++ [.bet v.table.nTableId v.table.round u p nBet] } := by
  obtain ⟨tbPlayerBet, rfl⟩ := Table.markBet_eq low high marked
  obtain ⟨unsettled, uncounted⟩ := inv.unsettled (Or.inr isBet)
  have four : ((v.table.tbUserBet u).getD [0, 0, 0, 0]).length = 4 := by
    cases found : v.table.tbUserBet u with
    | none => rfl
    | some b => exact inv.fourBets u b found
  constructor
  · constructor
    · exact inv.state
    · exact inv.timers
    · rw [lastState_of_states (states_bet ..)]
      exact inv.current
    · simpa using inv.cycle
    · simpa using inv.hands
    · intro round run hands member
      simpa using inv.settledHands round run hands (by simpa using member)
    · apply inv.betState.snoc
      intro _ _ _ _ _ _
      exact inv.current.trans isBet
    · intro u' p' low' high'
      have before := inv.marked u' p' low' high'
      rw [betSum_bet, ← before]
      by_cases sameUser : u' = u
      · subst sameUser
        by_cases samePlace : p' = p
        · subst samePlace
          have inside : p'.toNat - 1 < ((v.table.tbUserBet u').getD [0, 0, 0, 0]).length := by omega
          simp [inside]
        · have other : p.toNat - 1 ≠ p'.toNat - 1 := by omega
          simp [other, Ne.symm samePlace]
      · simp [sameUser, Ne.symm sameUser]
    · intro id round u' p' nBet' member
      rcases List.mem_append.mp member with happened | new
      · rcases inv.settled id round u' p' nBet' happened with ⟨now, -, none⟩ | settled
        · exact Or.inl ⟨now, isBet, by simpa using none⟩
        · right
          obtain ⟨run, hands, b, once, isCounted, rest, sum⟩ := settled
          have notNow : round ≠ v.table.round := by
            rintro rfl
            rw [unsettled] at once
            exact absurd once (by simp)
          refine ⟨run, hands, b, by simpa using once, by simpa using isCounted, by simpa using rest, ?_⟩
          rw [sum, betSum_bet, if_neg fun same => notNow same.1.symm]
      · cases List.mem_singleton.mp new
        exact Or.inl ⟨rfl, isBet, by simpa using unsettled, by simpa using uncounted _⟩
    · intro once round u'
      simpa using inv.countedOnce once round u'
  · exact inv.seated
  · exact inv.pack
  · intro e member
    rcases List.mem_append.mp member with happened | new
    · exact inv.rounds e happened
    · rw [List.mem_singleton.mp new]
      exact Nat.le_refl _
  · intro u' b found
    by_cases same : u' = u
    · subst same
      simp only [Function.update_self, Option.some.injEq] at found
      rw [← found, List.length_set, four]
    · simp only [Function.update_of_ne same] at found
      exact inv.fourBets u' b found
  · intro id round u' p' nBet' member
    rcases List.mem_append.mp member with happened | new
    · obtain ⟨seated, low', high', hasBet⟩ := inv.bettors id round u' p' nBet' happened
      refine ⟨seated, low', high', fun now => ?_⟩
      by_cases same : u' = u
      · subst same
        simp
      · simp only [Function.update_of_ne same]
        exact hasBet now
    · cases List.mem_singleton.mp new
      exact ⟨seat, low, high, fun _ => by simp⟩
  · intro isFree
    exact absurd (isBet.symm.trans isFree) (by decide)
  · intro _
    exact ⟨by simpa using unsettled, by simpa using uncounted⟩

/-- The turns of a settlement over seats: for each seat of a user with bets it counted them once. -/
structure Turns (t : Table) (run : Nat) (seats : List Int) (events : List RoomEvent) : Prop where
  turns : ∀ e ∈ events, e.IsTurn ∧ e.round = t.round ∧ e.nTableId = t.nTableId
  counted : ∀ u tbUserBet, t.tbUserBet u = some tbUserBet →
    countedOf events t.round u = List.replicate (seats.count u) (run, tbUserBet)
  uncounted : ∀ u, t.tbUserBet u = none → countedOf events t.round u = []

/-- `BetTimerOver`: the settlement, its turns, and the next state. -/
theorem betTimerOver (inv : RoundInvariant v) (pending : v.timers = [.betTimerOver])
    {hands : List (List Nat)} (dealt : v.table.objShuffler.tbShufflerResult = some hands) (run : Nat)
    {moved : List RoomEvent} (turns : Turns v.table run v.table.tbSeatUser moved) :
    RoundInvariant
      { table := v.table.stateForward
        timers := [.settlementTimerOver]
        events := v.events ++ .settlement v.table.nTableId v.table.round run hands ::
          moved ++ [.state v.table.nTableId v.table.stateForward.nState] } := by
  have isBet : v.table.nState = stateBet := inv.state_of_timer pending
  have started : v.table.nState ≠ stateInit := by
    rw [isBet]
    decide
  have settlement : v.table.stateForward.nState = stateSettlement := by
    simp [Table.stateForward, isBet, stateBet, stateSettlement]
  have nothing := fun round u p => projections_of_turns (fun e member => (turns.turns e member).1) round u p
  obtain ⟨unsettled, uncounted⟩ := inv.unsettled (Or.inr isBet)
  rw [settlement]
  generalize event : RoomEvent.settlement v.table.nTableId v.table.round run hands = e
  have asList : v.events ++ e :: moved ++ [.state v.table.nTableId stateSettlement] =
      v.events ++ [e] ++ moved ++ [.state v.table.nTableId stateSettlement] := by simp
  rw [asList]
  have sameHands : ∀ round, handsOf (v.events ++ [e] ++ moved ++
      [.state v.table.nTableId stateSettlement]) round = handsOf v.events round := by
    intro round
    simp only [handsOf_append, (nothing round 0 0).2.1, ← event, handsOf_settlement, handsOf_state,
      List.append_nil]
  have sameSum : ∀ round u p, betSum (v.events ++ [e] ++ moved ++
      [.state v.table.nTableId stateSettlement]) round u p = betSum v.events round u p := by
    intro round u p
    simp only [betSum, betsOf_append, (nothing round u p).2.2.2, ← event, betsOf_settlement, betsOf_state,
      List.append_nil]
  have settlements : ∀ round, settlementsOf (v.events ++ [e] ++ moved ++
      [.state v.table.nTableId stateSettlement]) round =
      if round = v.table.round then [(run, hands)] else settlementsOf v.events round := by
    intro round
    simp only [settlementsOf_append, (nothing round 0 0).2.2.1, ← event, settlementsOf_settlement,
      settlementsOf_state, List.append_nil]
    by_cases now : round = v.table.round
    · subst now
      rw [unsettled, List.nil_append, if_pos rfl]
    · rw [if_neg now, if_neg now, List.append_nil]
  have counts : ∀ round u, countedOf (v.events ++ [e] ++ moved ++
      [.state v.table.nTableId stateSettlement]) round u =
      if round = v.table.round then countedOf moved round u else countedOf v.events round u := by
    intro round u
    simp only [countedOf_append, ← event, countedOf_settlement, countedOf_state, List.append_nil]
    by_cases now : round = v.table.round
    · subst now
      rw [uncounted, List.nil_append, if_pos rfl]
    · have others : ∀ e' ∈ moved, e'.round ≠ round := by
        intro e' member
        rw [(turns.turns e' member).2.1]
        exact Ne.symm now
      rw [if_neg now, countedOf_of_ne others, List.append_nil]
  have happened : ∀ id round u p nBet, .bet id round u p nBet ∈ v.events ++ [e] ++ moved ++
      [.state v.table.nTableId stateSettlement] → .bet id round u p nBet ∈ v.events := by
    intro id round u p nBet member
    simp only [List.mem_append, List.mem_singleton, ← event, reduceCtorEq, or_false] at member
    rcases member with before | isTurn
    · exact before
    · exact (turns.turns _ isTurn).1.elim
  constructor
  · constructor
    · change v.table.stateForward.nState ≤ stateSettlement
      exact Nat.le_of_eq settlement
    · change _ = pendingIn v.table.stateForward.nState
      rw [settlement]
      rfl
    · exact (lastState_state _ _).trans settlement.symm
    · have sameStates : states (v.events ++ [e] ++ moved ++
          [.state v.table.nTableId stateSettlement]) = states v.events ++ [stateSettlement] := by
        simp only [states_append, (nothing 0 0 0).1, ← event, states_settlement, states_state,
          List.append_nil]
      rw [sameStates]
      apply cycle_snoc inv.cycle
      change stateSettlement = (lastState v.events + 1) % 4
      rw [inv.current, isBet]
      rfl
    · intro _
      obtain ⟨hands', result, five, once⟩ := inv.hands started
      exact ⟨hands', result, five, (sameHands v.table.round).trans once⟩
    · intro round run' hands' member
      rw [sameHands]
      rw [settlements] at member
      split at member
      · rename_i now
        obtain ⟨hands'', result, five, once⟩ := inv.hands started
        cases List.mem_singleton.mp member
        cases Option.some.inj (dealt.symm.trans result)
        exact ⟨five, now ▸ once⟩
      · exact inv.settledHands round run' hands' member
    · have settled : BetState (v.events ++ [e]) := inv.betState.snoc (by simp [← event])
      have turned := settled.append_turns fun e' member => (turns.turns e' member).1
      exact turned.snoc (by simp)
    · intro u p low high
      rw [sameSum]
      exact inv.marked u p low high
    · intro id round u p nBet member
      have before := happened id round u p nBet member
      obtain ⟨seat, low, high, hasBet⟩ := inv.bettors id round u p nBet before
      right
      rw [sameSum, settlements, counts]
      by_cases now : round = v.table.round
      · subst now
        obtain ⟨b, record⟩ := Option.ne_none_iff_exists'.mp (hasBet rfl)
        have sum := inv.marked u p low high
        rw [record, Option.getD_some] at sum
        rw [if_pos rfl, if_pos rfl, turns.counted u b record]
        refine ⟨run, hands, b, rfl, ?_, fun entry member => List.eq_of_mem_replicate member, sum⟩
        exact mt (List.replicate_eq_nil_iff _).mp (Nat.ne_of_gt (List.count_pos_iff.mpr seat))
      · rcases inv.settled id round u p nBet before with ⟨isNow, -⟩ | settled
        · exact absurd isNow now
        · rw [if_neg now, if_neg now]
          exact settled
    · intro once round u
      rw [counts]
      split
      · next now =>
        subst now
        cases record : v.table.tbUserBet u with
        | none =>
            rw [turns.uncounted u record]
            exact Nat.zero_le _
        | some b =>
            rw [turns.counted u b record, List.length_replicate]
            exact List.nodup_iff_count_le_one.mp once u
      · exact inv.countedOnce once round u
  · intro _
    exact inv.seated started
  · exact inv.pack
  · intro e' member
    simp only [List.mem_append, List.mem_singleton] at member
    rcases member with ((before | rfl) | isTurn) | rfl
    · exact inv.rounds e' before
    · rw [← event]
      exact Nat.le_refl _
    · exact Nat.le_of_eq (turns.turns e' isTurn).2.1
    · exact Nat.zero_le _
  · exact inv.fourBets
  · intro id round u p nBet member
    exact inv.bettors id round u p nBet (happened id round u p nBet member)
  · intro isFree
    exact absurd (settlement.symm.trans isFree) (by decide)
  · intro waiting
    change v.table.stateForward.nState = stateFree ∨ v.table.stateForward.nState = stateBet at waiting
    rw [settlement] at waiting
    exact absurd waiting (by decide)

end RoundInvariant

end GameServer.Room
