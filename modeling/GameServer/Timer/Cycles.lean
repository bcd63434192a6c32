/-
Module: GameServer.Timer.Cycles
Purpose: Cyclic timers keep their period in every run in which no callback raises, except for a timer of period one that
  was due when it was added in a callback.
Trusted boundary: none
Main exports: callsOf, inPeriod, callFrame, Turns, Cycling, KeepsPeriod, cyclic_timers_keep_period
-/
import GameServer.Timer.NewTimers

namespace GameServer.Timer

open Lib Lib.LuaM TimerState

variable {κ W : Type}

section AnyTime

variable [Arithmetic]

/-! ## Calls and periods

A cyclic timer is put in again behind each call, with its expiry moved on by the period. So the frames of its calls
can be told beforehand: all but the first one are whole periods behind the first expiry.
-/

/-- The frames in which the timer was called. -/
def callsOf (id : Nat) (trace : List TimerEvent) : List Nat :=
  trace.filterMap fun
    | .started k frame => if k = id then some frame else none
    | _ => none

omit [Arithmetic] in
/-- The calls of a history are those of its parts. -/
theorem callsOf_append (id : Nat) (before after : List TimerEvent) :
    callsOf id (before ++ after) = callsOf id before ++ callsOf id after := List.filterMap_append

omit [Arithmetic] in
theorem callsOf_started (id frame : Nat) : callsOf id [.started id frame] = [frame] := by
  simp [callsOf]

omit [Arithmetic] in
/-- Events that do not start the timer. -/
theorem callsOf_eq_nil {id : Nat} {events : List TimerEvent} (never : ∀ frame, .started id frame ∉ events) :
    callsOf id events = [] := by
  refine List.filterMap_eq_nil_iff.mpr fun event member => ?_
  match event with
  | .started k frame =>
      have other : k ≠ id := by
        rintro rfl
        exact never frame member
      exact if_neg other
  | .added _ _ _ _ => rfl
  | .removed _ => rfl
  | .frame _ => rfl
  | .raised _ => rfl
  | .frameDone _ => rfl

/-- The timer as it is after it has been put in again `n` times. -/
def inPeriod (timer : TimerInfo κ) (n : Nat) : TimerInfo κ := { timer with expires := timer.expires + n * timer.cycle }

omit [Arithmetic] in
theorem inPeriod_zero (timer : TimerInfo κ) : inPeriod timer 0 = timer := by
  simp [inPeriod]

omit [Arithmetic] in
/-- Putting a timer in again is going on to its next period. -/
theorem again_inPeriod (timer : TimerInfo κ) (n : Nat) : again (inPeriod timer n) = inPeriod timer (n + 1) := by
  simp only [again, inPeriod]
  congr 1
  push_cast
  ring

/-- The frame of call `n`, where call 0 is in the given frame and every other one when the timer expires. -/
def callFrame (timer : TimerInfo κ) (first : Nat) : Nat → Nat
  | 0 => first
  | n + 1 => (inPeriod timer (n + 1)).expires.toNat

/-- The timer is cyclic, the wheels reach over its period, and it is first called within a period of its expiry. -/
structure Periodic (timer : TimerInfo κ) (first : Nat) : Prop where
  cyclic : 0 < timer.cycle
  short : timer.cycle < wheelSizeMul1234
  reached : timer.expires ≤ first
  soon : (first : Int) < timer.expires + timer.cycle

section Periodic

variable {timer : TimerInfo κ} {first : Nat} (periodic : Periodic timer first)
include periodic

omit [Arithmetic] in
/-- From the second call on a call is made when the timer expires. -/
theorem Periodic.callFrame_succ (n : Nat) :
    (callFrame timer first (n + 1) : Int) = timer.expires + (n + 1) * timer.cycle := by
  have more : 0 ≤ (n : Int) * timer.cycle := mul_nonneg (Int.natCast_nonneg n) periodic.cyclic.le
  have soon := periodic.soon
  have nonneg : 0 ≤ timer.expires + ((n + 1 : Nat) : Int) * timer.cycle := by
    push_cast
    linarith [Int.natCast_nonneg first]
  change ((timer.expires + ((n + 1 : Nat) : Int) * timer.cycle).toNat : Int) = _
  rw [Int.toNat_of_nonneg nonneg]
  push_cast
  ring

omit [Arithmetic] in
/-- No call is made before the expiry of its period. -/
theorem Periodic.le_callFrame (n : Nat) : timer.expires + n * timer.cycle ≤ callFrame timer first n := by
  cases n with
  | zero =>
      rw [Nat.cast_zero, zero_mul, add_zero]
      exact periodic.reached
  | succ n =>
      rw [periodic.callFrame_succ]
      push_cast
      exact le_refl _

omit [Arithmetic] in
/-- Each call is made before the next period is over. -/
theorem Periodic.callFrame_lt (n : Nat) : (callFrame timer first n : Int) < timer.expires + (n + 1) * timer.cycle := by
  cases n with
  | zero =>
      rw [Nat.cast_zero, zero_add, one_mul]
      exact periodic.soon
  | succ n =>
      rw [periodic.callFrame_succ]
      push_cast
      linarith [periodic.cyclic]

omit [Arithmetic] in
/-- The calls are made in frames that increase. -/
theorem Periodic.callFrame_lt_succ (n : Nat) : callFrame timer first n < callFrame timer first (n + 1) := by
  have below := periodic.callFrame_lt n
  rw [← periodic.callFrame_succ] at below
  exact_mod_cast below

end Periodic

/-! ## Steps

What one step of a run means for the timer: nothing, or the next call. The cases are those of `Moves`; call `n` can be
made only while the object in the wheels is the timer after `n` periods.
-/

/-- The timer waits for call `n`, or its callback runs in the call before. -/
inductive Turns (timer : TimerInfo κ) (first : Nat) : Nat → Point κ W → Prop
  | waits {n : Nat} {p : Point κ W} (located : Located True (inPeriod timer n) (callFrame timer first n) p) :
      Turns timer first n p
  | runs {n w : Nat} {ops : List (TimerOp κ)} {todo : List Nat} {s : TimerState κ W}
      (here : s.vCurrentFrameIdx = callFrame timer first n) :
      Turns timer first (n + 1) ⟨.calling w (inPeriod timer n) ops (some true) todo, s⟩

/-- Over these events the timer was not called, or call `n` was made. -/
def Turned (timer : TimerInfo κ) (first n : Nat) (events : List TimerEvent) (q : Point κ W) : Prop :=
  (callsOf timer.id events = [] ∧ Turns timer first n q) ∨
    (callsOf timer.id events = [callFrame timer first n] ∧ Turns timer first (n + 1) q)

section Steps

variable {env : TimerEnv κ W} {timer : TimerInfo κ} {first n : Nat} {p q : Point κ W} {events : List TimerEvent}

/-- The value that a callback returns is fixed when it is called. -/
theorem Moves.result (moves : Moves env p q) {w : Nat} {running : TimerInfo κ} {ops : List (TimerOp κ)}
    {result : Option Bool} {todo : List Nat} (calling : q.mode = .calling w running ops result todo) :
    (∃ s, (env.callback running.callback running.id s).result = result) ∨
      ∃ w' ops' todo', p.mode = .calling w' running ops' result todo' := by
  cases moves with
  | stop less => exact absurd calling (by simp)
  | begin more moved ids visited => exact absurd calling (by simp)
  | beginRaised more moved fifty => exact absurd calling (by simp)
  | gone none => exact absurd calling (by simp)
  | @start s v todo' other run there called =>
      obtain ⟨-, rfl, -, rfl, -⟩ := Mode.calling.inj calling
      exact Or.inl ⟨atCall other s, by rw [called]⟩
  | add adds slot =>
      obtain ⟨-, rfl, -, rfl, -⟩ := Mode.calling.inj calling
      exact Or.inr ⟨_, _, _, rfl⟩
  | remove removes =>
      obtain ⟨-, rfl, -, rfl, -⟩ := Mode.calling.inj calling
      exact Or.inr ⟨_, _, _, rfl⟩
  | raised => exact absurd calling (by simp)
  | returned finishes => exact absurd calling (by simp)
  | frameDone => exact absurd calling (by simp)

omit [Arithmetic] in
/-- A timer that is put in again behind its callback waits for the frame it expires in. -/
theorem Finishes.located_again {s t : TimerState κ W} {running : TimerInfo κ} {goal w : Nat} {todo : List Nat}
    (finishes : Finishes s running true t) (cyclic : 0 < running.cycle) (expires : (again running).expires = goal)
    (later : s.vCurrentFrameIdx < goal) (reach : goal < s.vCurrentFrameIdx + 43200000) :
    Located True (again running) goal ⟨.visiting w todo, t⟩ := by
  have frame : t.vCurrentFrameIdx = s.vCurrentFrameIdx := finishes.clock.frame
  have choice := slotFor_cases (barrierDown s) (again running).expires
  rw [show (barrierDown s).vCurrentFrameIdx = s.vCurrentFrameIdx from rfl] at choice
  rcases choice with ⟨due, -⟩ | ⟨-, -, v, i, choice, timely⟩ | ⟨tooLong, -⟩
  · omega
  · have there : again running ∈ t.slot v i := (finishes.members v i _).mpr (Or.inr ⟨cyclic, rfl, rfl, choice⟩)
    refine ⟨⟨v, i, there, ?_, Or.inr trivial⟩, fun _ => finishes.clock.barrier, fun now => ?_⟩
    · change FiresAt t.vCurrentFrameIdx v i _ _
      rw [frame]
      exact timely.firesAt expires
    · change _ = t.vCurrentFrameIdx at now
      omega
  · omega

omit [Arithmetic] in
/-- What happens to a timer that waits. -/
theorem Follows.turned (follows : Follows True (inPeriod timer n) (callFrame timer first n) p q)
    (returns : ∀ w ops result todo, q.mode = .calling w (inPeriod timer n) ops result todo → result = some true)
    (grown : q.state.trace = p.state.trace ++ events) (calm : Calm events) (kept : .removed timer.id ∉ events) :
    Turned timer first n events q := by
  cases follows with
  | silent trace located =>
      obtain rfl : events = [] := List.self_eq_append_right.mp (trace.symm.trans grown)
      exact Or.inl ⟨rfl, .waits located⟩
  | other event trace notDone notStarted located =>
      obtain rfl : events = [event] := List.append_cancel_left (grown.symm.trans trace)
      refine Or.inl ⟨callsOf_eq_nil fun frame member => ?_, .waits located⟩
      exact notStarted frame (List.mem_singleton.mp member).symm
  | removed trace =>
      obtain rfl : events = [_] := List.append_cancel_left (grown.symm.trans trace)
      exact absurd (List.mem_singleton_self _) kept
  | started trace here running =>
      obtain rfl : events = [_] := List.append_cancel_left (grown.symm.trans trace)
      obtain ⟨w, ops, result, todo, calling⟩ := running
      obtain ⟨mode, s⟩ := q
      obtain rfl := returns w ops result todo calling
      change mode = _ at calling
      subst calling
      exact Or.inr ⟨callsOf_started _ _, .runs here⟩
  | raised isCalm id trace =>
      obtain rfl : events = [_] := List.append_cancel_left (grown.symm.trans trace)
      exact absurd (List.mem_singleton_self _) (calm id)

/-- Calls from outside do not call it. -/
theorem Turns.callPoint {s : TimerState κ W} {phase : Phase} (rests : Rests phase s)
    (turns : Turns timer first n ⟨.outside, s⟩) (call : TimerCall κ)
    (grown : (callPoint s call).state.trace = s.trace ++ events) (calm : Calm events)
    (kept : .removed timer.id ∉ events) : Turned timer first n events (callPoint s call) := by
  cases turns with
  | waits located =>
      refine (located.callPoint rests call).turned (fun w ops result todo calling => ?_) grown calm kept
      cases call with
      | update elapse => exact absurd calling (by simp [GameServer.Timer.callPoint])
      | op op => exact absurd calling (by simp [GameServer.Timer.callPoint])

variable (periodic : Periodic timer first)
include periodic

omit [Arithmetic] in
/-- A callback that has returned waits for its next call. -/
theorem Periodic.located_again {s t : TimerState κ W} {w : Nat} {todo : List Nat}
    (finishes : Finishes s (inPeriod timer n) true t) (here : s.vCurrentFrameIdx = callFrame timer first n) :
    Located True (inPeriod timer (n + 1)) (callFrame timer first (n + 1)) ⟨.visiting w todo, t⟩ := by
  have expires : (again (inPeriod timer n)).expires = callFrame timer first (n + 1) := by
    rw [again_inPeriod, periodic.callFrame_succ, inPeriod]
    push_cast
    rfl
  have later := periodic.callFrame_lt_succ n
  have reach : (callFrame timer first (n + 1) : Int) < callFrame timer first n + 43200000 := by
    have short : timer.cycle < 43200000 := periodic.short
    have last := periodic.le_callFrame n
    rw [periodic.callFrame_succ]
    linarith
  rw [← again_inPeriod]
  exact finishes.located_again periodic.cyclic expires (by omega) (by omega)

/-- What a step makes of it. -/
theorem Turns.moves (returns : ∀ s, (env.callback timer.callback timer.id s).result = some true) (orderlyP : Orderly p)
    (orderlyQ : Orderly q) (turns : Turns timer first n p) (moves : Moves env p q)
    (grown : q.state.trace = p.state.trace ++ events) (calm : Calm events) (kept : .removed timer.id ∉ events) :
    Turned timer first n events q := by
  cases turns with
  | waits located =>
      refine (located.moves orderlyP orderlyQ moves).turned (fun w ops result todo calling => ?_) grown calm kept
      rcases moves.result calling with ⟨s, isResult⟩ | ⟨w', ops', todo', before⟩
      · exact isResult.symm.trans (returns s)
      · obtain ⟨mode, s⟩ := p
        change mode = _ at before
        subst before
        exact absurd rfl located.2.1
  | runs here =>
      cases moves with
      | add adds slot =>
          obtain rfl : events = [_] := List.append_cancel_left (grown.symm.trans adds.trace)
          exact Or.inl ⟨rfl, .runs (adds.clock.frame.trans here)⟩
      | remove removes =>
          obtain rfl : events = [_] := List.append_cancel_left (grown.symm.trans removes.trace)
          exact Or.inl ⟨rfl, .runs (removes.clock.frame.trans here)⟩
      | returned finishes =>
          obtain rfl : events = [] := List.self_eq_append_right.mp (finishes.history.1.symm.trans grown)
          exact Or.inl ⟨rfl, .waits (periodic.located_again finishes here)⟩

end Steps

/-! ## Runs

The step lemma carries `Turns` along a run, and with it the list of the calls that have been made.
-/

/-- The history since then; and the calls in it, as long as no callback has raised and the timer was not removed. -/
def Cycling (timer : TimerInfo κ) (first : Nat) (base : List TimerEvent) (p : Point κ W) : Prop :=
  ∃ rest, p.state.trace = base ++ rest ∧ (Calm rest → .removed timer.id ∉ rest →
    ∃ n, callsOf timer.id rest = (List.range n).map (callFrame timer first) ∧ Turns timer first n p)

/-- The calls of a cyclic timer so far: it is called at most once in a frame; a period after a call there was another
one; that is at most a period later, and just a period when the timer was called in the frame it expired in. -/
structure KeepsPeriod (timer : TimerInfo κ) (calls : List Nat) (p : Point κ W) : Prop where
  once : calls.Pairwise (· < ·)
  next : ∀ (n f : Nat), calls[n]? = some f → f + timer.cycle < p.state.vCurrentFrameIdx → ∃ f', calls[n + 1]? = some f'
  apart : ∀ (n f f' : Nat), calls[n]? = some f → calls[n + 1]? = some f' →
    f < f' ∧ f' ≤ f + timer.cycle ∧ (f' = f + timer.cycle ↔ f = timer.expires + n * timer.cycle)
  expires : match p.mode with
    | .calling _ running _ _ _ => running.id = timer.id → ∃ n : Nat, calls.length = n + 1 ∧
        calls[n]? = some p.state.vCurrentFrameIdx ∧ running.expires = timer.expires + n * timer.cycle
    | _ => True

section Runs

variable {env : TimerEnv κ W} {timer : TimerInfo κ} {first : Nat} {p q : Point κ W} {base : List TimerEvent}

omit [Arithmetic] in
/-- What one step does to the history of a timer that has kept its period so far. -/
theorem Cycling.next (cycling : Cycling timer first base p) {events : List TimerEvent}
    (grown : q.state.trace = p.state.trace ++ events)
    (turned : ∀ n, Turns timer first n p → Calm events → .removed timer.id ∉ events → Turned timer first n events q) :
    Cycling timer first base q := by
  obtain ⟨rest, trace, calls⟩ := cycling
  refine ⟨rest ++ events, by rw [grown, trace, List.append_assoc], fun calm kept => ?_⟩
  obtain ⟨n, soFar, turns⟩ := calls calm.of_append fun member => kept (List.mem_append_left _ member)
  have calmEvents : Calm events := fun id member => calm id (List.mem_append_right _ member)
  rw [callsOf_append, soFar]
  rcases turned n turns calmEvents fun member => kept (List.mem_append_right _ member) with ⟨none, later⟩ | ⟨one, later⟩
  · exact ⟨n, by rw [none, List.append_nil], later⟩
  · exact ⟨n + 1, by rw [one, List.range_succ, List.map_append]; rfl, later⟩

variable (periodic : Periodic timer first)
include periodic

/-- The calls of a cyclic timer, in every run from where it waits for the first one. -/
theorem Periodic.cycling (returns : ∀ s, (env.callback timer.callback timer.id s).result = some true)
    (orderly : Orderly p) (located : Located True timer first p) {calls : List (TimerCall κ)}
    (runs : Runs env p calls q) : Cycling timer first p.state.trace q := by
  have start : Cycling timer first p.state.trace p := by
    refine ⟨[], (List.append_nil _).symm, fun _ _ => ⟨0, rfl, .waits ?_⟩⟩
    rw [inPeriod_zero]
    exact located
  refine runs.keeps orderly start (fun s phase call rests cycling => ?_)
    fun _ q r _ _ orderlyQ orderlyR cycling moves => ?_
  · obtain ⟨events, grown⟩ := callPoint_trace rests call
    exact cycling.next grown fun n turns calm kept => turns.callPoint rests call grown calm kept
  · obtain ⟨events, grown⟩ := moves.trace
    exact cycling.next grown fun n turns calm kept =>
      turns.moves periodic returns orderlyQ orderlyR moves grown calm kept

omit periodic in
omit [Arithmetic] in
/-- The `k`-th of the first `n` calls. -/
theorem callFrames_getElem? {n k f : Nat} :
    ((List.range n).map (callFrame timer first))[k]? = some f ↔ k < n ∧ callFrame timer first k = f := by
  rw [List.getElem?_eq_some_iff]
  simp

omit periodic in
omit [Arithmetic] in
/-- After a period the call that was waited for is over. -/
theorem Turns.frame_le {n : Nat} (orderly : Orderly p) (turns : Turns timer first (n + 1) p) :
    p.state.vCurrentFrameIdx ≤ callFrame timer first n ∨ p.state.vCurrentFrameIdx ≤ callFrame timer first (n + 1) := by
  cases turns with
  | waits located =>
      obtain ⟨phase, rests⟩ := orderly.rests
      exact Or.inr (located.1.frame_le rests)
  | runs here => exact Or.inl here.le

omit [Arithmetic] in
/-- After `n` calls. -/
theorem Turns.keepsPeriod {n : Nat} (orderly : Orderly p) (turns : Turns timer first n p) :
    KeepsPeriod timer ((List.range n).map (callFrame timer first)) p := by
  have increasing : StrictMono (callFrame timer first) := strictMono_nat_of_lt_succ periodic.callFrame_lt_succ
  refine ⟨?_, fun k f isCall past => ?_, fun k f f' isCall isNext => ?_, ?_⟩
  · rw [List.pairwise_map]
    exact List.pairwise_lt_range.imp fun less => increasing less
  · obtain ⟨below, rfl⟩ := callFrames_getElem?.mp isCall
    by_cases last : k + 1 < n
    · exact ⟨_, callFrames_getElem?.mpr ⟨last, rfl⟩⟩
    · obtain rfl : n = k + 1 := by omega
      have expired := periodic.le_callFrame k
      have period := periodic.cyclic
      have next := periodic.callFrame_succ k
      rcases turns.frame_le orderly with before | before
      · omega
      · rw [add_mul, one_mul] at next
        omega
  · obtain ⟨-, rfl⟩ := callFrames_getElem?.mp isCall
    obtain ⟨-, rfl⟩ := callFrames_getElem?.mp isNext
    have expired := periodic.le_callFrame k
    have next := periodic.callFrame_succ k
    rw [add_mul, one_mul] at next
    refine ⟨increasing (Nat.lt_succ_self k), by omega, by omega⟩
  · cases turns with
    | @waits _ p located =>
        obtain ⟨mode, s⟩ := p
        cases mode with
        | calling w running ops result todo => exact fun same => absurd same located.2.1
        | outside => trivial
        | turning => trivial
        | visiting w todo => trivial
    | @runs m w ops todo s here =>
        refine fun _ => ⟨m, by simp, callFrames_getElem?.mpr ⟨Nat.lt_succ_self m, here.symm⟩, rfl⟩

end Runs

/-! ## Cyclic timers

The results, for a timer that is added between updates and for one that a callback adds.
-/

section Cyclic

variable {env : TimerEnv κ W} {p q : Point κ W} {s t : TimerState κ W} {timer : TimerInfo κ} {rest : List TimerEvent}

/-- A timer that waits for its first call keeps its period. -/
theorem Periodic.keepsPeriod {first : Nat} (periodic : Periodic timer first)
    (returns : ∀ s, (env.callback timer.callback timer.id s).result = some true) (orderly : Orderly p)
    (located : Located True timer first p) {calls : List (TimerCall κ)} (runs : Runs env p calls q)
    (trace : q.state.trace = p.state.trace ++ rest) (calm : Calm rest) (kept : .removed timer.id ∉ rest) :
    KeepsPeriod timer (callsOf timer.id rest) q := by
  obtain ⟨rest', trace', counted⟩ := periodic.cycling returns orderly located runs
  obtain rfl : rest' = rest := List.append_cancel_left (trace'.symm.trans trace)
  obtain ⟨n, soFar, turns⟩ := counted calm kept
  rw [soFar]
  exact turns.keepsPeriod periodic (runs.orderly orderly)

/-- A timer that is in no slot has no calls. -/
theorem Absent.keepsPeriod (orderly : Orderly p) (absent : Absent timer.id p) {calls : List (TimerCall κ)}
    (runs : Runs env p calls q) (trace : q.state.trace = p.state.trace ++ rest) :
    KeepsPeriod timer (callsOf timer.id rest) q := by
  obtain ⟨away, rest', trace', never⟩ := absent.not_started orderly runs
  obtain rfl : rest' = rest := List.append_cancel_left (trace'.symm.trans trace)
  rw [callsOf_eq_nil never]
  refine ⟨List.Pairwise.nil, fun n f isCall => absurd isCall (by simp),
    fun n f f' isCall => absurd isCall (by simp), ?_⟩
  obtain ⟨mode, u⟩ := q
  cases mode with
  | calling w running ops result todo => exact fun same => absurd same away.2.2
  | outside => trivial
  | turning => trivial
  | visiting w todo => trivial

/-- A cyclic timer that is added between calls. -/
theorem keepsPeriod_outside {phase : Phase} {delay : ℚ} {cb : κ} {cycle : Int} {calls : List (TimerCall κ)}
    (rests : Rests phase s) (nonneg : 0 ≤ s.vElapseTime) (down : s.innerBarrier = false) (notBack : 0 ≤ delay)
    (cyclic : 1 ≤ cycle) (short : cycle < wheelSizeMul1234)
    (returns : ∀ s', (env.callback cb (infoFor s delay cb cycle).id s').result = some true)
    (runs : Runs env ⟨.outside, stateAfter env s (.op (.add delay cb cycle))⟩ calls q)
    (trace : q.state.trace = (stateAfter env s (.op (.add delay cb cycle))).trace ++ rest) (calm : Calm rest)
    (kept : .removed (infoFor s delay cb cycle).id ∉ rest) :
    KeepsPeriod (infoFor s delay cb cycle) (callsOf (infoFor s delay cb cycle).id rest) q := by
  have adds : Adds s (infoFor s delay cb cycle) (stateAfter env s (.op (.add delay cb cycle))) :=
    applyAdd_exec rests delay cb cycle
  have orderly : Orderly (⟨.outside, stateAfter env s (.op (.add delay cb cycle))⟩ : Point κ W) :=
    callPoint_orderly rests (.op (.add delay cb cycle))
  have notPast := frame_le_expires nonneg notBack cb cycle
  have period : (infoFor s delay cb cycle).cycle = cycle := rfl
  rcases adds.outside rests rfl down with
    ⟨due, -, located⟩ | ⟨-, -, absent⟩ | ⟨goal, -, -, isGoal, located⟩ | ⟨-, absent⟩
  · have periodic : Periodic (infoFor s delay cb cycle) s.vCurrentFrameIdx := ⟨by omega, by omega, due, by omega⟩
    exact periodic.keepsPeriod returns orderly located runs trace calm kept
  · exact absent.keepsPeriod orderly runs trace
  · have periodic : Periodic (infoFor s delay cb cycle) goal := ⟨by omega, by omega, isGoal.le, by omega⟩
    exact periodic.keepsPeriod returns orderly located runs trace calm kept
  · exact absent.keepsPeriod orderly runs trace

/-- A cyclic timer that is added in a callback. -/
theorem keepsPeriod_inside {w : Nat} {running : TimerInfo κ} {ops : List (TimerOp κ)} {result : Option Bool}
    {todo : List Nat} {delay : ℚ} {cb : κ} {cycle : Int} {calls : List (TimerCall κ)}
    (orderlyS : Orderly (⟨.calling w running (.add delay cb cycle :: ops) result todo, s⟩ : Point κ W))
    (nonneg : 0 ≤ s.vElapseTime) (notBack : 0 ≤ delay) (cyclic : 1 ≤ cycle) (short : cycle < wheelSizeMul1234)
    (notNow : ¬ (cycle = 1 ∧ (infoFor s delay cb cycle).expires ≤ s.vCurrentFrameIdx))
    (returns : ∀ s', (env.callback cb (infoFor s delay cb cycle).id s').result = some true)
    (applied : exec (applyOp (.add delay cb cycle)) s = (.ok (), t))
    (runs : Runs env ⟨.calling w running ops result todo, t⟩ calls q) (trace : q.state.trace = t.trace ++ rest)
    (calm : Calm rest) (kept : .removed (infoFor s delay cb cycle).id ∉ rest) :
    KeepsPeriod (infoFor s delay cb cycle) (callsOf (infoFor s delay cb cycle).id rest) q := by
  have step : Step env _ ⟨.calling w running ops result todo, t⟩ := .op applied
  have orderly := (step.moves orderlyS).1
  have ⟨rests, _, up, known⟩ := orderlyS
  have adds : Adds s (infoFor s delay cb cycle) t := (of_exec (applyAdd_adds rests delay cb cycle) applied).2.1
  have notPast := frame_le_expires nonneg notBack cb cycle
  have period : (infoFor s delay cb cycle).cycle = cycle := rfl
  rcases adds.inside rests up known rfl with ⟨due, located⟩ | ⟨goal, -, -, isGoal, located⟩ | ⟨-, absent⟩
  · have periodic : Periodic (infoFor s delay cb cycle) (s.vCurrentFrameIdx + 1) := by
      refine ⟨by omega, by omega, by omega, ?_⟩
      have long : cycle ≠ 1 := fun one => notNow ⟨one, due⟩
      omega
    exact periodic.keepsPeriod returns orderly located runs trace calm kept
  · have periodic : Periodic (infoFor s delay cb cycle) goal := ⟨by omega, by omega, isGoal.le, by omega⟩
    exact periodic.keepsPeriod returns orderly located runs trace calm kept
  · exact absent.keepsPeriod orderly runs trace

end Cyclic

/-- In every run in which no callback raises, a cyclic timer whose callback returns true, and which nobody removes,
keeps its period: at every point after it was added between calls, and at every point after it was added in a callback,
unless its period is one frame and it was due there. -/
theorem cyclic_timers_keep_period (env : TimerEnv κ W) (world : W) (calls more : List (TimerCall κ))
    (forward : Forward calls) (delay : ℚ) (notBack : 0 ≤ delay) (cb : κ) (cycle : Int) (cyclic : 1 ≤ cycle)
    (short : cycle < wheelSizeMul1234) (q : Point κ W) (calm : Calm q.state.trace) (rest : List TimerEvent) :
    (∀ s t, s = calls.foldl (stateAfter env) (TimerState.init world) →
      t = stateAfter env s (.op (.add delay cb cycle)) →
      (∀ s', (env.callback cb (infoFor s delay cb cycle).id s').result = some true) → Runs env ⟨.outside, t⟩ more q →
      q.state.trace = t.trace ++ rest → .removed (infoFor s delay cb cycle).id ∉ rest →
      KeepsPeriod (infoFor s delay cb cycle) (callsOf (infoFor s delay cb cycle).id rest) q) ∧
    ∀ s t w running ops result todo, Runs env ⟨.outside, .init world⟩ calls
        ⟨.calling w running (.add delay cb cycle :: ops) result todo, s⟩ →
      exec (applyOp (.add delay cb cycle)) s = (.ok (), t) →
      ¬ (cycle = 1 ∧ (infoFor s delay cb cycle).expires ≤ s.vCurrentFrameIdx) →
      (∀ s', (env.callback cb (infoFor s delay cb cycle).id s').result = some true) →
      Runs env ⟨.calling w running ops result todo, t⟩ more q →
      q.state.trace = t.trace ++ rest → .removed (infoFor s delay cb cycle).id ∉ rest →
      KeepsPeriod (infoFor s delay cb cycle) (callsOf (infoFor s delay cb cycle).id rest) q := by
  have start : Orderly (⟨.outside, .init world⟩ : Point κ W) := ⟨.fresh, rests_init world⟩
  constructor
  · rintro s t rfl rfl returns runs trace kept
    have before : Runs env ⟨.outside, .init world⟩ calls _ := runs_of_calls (rests_init world) calls
    obtain ⟨phase, rests⟩ := before.orderly start
    rw [trace] at calm
    have calmBefore : Calm (calls.foldl (stateAfter env) (TimerState.init world)).trace := by
      have longer := calm.of_append
      rw [show (stateAfter env _ (.op (.add delay cb cycle))).trace = _ from (applyAdd_exec rests delay cb cycle).trace]
        at longer
      exact longer.of_append
    have down := before.lowered start (fun _ _ => rfl) calmBefore id
    exact keepsPeriod_outside rests (before.elapse_nonneg forward) down notBack cyclic short returns runs trace
      (fun id member => calm id (List.mem_append_right _ member)) kept
  · intro s t w running ops result todo before applied notNow returns runs trace kept
    rw [trace] at calm
    exact keepsPeriod_inside (before.orderly start) (before.elapse_nonneg forward) notBack cyclic short notNow returns
      applied runs trace (fun id member => calm id (List.mem_append_right _ member)) kept

end AnyTime

section Doubles

open scoped DoubleArithmetic

/-- A timer that is due at once, with a period of two frames, and four frames' time. -/
def secondFrames : TimerState Nat (List Nat) := stateAfter returningEnv (TimerState.init []) (.op (.add 0 2 2))

/-- The timer is due in frame 0 and again two frames later. -/
theorem cyclic_timers_keep_period_two :
    KeepsPeriod (infoFor (TimerState.init [] : TimerState Nat (List Nat)) 0 2 2) [0, 2]
      ⟨.outside, stateAfter returningEnv secondFrames (.update (9 / 20))⟩ := by
  have history : (stateAfter returningEnv secondFrames (.update (9 / 20))).trace = secondFrames.trace ++
      [.frame 0, .started 2 0, .frameDone 0, .frame 1, .frameDone 1, .frame 2, .started 2 2, .frameDone 2, .frame 3,
        .frameDone 3] := by
    decide +kernel
  have added : secondFrames.trace = [.added 2 0 0 2] := by decide +kernel
  have calm : Calm (stateAfter returningEnv secondFrames (.update (9 / 20))).trace := by
    rw [history, added]
    intro id
    simp
  have runs : Runs returningEnv ⟨.outside, secondFrames⟩ [.update (9 / 20)]
      ⟨.outside, stateAfter returningEnv secondFrames (.update (9 / 20))⟩ :=
    runs_of_calls (applyAdd_rests (rests_init []) 0 2 2) [.update (9 / 20)]
  exact (cyclic_timers_keep_period returningEnv [] [] [.update (9 / 20)] (fun x member => absurd member (by simp)) 0
    (le_refl 0) 2 2 (by decide) (by decide) _ calm _).1 (TimerState.init []) secondFrames rfl rfl (fun _ => rfl) runs
    history (by simp)

/-- Callback 1 adds a timer that is due at once, with a period of one frame. -/
def everyFrameEnv : TimerEnv Nat (List Nat) :=
  .inOrder fun cb id s =>
    { world := id :: s.world, ops := if cb = 1 then [.add 0 2 1] else [], result := some true }

def everyFrameCalls : List (TimerCall Nat) := [.op (.add 0 1 0), .update (3 / 20), .update (3 / 10)]

/-- A timer with a period of one frame that is due when it is added in a callback is called in the next frame, and not
in the two frames after that. -/
theorem due_cyclic_timer_waits :
    (everyFrameCalls.foldl (stateAfter everyFrameEnv) (TimerState.init [])).trace =
        [.added 2 0 0 0, .frame 0, .started 2 0, .added 3 0 0 1] ++
          [.frameDone 0, .frame 1, .started 3 1, .frameDone 1, .frame 2, .frameDone 2, .frame 3, .frameDone 3] ∧
      ¬ KeepsPeriod ⟨3, 0, 2, 1⟩
        (callsOf 3 [.frameDone 0, .frame 1, .started 3 1, .frameDone 1, .frame 2, .frameDone 2, .frame 3, .frameDone 3])
        ⟨.outside, everyFrameCalls.foldl (stateAfter everyFrameEnv) (TimerState.init [])⟩ := by
  refine ⟨by decide +kernel, fun keeps => ?_⟩
  have frame : (everyFrameCalls.foldl (stateAfter everyFrameEnv) (TimerState.init [])).vCurrentFrameIdx = 4 := by
    decide +kernel
  obtain ⟨f', isNext⟩ := keeps.next 0 1 rfl (by
    change _ < ((everyFrameCalls.foldl (stateAfter everyFrameEnv) (TimerState.init [])).vCurrentFrameIdx : Int)
    rw [frame]
    decide)
  exact absurd isNext (by simp [callsOf])

end Doubles

end GameServer.Timer
