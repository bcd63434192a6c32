/-
Module: GameServer.Timer.RaisingCallbacks
Purpose: The clock goes on in runs that take at most 43200000 frames exactly when no callback raises that is due in them:
  a callback that raises does so again in every following call of `update`, whose frame does not end.  With exact time
  the frames are those of the total, and more of them stop the clock, too.
Trusted boundary: none
Main exports: Stuck, Stuck.moves, Runs.calm_or_stuck, Runs.calm, GoesOn, goesOn_iff, Behind, Runs.behind,
  goesOn_exact_iff
-/
import GameServer.Timer.ElapsedTime
import GameServer.Timer.FrameCount
import GameServer.Timer.Lives

namespace GameServer.Timer

open Lib Lib.LuaM TimerState
open Arithmetic (rounding)

variable {κ W : Type}

section AnyTime

variable [Arithmetic]

/-! ## Behind a callback that raised

The timer stays in the slot of the frame, which does not end, and its callback raises again in the next call.
-/

/-- A timer whose callback raises is in the slot of the frame, and still to be visited in it; outside of callbacks the
barrier is up. -/
def Stuck (raises : κ → Prop) (p : Point κ W) : Prop :=
  ∃ timer, raises timer.callback ∧ timer ∈ p.state.slot 0 (p.state.vCurrentFrameIdx % 200) ∧
    match p.mode with
    | .outside => p.state.innerBarrier = true
    | .turning => p.state.innerBarrier = true
    | .visiting _ todo => timer.id ∈ todo
    | .calling _ running _ _ todo => running = timer ∨ (running.id ≠ timer.id ∧ timer.id ∈ todo)

section Stuck

variable {env : TimerEnv κ W} {raises : κ → Prop} {p q : Point κ W} {calls : List (TimerCall κ)}

/-- The frame does not end. -/
theorem Stuck.moves (orderly : Orderly p) (plainly : Plainly raises p) (stuck : Stuck raises p)
    (moves : Moves env p q) : Stuck raises q := by
  obtain ⟨timer, raising, there, rest⟩ := stuck
  have stays : ∀ s t : TimerState κ W, Moved (frameBegun s) [] t → timer ∈ s.slot 0 (s.vCurrentFrameIdx % 200) →
      timer ∈ t.slot 0 (t.vCurrentFrameIdx % 200) := by
    intro s t moved there
    obtain ⟨w, i, member, same, -⟩ := (moved.stays 0 _ timer there).resolve_left (by simp)
    obtain ⟨rfl, rfl⟩ := same rfl
    rw [moved.clock.1]
    exact member
  cases moves with
  | stop less => exact ⟨timer, raising, there, rest⟩
  | @begin s t more moved ids visited =>
      have member := stays s t moved there
      exact ⟨timer, raising, member, visited timer member⟩
  | @beginRaised s t more moved fifty => exact ⟨timer, raising, stays s t moved there, moved.clock.2.1.trans rest⟩
  | @gone s w idx todo none =>
      refine ⟨timer, raising, there, (List.mem_cons.mp rest).resolve_left fun same => ?_⟩
      obtain rfl := orderly.2
      exact none timer there same
  | @start s w todo other run here called =>
      obtain ⟨rests, rfl⟩ := orderly
      refine ⟨timer, raising, there, ?_⟩
      by_cases same : other.id = timer.id
      · exact Or.inl (rests.sound.wellFormed.same_place there here same).2.2
      · exact Or.inr ⟨same, (List.mem_cons.mp rest).resolve_left fun sameId => same sameId.symm⟩
  | add adds slot => exact absurd plainly.1 (by simp)
  | remove removes => exact absurd plainly.1 (by simp)
  | raised => exact ⟨timer, raising, there, orderly.2.2.1⟩
  | @returned s t w running result todo finishes =>
      rcases rest with rfl | ⟨other, later⟩
      · exact absurd (plainly.2.1.mpr raising) (by simp)
      · refine ⟨timer, raising, ?_, later⟩
        change timer ∈ t.slot 0 (t.vCurrentFrameIdx % 200)
        rw [finishes.clock.frame]
        exact (finishes.members 0 _ timer).mpr (Or.inl ⟨there, other.symm⟩)
  | frameDone => exact absurd rest (by simp)

/-- A callback that raises leaves the clock stuck; every other step leaves calm behind. -/
theorem Moves.calm_or_raised (orderly : Orderly p) (plainly : Plainly raises p) (calm : Calm p.state.trace)
    (moves : Moves env p q) :
    Calm q.state.trace ∨ (Stuck raises q ∧ ∃ w timer todo, p.mode = .calling w timer [] none todo) := by
  cases moves with
  | stop less => exact Or.inl calm
  | begin more moved ids visited => exact Or.inl (calm.grown moved.history.1 (by simp))
  | beginRaised more moved fifty => exact Or.inl (calm.grown moved.history.1 (by simp))
  | gone none => exact Or.inl calm
  | start there called => exact Or.inl (calm.grown rfl (by simp))
  | add adds slot => exact Or.inl (calm.grown adds.trace (by simp))
  | remove removes => exact Or.inl (calm.grown removes.trace (by simp))
  | @raised s w timer todo =>
      obtain ⟨-, rfl, up, -⟩ := orderly
      exact Or.inr ⟨⟨timer, plainly.2.1.mp rfl, plainly.2.2, up⟩, _, timer, todo, rfl⟩
  | returned finishes => exact Or.inl (finishes.history.1 ▸ calm)
  | frameDone => exact Or.inl (calm.grown rfl (by simp))

/-- As long as no callback has raised there is calm; from then on the clock is stuck. -/
theorem Runs.calm_or_stuck (plain : Plain env raises) (orderly : Orderly p) (plainly : Plainly raises p)
    (calm : Calm p.state.trace) (only : ∀ op, .op op ∉ calls) (runs : Runs env p calls q) :
    Calm q.state.trace ∨ Stuck raises q := by
  refine runs.onUpdates (I := fun q => Calm q.state.trace ∨ Stuck raises q) orderly (Or.inl calm) ?_ ?_ only
  · rintro s elapse (calm | stuck)
    · exact Or.inl calm
    · exact Or.inr stuck
  · rintro before q r isPrefix runs orderlyQ - inv moves
    have plainlyQ := runs.plainly plain orderly plainly fun op member => only op (isPrefix.subset member)
    rcases inv with calm | stuck
    · exact (moves.calm_or_raised orderlyQ plainlyQ calm).imp_right fun raised => raised.1
    · exact Or.inr (stuck.moves orderlyQ plainlyQ moves)

end Stuck

/-! ## The clock goes on

The frames that calls of `update` cover are the ones that they take, in the arithmetic that the program runs in.
-/

/-- Calls of `update` that cover so many frames have left the barrier down; the frames are over; every timer that expired
in one of them has been started, once for each of its expiries; and no timer is left behind. -/
structure GoesOn (frames : Nat) (u : TimerState κ W) : Prop where
  barrier : u.innerBarrier = false
  frame : ∀ f < frames, f < u.vCurrentFrameIdx
  started : ∀ f < frames, ∀ (id : Nat) (expires : Int) (frame : Nat) (cycle : Int),
    .added id expires frame cycle ∈ u.trace → expires ≤ f →
    ∃ n, 0 < n ∧ CalledOn expires cycle n (callsOf id u.trace) ∧ (cycle ≤ 0 → n = 1)
  left : ∀ f < frames, ∀ timer, InWheels u timer → f < timer.expires

section GoesOn

variable {env : TimerEnv κ W} {raises : κ → Prop} {infos : List (TimerInfo κ)} {q : Point κ W} {s u : TimerState κ W}
  {calls : List (TimerCall κ)} {frames : Nat}

omit [Arithmetic] in
/-- A callback that raises is that of a timer which expires in the frame. -/
theorem Life.expires_of_raises {timer running : TimerInfo κ} {n w : Nat} {ops : List (TimerOp κ)} {result : Option Bool}
    {todo : List Nat} (life : Life raises timer n (⟨.calling w running ops result todo, s⟩ : Point κ W))
    (same : running.id = timer.id) (raising : raises timer.callback) : timer.expires = s.vCurrentFrameIdx := by
  cases life with
  | waits expires located repeated => exact absurd same located.2.1
  | @runs n w ops result todo s expires repeated =>
      obtain rfl : n = 0 := by
        by_contra more
        exact (repeated (Nat.pos_of_ne_zero more)).2 raising
      rw [inPeriod_zero] at expires
      exact expires
  | ended absent repeated returned => exact absurd same absent.2.2
  | tooLong far absent => exact absurd same absent.2.2

/-- When no callback of a timer that is due raises, there is calm. -/
theorem Runs.calm {world : W} {adds : List (TimerCall κ)} (plain : Plain env raises) (idle : Idle raises infos s)
    (added : Runs env ⟨.outside, .init world⟩ adds ⟨.outside, s⟩) (noUpdate : updates adds = [])
    (only : ∀ op, .op op ∉ calls) (reach : covered (updates calls) ≤ wheelSizeMul1234)
    (safe : ∀ timer ∈ infos, timer.expires < covered (updates calls) → ¬ raises timer.callback)
    (runs : Runs env ⟨.outside, s⟩ calls q) : Calm q.state.trace := by
  have orderly : Orderly (⟨.outside, s⟩ : Point κ W) := ⟨.fresh, idle.rests⟩
  refine runs.onUpdates (I := fun q => Calm q.state.trace) orderly idle.calm (fun _ _ calm => calm) ?_ only
  rintro before q r isPrefix soFar orderlyQ - calm moves
  have onlyBefore : ∀ op, .op op ∉ before := fun op member => only op (isPrefix.subset member)
  have plainly := soFar.plainly plain orderly trivial onlyBefore
  refine (moves.calm_or_raised orderlyQ plainly calm).resolve_right ?_
  rintro ⟨-, w, running, todo, calling⟩
  obtain ⟨mode, t⟩ := q
  change mode = _ at calling
  subst calling
  have planned := soFar.planned plain idle onlyBefore calm
  obtain ⟨timer, inside, n, rfl⟩ := planned.stored running ⟨0, w, plainly.2.2⟩
  obtain ⟨m, -, life⟩ := planned.lives timer inside
  have raising : raises timer.callback := plainly.2.1.mp rfl
  have expires := life.expires_of_raises rfl raising
  -- the frame is one that the calls cover
  obtain ⟨after, rfl⟩ := isPrefix
  rw [updates_append] at reach safe
  have within := covered_le_append (updates before) (updates after)
  have counted := (added.trans soFar).counted calm (by
    rw [updates_append, noUpdate]
    exact within.trans reach)
  obtain ⟨earlier, elapse, begun, last, inCall⟩ := counted
  rw [updates_append, noUpdate, List.nil_append] at last
  rw [last] at within
  have most : (tick (clockAfter earlier) elapse).1 ≤ covered (earlier ++ [elapse] ++ updates after) := by
    rw [← clockAfter_append]
    exact within
  have frame : t.vCurrentFrameIdx + 1 = (clockAfter earlier).1 + begun := inCall.frame
  have atMost : (clockAfter earlier).1 + framesIn (rounding.add (clockAfter earlier).2 elapse) ≤ _ := most
  rw [last] at safe
  have begunAll := inCall.atMost
  exact safe timer inside (by omega) raising

omit [Arithmetic] in
/-- Once the frame of a timer is over, it has been called. -/
theorem Life.called {phase : Phase} (rests : Rests phase u) {timer : TimerInfo κ} {n : Nat}
    (life : Life raises timer n (⟨.outside, u⟩ : Point κ W)) (past : timer.expires < u.vCurrentFrameIdx)
    (short : timer.expires < 43200000) : 0 < n ∧ (timer.cycle ≤ 0 → n = 1) ∧ ¬ raises timer.callback := by
  cases life with
  | @waits n goal p expires located repeated =>
      have later := located.1.frame_le rests
      have more : 0 < n := by
        by_contra none
        obtain rfl := Nat.eq_zero_of_not_pos none
        rw [inPeriod_zero] at expires
        omega
      exact ⟨more, fun oneShot => absurd (repeated more).1 (not_lt.mpr oneShot), (repeated more).2⟩
  | @ended n p absent repeated returned =>
      refine ⟨Nat.succ_pos n, fun oneShot => ?_, returned⟩
      by_contra several
      exact absurd (repeated (by omega)) (not_lt.mpr oneShot)
  | tooLong far absent => omega

omit [Arithmetic] in
/-- A timer in the wheels waits for a frame that is not over. -/
theorem Life.frame_le {phase : Phase} (rests : Rests phase u) {timer : TimerInfo κ} {n m : Nat}
    (life : Life raises timer n (⟨.outside, u⟩ : Point κ W)) (there : InWheels u (inPeriod timer m)) :
    (u.vCurrentFrameIdx : Int) ≤ (inPeriod timer m).expires := by
  cases life with
  | @waits n goal p expires located repeated =>
      have later := located.1.frame_le rests
      obtain ⟨w, i, member, -⟩ := located.1
      obtain ⟨v, j, here⟩ := there
      have same := (rests.sound.wellFormed.same_place member here rfl).2.2
      rw [same, expires]
      exact_mod_cast later
  | ended absent repeated returned => exact (absent.2.1 _ there rfl).elim
  | tooLong far absent => exact (absent.2.1 _ there rfl).elim

omit [Arithmetic] in
/-- In calm the clock goes on. -/
theorem goesOn_of_calm {phase : Phase} (rests : Rests phase u) (down : u.innerBarrier = false)
    (planned : Planned raises infos (⟨.outside, u⟩ : Point κ W)) (past : frames ≤ u.vCurrentFrameIdx)
    (reach : frames ≤ wheelSizeMul1234) : GoesOn frames u := by
  refine ⟨down, fun f before => Nat.lt_of_lt_of_le before past,
    fun f before id expires frame cycle member expired => ?_, fun f before y there => ?_⟩
  · obtain ⟨timer, inside, rfl, rfl, rfl⟩ := planned.added id expires frame cycle member
    obtain ⟨n, called, life⟩ := planned.lives timer inside
    have short : wheelSizeMul1234 = 43200000 := by decide
    obtain ⟨some, oneShot, -⟩ := life.called rests (by omega) (by omega)
    exact ⟨n, some, called, oneShot⟩
  · obtain ⟨timer, inside, m, rfl⟩ := planned.stored y there
    obtain ⟨n, -, life⟩ := planned.lives timer inside
    have later := life.frame_le rests there
    omega

omit [Arithmetic] in
/-- A clock that goes on has called no callback that raises. -/
theorem safe_of_goesOn {phase : Phase} (rests : Rests phase u) (goesOn : GoesOn frames u)
    (planned : Planned raises infos (⟨.outside, u⟩ : Point κ W)) (reach : frames ≤ wheelSizeMul1234) :
    ∀ timer ∈ infos, timer.expires < frames → ¬ raises timer.callback := by
  intro timer inside due
  have past : frames ≤ u.vCurrentFrameIdx := by
    by_contra less
    exact Nat.lt_irrefl _ (goesOn.frame _ (not_le.mp less))
  obtain ⟨n, -, life⟩ := planned.lives timer inside
  have short : wheelSizeMul1234 = 43200000 := by decide
  exact (life.called rests (by omega) (by omega)).2.2

/-- A clock that goes on has called no callback that raised. -/
theorem GoesOn.calm (plain : Plain env raises) (idle : Idle raises infos s) (only : ∀ op, .op op ∉ calls)
    (runs : Runs env ⟨.outside, s⟩ calls ⟨.outside, u⟩) (goesOn : GoesOn frames u) : Calm u.trace := by
  have orderly : Orderly (⟨.outside, s⟩ : Point κ W) := ⟨.fresh, idle.rests⟩
  refine (runs.calm_or_stuck plain orderly trivial idle.calm only).resolve_right ?_
  rintro ⟨timer, -, -, up⟩
  exact absurd (up.symm.trans goesOn.barrier) (by simp)

end GoesOn

omit [Arithmetic] in
/-- Adding timers brings no time. -/
theorem updates_addCalls (set : List (ℚ × κ × Int)) : updates (set.map addCall) = [] := by
  rw [updates, List.filterMap_map]
  exact List.filterMap_eq_nil_iff.mpr fun _ _ => rfl

omit [Arithmetic] in
theorem updates_map_update (elapses : List ℚ) :
    updates (elapses.map (TimerCall.update : ℚ → TimerCall κ)) = elapses := by
  rw [updates, List.filterMap_map]
  exact List.filterMap_some

/-- Timers are added, one-shot and cyclic, with delays that are not negative, whose callbacks make no calls of the timer
object and of which some raise; then `update` is called any number of times, for at most 43200000 frames.  The clock goes
on exactly when no callback raises whose timer expires in one of these frames. -/
theorem goesOn_iff {env : TimerEnv κ W} {raises : κ → Prop} (plain : Plain env raises) (world : W)
    (set : List (ℚ × κ × Int)) (notBack : ∀ timer ∈ set, 0 ≤ timer.1) (elapses : List ℚ)
    (reach : covered elapses ≤ wheelSizeMul1234) :
    GoesOn (covered elapses) ((set.map addCall ++ elapses.map TimerCall.update).foldl (stateAfter env) (.init world)) ↔
      ∀ timer ∈ set, framesUntil timer.1 0 < covered elapses → ¬ raises timer.2.1 := by
  have only : ∀ op, .op op ∉ elapses.map (TimerCall.update : ℚ → TimerCall κ) := by simp
  have values : updates (elapses.map (TimerCall.update : ℚ → TimerCall κ)) = elapses := updates_map_update elapses
  have noUpdate : updates (set.map addCall) = [] := updates_addCalls set
  have added : Runs env _ _ _ := runs_of_calls (rests_init world) (set.map addCall)
  obtain ⟨infos, idle, same⟩ := Idle.foldl env (idle_init raises world) notBack
  rw [List.nil_append] at idle
  rw [List.foldl_append]
  generalize (set.map addCall).foldl (stateAfter env) (.init world) = s at added idle ⊢
  have orderly : Orderly (⟨.outside, s⟩ : Point κ W) := ⟨.fresh, idle.rests⟩
  have runs : Runs env _ _ _ := runs_of_calls idle.rests (elapses.map TimerCall.update)
  generalize (elapses.map TimerCall.update).foldl (stateAfter env) s = u at runs ⊢
  generalize elapses.map (TimerCall.update : ℚ → TimerCall κ) = calls at only values runs
  obtain ⟨phase, rests⟩ := runs.orderly orderly
  have each : (∀ timer ∈ infos, timer.expires < covered elapses → ¬ raises timer.callback) ↔
      ∀ timer ∈ set, framesUntil timer.1 0 < covered elapses → ¬ raises timer.2.1 := by
    have both := congrArg (fun timers : List (Int × κ) => ∀ x ∈ timers, x.1 < covered elapses → ¬ raises x.2) same
    simpa only [List.forall_mem_map] using both.to_iff
  rw [← each]
  constructor
  · intro goesOn
    exact safe_of_goesOn rests goesOn (runs.planned plain idle only (goesOn.calm plain idle only runs)) reach
  · intro safe
    rw [← values] at reach safe
    have calm := Runs.calm plain idle added noUpdate only reach safe runs
    have counted := (added.trans runs).counted calm (by
      rw [updates_append, noUpdate]
      exact reach)
    have clock : clockAfter (updates (set.map addCall ++ calls)) = (u.vCurrentFrameIdx, u.vElapseTime) := counted
    rw [updates_append, noUpdate, List.nil_append] at clock
    have past : covered (updates calls) ≤ u.vCurrentFrameIdx := (congrArg Prod.fst clock).le
    have down := runs.lowered orderly (fun _ _ => idle.barrier) calm id
    rw [values] at past reach
    exact goesOn_of_calm rests down (runs.planned plain idle only calm) past reach

end AnyTime

/-! ## Exact time

With exact time the frames that calls cover are the whole frames of their total, and a run that covers more than 43200000
of them stops the clock even if no callback raises.
-/

section ExactTime

open scoped ExactArithmetic

/-- With exact time the clock of the calls can be calculated. -/
theorem clockAfter_eq {elapses : List ℚ} (positive : ∀ elapse ∈ elapses, 0 < elapse) :
    clockAfter elapses = (wholeFrames elapses.sum, elapses.sum - wholeFrames elapses.sum * secondPerFrame) := by
  induction elapses using List.reverseRecOn with
  | nil =>
      have none : wholeFrames 0 = 0 := wholeFrames_of_le (by norm_num [secondPerFrame_eq])
      simp [clockAfter, none]
  | append_singleton elapses elapse ih =>
      have before := ih fun x member => positive x (List.mem_append_left _ member)
      have more : 0 < elapse := positive elapse (by simp)
      have time : elapses.sum - wholeFrames elapses.sum * secondPerFrame + elapse =
          (elapses ++ [elapse]).sum - wholeFrames elapses.sum * secondPerFrame := by
        rw [List.sum_append, List.sum_singleton]
        ring
      have least : wholeFrames elapses.sum ≤ wholeFrames (elapses ++ [elapse]).sum := by
        refine wholeFrames_mono ?_
        rw [List.sum_append, List.sum_singleton]
        linarith
      rw [clockAfter_append, before, tick, framesIn_eq, timeLeft_eq, ExactArithmetic.rounding_eq, Rounding.add_exact,
        time, wholeFrames_sub]
      refine Prod.ext (Nat.add_sub_cancel' least) ?_
      change _ - _ - ((wholeFrames (elapses ++ [elapse]).sum - wholeFrames elapses.sum : Nat) : ℚ) * _ = _
      rw [Nat.cast_sub least]
      ring

/-- With exact time the frames of calls are those of their total. -/
theorem covered_eq {elapses : List ℚ} (positive : ∀ elapse ∈ elapses, 0 < elapse) :
    covered elapses = wholeFrames elapses.sum := congrArg Prod.fst (clockAfter_eq positive)

theorem total_updates (elapses : List ℚ) :
    total (elapses.map (TimerCall.update : ℚ → TimerCall κ)) = elapses.sum := by
  rw [total, List.map_map]
  exact congrArg List.sum (List.map_id elapses)

/-- Some frames' time has been lost, in calls of `update` that raised before the frame had begun; up to frame 43200000
there is none. -/
def Behind (T : ℚ) (p : Point κ W) : Prop :=
  ∃ lost : Nat, p.state.vElapseTime + (p.state.vCurrentFrameIdx + p.mode.inFrame + lost : Nat) * secondPerFrame = T ∧
    0 ≤ p.state.vElapseTime ∧
    (0 < p.state.vCurrentFrameIdx + p.mode.inFrame + lost → 0 < p.state.vElapseTime) ∧
    (lost = 0 → p.state.vCurrentFrameIdx + p.mode.inFrame ≤ wheelSizeMul1234 ∧
      (p.mode.inFrame = 0 → Rests .fresh p.state))

section Behind

variable {env : TimerEnv κ W} {raises : κ → Prop} {p q : Point κ W} {s t : TimerState κ W} {T : ℚ}

/-- Within a frame time stands still. -/
theorem Behind.within (behind : Behind T p) (insideP : p.mode.inFrame = 1) (insideQ : q.mode.inFrame = 1)
    (elapse : q.state.vElapseTime = p.state.vElapseTime) (frame : q.state.vCurrentFrameIdx = p.state.vCurrentFrameIdx) :
    Behind T q := by
  obtain ⟨lost, time, nonneg, left, early⟩ := behind
  rw [insideP] at time left early
  refine ⟨lost, ?_, ?_, ?_, fun none => ⟨?_, fun never => absurd (insideQ.symm.trans never) (by decide)⟩⟩
  · rw [elapse, frame, insideQ]
    exact time
  · rw [elapse]
    exact nonneg
  · rw [elapse, frame, insideQ]
    exact left
  · rw [frame, insideQ]
    exact (early none).1

/-- A step takes a frame's time for a frame, or loses it. -/
theorem Behind.moves (orderlyP : Orderly p) (calm : Calm q.state.trace) (behind : Behind T p) (step : Step env p q) :
    Behind T q := by
  have moves := (step.moves orderlyP).2
  have positive : (0 : ℚ) < secondPerFrame := by norm_num [secondPerFrame_eq]
  cases moves with
  | stop less => exact behind
  | @begin s t more moved ids visited =>
      obtain ⟨lost, time, nonneg, left, early⟩ := behind
      have elapse : t.vElapseTime = s.vElapseTime - secondPerFrame := moved.clock.2.2
      have frame : t.vCurrentFrameIdx = s.vCurrentFrameIdx := moved.clock.1
      have some : 0 < t.vElapseTime := by
        rw [elapse]
        linarith
      refine ⟨lost, ?_, some.le, fun _ => some, fun none => ⟨?_, fun never => absurd never (by simp [Mode.inFrame])⟩⟩
      · change s.vElapseTime + (s.vCurrentFrameIdx + 0 + lost : Nat) * secondPerFrame = T at time
        change t.vElapseTime + (t.vCurrentFrameIdx + 1 + lost : Nat) * secondPerFrame = T
        rw [elapse, frame, ← time]
        push_cast
        ring
      · obtain ⟨atMost, fresh⟩ := early none
        change t.vCurrentFrameIdx + 1 ≤ wheelSizeMul1234
        change s.vCurrentFrameIdx + 0 ≤ wheelSizeMul1234 at atMost
        by_contra beyond
        have last : s.vCurrentFrameIdx = wheelSizeMul1234 := by omega
        refine step.not_turned (fresh rfl) ?_
        rw [last]
        decide
  | @beginRaised s t more moved fifty =>
      obtain ⟨lost, time, nonneg, left, early⟩ := behind
      have elapse : t.vElapseTime = s.vElapseTime - secondPerFrame := moved.clock.2.2
      have frame : t.vCurrentFrameIdx = s.vCurrentFrameIdx := moved.clock.1
      have some : 0 < t.vElapseTime := by
        rw [elapse]
        linarith
      refine ⟨lost + 1, ?_, some.le, fun _ => some, fun none => absurd none (Nat.succ_ne_zero _)⟩
      change s.vElapseTime + (s.vCurrentFrameIdx + 0 + lost : Nat) * secondPerFrame = T at time
      change t.vElapseTime + (t.vCurrentFrameIdx + 0 + (lost + 1) : Nat) * secondPerFrame = T
      rw [elapse, frame, ← time]
      push_cast
      ring
  | gone none => exact behind.within rfl rfl rfl rfl
  | start there called => exact behind.within rfl rfl rfl rfl
  | add adds slot => exact behind.within rfl rfl adds.clock.elapse adds.clock.frame
  | remove removes => exact behind.within rfl rfl removes.clock.elapse removes.clock.frame
  | @raised s w timer todo => exact absurd (by simp [TimerState.record]) (calm timer.id)
  | returned finishes => exact behind.within rfl rfl finishes.clock.elapse finishes.clock.frame
  | frameDone =>
      obtain ⟨lost, time, nonneg, left, early⟩ := behind
      exact ⟨lost, time, nonneg, left, fun none => ⟨(early none).1, fun _ => endFrame_rests orderlyP.1⟩⟩

/-- A call brings the time that it is passed. -/
theorem Behind.update (behind : Behind T ⟨.outside, s⟩) {elapse : ℚ} (more : 0 < elapse) :
    Behind (T + elapse) ⟨.turning, elapsed elapse s⟩ := by
  obtain ⟨lost, time, nonneg, -, early⟩ := behind
  have some : 0 < s.vElapseTime + elapse := add_pos_of_nonneg_of_pos nonneg more
  refine ⟨lost, ?_, some.le, fun _ => some, fun none => ⟨(early none).1, fun _ => ?_⟩⟩
  · rw [← time]
    exact add_right_comm _ _ _
  · exact ((early none).2 rfl).congr rfl rfl (Nat.le_refl _) rfl

/-- As long as nothing raises, the clock follows the total. -/
theorem Runs.behind {infos : List (TimerInfo κ)} {calls : List (TimerCall κ)} (idle : Idle raises infos s)
    (only : ∀ op, .op op ∉ calls) (forward : Forward calls) (runs : Runs env ⟨.outside, s⟩ calls q)
    (calm : Calm q.state.trace) : Behind (total calls) q := by
  have orderly : Orderly (⟨.outside, s⟩ : Point κ W) := ⟨.fresh, idle.rests⟩
  induction runs with
  | nil =>
      refine ⟨0, ?_, idle.elapse.symm.le, fun some => ?_, fun _ => ⟨?_, fun _ => idle.rests⟩⟩
      · simp [idle.elapse, idle.frame, Mode.inFrame, total]
      · simp [idle.frame, Mode.inFrame] at some
      · simp [idle.frame, Mode.inFrame]
  | @call calls s runs call ih =>
      cases call with
      | op op => exact absurd (List.mem_append_right _ (List.mem_singleton_self _)) (only op)
      | update elapse =>
          obtain ⟨forwardBefore, forwardCall⟩ := forward_append.mp forward
          have before := ih (fun op member => only op (List.mem_append_left _ member)) forwardBefore calm
          have time : total (calls ++ [.update elapse]) = total calls + elapse := by
            rw [total_append]
            simp [total, TimerCall.elapse]
          rw [time]
          exact before.update (forwardCall elapse (List.mem_singleton_self _))
  | @step calls q r runs step ih =>
      obtain ⟨-, moves⟩ := step.moves (runs.orderly orderly)
      obtain ⟨events, grown⟩ := moves.trace
      have calmBefore : Calm q.state.trace := by
        rw [grown] at calm
        exact calm.of_append
      exact (ih only forward calmBefore).moves (runs.orderly orderly) calm step

end Behind

/-- With exact time, a clock that goes on over the whole frames of its total has lost none of them. -/
theorem reach_of_goesOn {u : TimerState κ W} {T : ℚ} (goesOn : GoesOn (wholeFrames T) u)
    (behind : Behind T ⟨.outside, u⟩) : wholeFrames T ≤ wheelSizeMul1234 := by
  have past : wholeFrames T ≤ u.vCurrentFrameIdx := by
    by_contra less
    exact Nat.lt_irrefl _ (goesOn.frame _ (not_le.mp less))
  obtain ⟨lost, time, -, left, early⟩ := behind
  change u.vElapseTime + (u.vCurrentFrameIdx + 0 + lost : Nat) * secondPerFrame = T at time
  by_cases none : lost = 0
  · exact past.trans (early none).1
  · have some : 0 < u.vElapseTime := left (by omega)
    have within : u.vCurrentFrameIdx < wholeFrames T := by
      have positive : (0 : ℚ) < secondPerFrame := by norm_num [secondPerFrame_eq]
      have atLeast : ((u.vCurrentFrameIdx + 1 : Nat) : ℚ) ≤ (u.vCurrentFrameIdx + 0 + lost : Nat) := by
        exact_mod_cast (by omega : u.vCurrentFrameIdx + 1 ≤ u.vCurrentFrameIdx + 0 + lost)
      have scaled := mul_le_mul_of_nonneg_right atLeast positive.le
      rw [wholeFrames_lt_iff]
      linarith
    omega

/-- With exact time the clock goes on exactly when no callback raises whose timer expires in the whole frames of the
total, and these are at most 43200000. -/
theorem goesOn_exact_iff {env : TimerEnv κ W} {raises : κ → Prop} (plain : Plain env raises) (world : W)
    (set : List (ℚ × κ × Int)) (notBack : ∀ timer ∈ set, 0 ≤ timer.1) (elapses : List ℚ)
    (positive : ∀ elapse ∈ elapses, 0 < elapse) :
    GoesOn (wholeFrames elapses.sum)
        ((set.map addCall ++ elapses.map TimerCall.update).foldl (stateAfter env) (.init world)) ↔
      (∀ timer ∈ set, framesUntil timer.1 0 < wholeFrames elapses.sum → ¬ raises timer.2.1) ∧
        wholeFrames elapses.sum ≤ wheelSizeMul1234 := by
  have only : ∀ op, .op op ∉ elapses.map (TimerCall.update : ℚ → TimerCall κ) := by simp
  have iff := goesOn_iff plain world set notBack elapses
  rw [covered_eq positive] at iff
  constructor
  · intro goesOn
    have reach : wholeFrames elapses.sum ≤ wheelSizeMul1234 := by
      obtain ⟨infos, idle, -⟩ := Idle.foldl env (idle_init raises world) notBack
      have runs : Runs env _ _ _ := runs_of_calls idle.rests (elapses.map TimerCall.update)
      rw [← List.foldl_append] at runs
      have behind := runs.behind idle only (forward_updates positive) (goesOn.calm plain idle only runs)
      rw [total_updates] at behind
      exact reach_of_goesOn goesOn behind
    exact ⟨(iff reach).mp goesOn, reach⟩
  · rintro ⟨safe, reach⟩
    exact (iff reach).mpr safe

end ExactTime

/-! ## Runs in doubles

The condition is met by a raising timer that lies behind the covered frames, and missed by one in them.
-/

/-- Callback 1 raises, every other one returns true. -/
def firstRaisesEnv : TimerEnv Nat (List Nat) :=
  .inOrder fun cb id s =>
    { world := id :: s.world, ops := [], result := if cb = 1 then none else some true }

theorem firstRaisesEnv_plain : Plain firstRaisesEnv (· = 1) := by
  refine ⟨fun _ _ _ => rfl, fun cb id s => ?_⟩
  change (if cb = 1 then none else some true) = none ↔ cb = 1
  split
  · rename_i first
    simp [first]
  · rename_i other
    simp [other]

section Doubles

open scoped DoubleArithmetic

/-- A timer for each frame, and one of half a second, in 203 frames; the callback that raises is that of a timer of 25
seconds, which a cascade takes to the first wheel. -/
theorem goesOn_iff_lateRaise :
    GoesOn (covered [1 / 5, 101 / 5]) (([(0, 2, 1), (1 / 2, 3, 0), (25, 1, 0)].map addCall ++
      [1 / 5, 101 / 5].map TimerCall.update).foldl (stateAfter firstRaisesEnv) (.init [])) := by
  have frames : covered [1 / 5, 101 / 5] = 203 := by decide +kernel
  refine (goesOn_iff firstRaisesEnv_plain [] [(0, 2, 1), (1 / 2, 3, 0), (25, 1, 0)] ?_ [1 / 5, 101 / 5] ?_).mpr ?_
  · norm_num
  · rw [frames]
    decide
  · rw [frames]
    decide +kernel

def raisingCalls : List (TimerCall Nat) :=
  [(0, 1, 0), (1 / 10, 2, 0)].map addCall ++ [1 / 5, 1 / 5, 1 / 5].map TimerCall.update

/-- The callback of a timer that is due at once raises in three calls of `update`: frame 0 is not over, another timer
has not been started, and the barrier is up. -/
theorem raising_callback_stops_clock :
    (raisingCalls.foldl (stateAfter firstRaisesEnv) (.init [])).trace =
        [.added 2 0 0 0, .added 3 1 0 0, .frame 0, .started 2 0, .raised 2, .frame 0, .started 2 0, .raised 2,
          .frame 0, .started 2 0, .raised 2] ∧
      (raisingCalls.foldl (stateAfter firstRaisesEnv) (.init [])).innerBarrier = true ∧
      ¬ GoesOn (covered [1 / 5, 1 / 5, 1 / 5]) (raisingCalls.foldl (stateAfter firstRaisesEnv) (.init [])) := by
  have up : (raisingCalls.foldl (stateAfter firstRaisesEnv) (.init [])).innerBarrier = true := by decide +kernel
  refine ⟨by decide +kernel, up, fun goesOn => ?_⟩
  exact absurd (up.symm.trans goesOn.barrier) (by simp)

end Doubles

end GameServer.Timer
