/-
Module: GameServer.Timer.OnTime
Purpose: Timers against elapsed time, in runs in which no callback raises: one that is added between calls is never
  early and at most a frame late; one that is added in a callback can be up to a frame early.
Trusted boundary: none
Main exports: OnTime, timers_on_time
-/
import GameServer.Timer.ElapsedTime

namespace GameServer.Timer

open Lib Lib.LuaM TimerState
open scoped ExactArithmetic

variable {κ W : Type}

/-- A timer that was added with a delay when the total was `T` has not been started when the total is still below
`T + delay`, and has been started when it is above by more than two frames. -/
def OnTime (T delay T' : ℚ) (id : Nat) (rest : List TimerEvent) : Prop :=
  (T' < T + delay → ∀ frame, .started id frame ∉ rest) ∧
    (T + delay + 2 * secondPerFrame < T' → ∃ frame, .started id frame ∈ rest)

section OnTime

variable {env : TimerEnv κ W} {s t u : TimerState κ W} {T T' delay : ℚ} {id goal : Nat} {rest : List TimerEvent}

/-- A timer that has been started from a known total on. -/
theorem onTime_iff (started : (∃ frame, .started id frame ∈ rest) ↔ (goal + 1 : Nat) * secondPerFrame < T')
    (soon : (goal + 1 : Nat) * secondPerFrame ≤ T + delay + 2 * secondPerFrame) :
    OnTime T delay T' id rest ↔ ¬ ((goal + 1 : Nat) * secondPerFrame < T' ∧ T' < T + delay) := by
  constructor
  · rintro ⟨notEarly, -⟩ ⟨past, before⟩
    obtain ⟨frame, member⟩ := started.mpr past
    exact notEarly before frame member
  · intro notBetween
    refine ⟨fun before frame member => ?_, fun late => started.mpr (lt_of_le_of_lt soon late)⟩
    exact notBetween ⟨started.mp ⟨frame, member⟩, before⟩

/-- A timer that is never started. -/
theorem onTime_iff_of_never (never : ∀ frame, .started id frame ∉ rest) :
    OnTime T delay T' id rest ↔ ¬ T + delay + 2 * secondPerFrame < T' := by
  constructor
  · rintro ⟨-, inTime⟩ late
    obtain ⟨frame, member⟩ := inTime late
    exact never frame member
  · intro notYet
    exact ⟨fun _ => never, fun late => absurd late notYet⟩

/-- The expiry, in the frames of the total. -/
theorem floor_expires (frames : Nat) (left : s.vElapseTime + (frames : ℚ) * secondPerFrame = T) :
    ⌊(delay + s.vElapseTime) * frameRate⌋ + (frames : Int) = ⌊(T + delay) * frameRate⌋ := by
  rw [← Int.floor_add_natCast, ← left, frameRate_eq, secondPerFrame_eq]
  congr 1
  ring

/-- Before the timers of a run that the wheels reach are too long, the run is over. -/
theorem not_late_of_tooLong {k : Int} (floor : k ≤ ⌊(T + delay) * frameRate⌋) (tooLong : 43200000 ≤ k)
    (reach : wholeFrames T' ≤ wheelSizeMul1234) : T' ≤ T + delay + 2 * secondPerFrame := by
  have most : wholeFrames T' ≤ 43200000 := reach
  rw [← not_lt, wholeFrames_lt_iff] at most
  have far : ((43200000 : Int) : ℚ) ≤ (T + delay) * frameRate := Int.le_floor.mp (tooLong.trans floor)
  rw [frameRate_eq] at far
  rw [secondPerFrame_eq] at most ⊢
  push_cast at most far
  linarith

/-- A timer that waits for a frame, against the total. -/
theorem Located.onTime_iff {timer : TimerInfo κ} {p : Point κ W} (orderly : Orderly p)
    (located : Located True timer goal p) {calls : List (TimerCall κ)} (runs : Runs env p calls ⟨.outside, u⟩)
    (timed : Timed T' ⟨.outside, u⟩) (calm : Calm u.trace) (trace : u.trace = p.state.trace ++ rest)
    (kept : .removed timer.id ∉ rest) (soon : (goal + 1 : Nat) * secondPerFrame ≤ T + delay + 2 * secondPerFrame) :
    OnTime T delay T' timer.id rest ↔ ¬ ((goal + 1 : Nat) * secondPerFrame < T' ∧ T' < T + delay) := by
  have started := started_iff orderly located runs timed calm trace kept
  rw [timed.lt_frame_iff] at started
  exact GameServer.Timer.onTime_iff started soon

/-- A timer that is not in the wheels, against the total. -/
theorem Absent.onTime_iff {p : Point κ W} (orderly : Orderly p) (absent : Absent id p) {calls : List (TimerCall κ)}
    (runs : Runs env p calls ⟨.outside, u⟩) (trace : u.trace = p.state.trace ++ rest) :
    OnTime T delay T' id rest ↔ ¬ T + delay + 2 * secondPerFrame < T' := by
  obtain ⟨-, rest', trace', never⟩ := absent.not_started orderly runs
  obtain rfl : rest' = rest := List.append_cancel_left (trace'.symm.trans trace)
  exact onTime_iff_of_never never

/-- A timer that is added between calls. -/
theorem onTime_outside {phase : Phase} {cb : κ} {cycle : Int} {calls : List (TimerCall κ)} (rests : Rests phase s)
    (timedS : Timed T ⟨.outside, s⟩)
    (runs : Runs env ⟨.outside, stateAfter env s (.op (.add delay cb cycle))⟩ calls ⟨.outside, u⟩)
    (timed : Timed T' ⟨.outside, u⟩) (calm : Calm u.trace) (reach : wholeFrames T' ≤ wheelSizeMul1234)
    (nonneg : 0 ≤ delay) (trace : u.trace = (stateAfter env s (.op (.add delay cb cycle))).trace ++ rest)
    (kept : .removed (infoFor s delay cb cycle).id ∉ rest) :
    OnTime T delay T' (infoFor s delay cb cycle).id rest ↔
      ¬ ((infoFor s delay cb cycle).expires ≤ s.vCurrentFrameIdx ∧ ¬ (s.vWheels 0).index < (s.vWheels 0).bound ∧
        T + delay + 2 * secondPerFrame < T') := by
  have adds : Adds s (infoFor s delay cb cycle) (stateAfter env s (.op (.add delay cb cycle))) :=
    applyAdd_exec rests delay cb cycle
  have orderly : Orderly (⟨.outside, stateAfter env s (.op (.add delay cb cycle))⟩ : Point κ W) :=
    callPoint_orderly rests (.op (.add delay cb cycle))
  have time : s.vElapseTime + (s.vCurrentFrameIdx : ℚ) * secondPerFrame = T := timedS.time
  have left : 0 ≤ s.vElapseTime := timedS.nonneg
  have expires : (infoFor s delay cb cycle).expires = ⌊(T + delay) * frameRate⌋ := floor_expires _ time
  have bound : (s.vWheels 0).bound = 200 := rests.sound.wellFormed.bounds 0
  have below := Int.floor_le ((T + delay) * frameRate)
  have above := Int.lt_floor_add_one ((T + delay) * frameRate)
  generalize stateAfter env s (.op (.add delay cb cycle)) = t at adds orderly runs trace
  have new : (infoFor s delay cb cycle).id = s.timerCounter + 1 := rfl
  generalize infoFor s delay cb cycle = info at adds expires kept new
  rw [← expires, frameRate_eq] at below above
  rw [bound]
  rcases adds.outside rests new (timedS.barrier id) with
    ⟨due, inside, located⟩ | ⟨due, atBound, absent⟩ | ⟨goal, later, near, isGoal, located⟩ | ⟨tooLong, absent⟩
  · -- due, and fired in the coming frame
    have dueCast : (info.expires : ℚ) ≤ s.vCurrentFrameIdx := by exact_mod_cast due
    rw [secondPerFrame_eq] at time
    rw [located.onTime_iff orderly runs timed calm trace kept (by rw [secondPerFrame_eq]; push_cast; linarith)]
    refine iff_of_true ?_ fun both => both.2.1 inside
    rintro ⟨past, before⟩
    rw [secondPerFrame_eq] at past
    push_cast at past
    linarith
  · -- due, and without a slot
    rw [absent.onTime_iff orderly runs trace]
    exact not_congr ⟨fun late => ⟨due, atBound, late⟩, fun both => both.2.2⟩
  · -- fired in the frame it expires in
    rw [isGoal] at below above
    push_cast at below above
    rw [located.onTime_iff orderly runs timed calm trace kept (by rw [secondPerFrame_eq]; push_cast; linarith)]
    refine iff_of_true ?_ fun both => absurd both.1 (by omega)
    rintro ⟨past, before⟩
    rw [secondPerFrame_eq] at past
    push_cast at past
    linarith
  · -- too long, and dropped; the run does not come to its end
    rw [absent.onTime_iff orderly runs trace]
    have early := not_late_of_tooLong expires.le (by omega) reach
    exact iff_of_true (not_lt.mpr early) fun both => absurd both.2.2 (not_lt.mpr early)

/-- A timer that is added in a callback. -/
theorem onTime_inside {w : Nat} {timer : TimerInfo κ} {ops : List (TimerOp κ)} {result : Option Bool} {todo : List Nat}
    {cb : κ} {cycle : Int} {calls : List (TimerCall κ)}
    (orderlyS : Orderly (⟨.calling w timer (.add delay cb cycle :: ops) result todo, s⟩ : Point κ W))
    (timedS : Timed T ⟨.calling w timer (.add delay cb cycle :: ops) result todo, s⟩)
    (applied : exec (applyOp (.add delay cb cycle)) s = (.ok (), t))
    (runs : Runs env ⟨.calling w timer ops result todo, t⟩ calls ⟨.outside, u⟩)
    (timed : Timed T' ⟨.outside, u⟩) (calm : Calm u.trace) (reach : wholeFrames T' ≤ wheelSizeMul1234)
    (nonneg : 0 ≤ delay) (trace : u.trace = t.trace ++ rest) (kept : .removed (infoFor s delay cb cycle).id ∉ rest) :
    OnTime T delay T' (infoFor s delay cb cycle).id rest ↔
      ¬ ((s.vCurrentFrameIdx : Int) < (infoFor s delay cb cycle).expires ∧
        (⌊(T + delay) * frameRate⌋ : ℚ) * secondPerFrame < T' ∧ T' < T + delay) := by
  have step : Step env _ ⟨.calling w timer ops result todo, t⟩ := .op applied
  have orderly := (step.moves orderlyS).1
  have ⟨rests, _, up, known⟩ := orderlyS
  have adds : Adds s (infoFor s delay cb cycle) t := (of_exec (applyAdd_adds rests delay cb cycle) applied).2.1
  have time : s.vElapseTime + (s.vCurrentFrameIdx + 1 : Nat) * secondPerFrame = T := timedS.time
  have left : 0 ≤ s.vElapseTime := timedS.nonneg
  have expires : (infoFor s delay cb cycle).expires + 1 = ⌊(T + delay) * frameRate⌋ := by
    rw [← floor_expires (s.vCurrentFrameIdx + 1) time]
    change ⌊(delay + s.vElapseTime) * frameRate⌋ + (s.vCurrentFrameIdx : Int) + 1 = _
    push_cast
    ring
  have below := Int.floor_le ((T + delay) * frameRate)
  have above := Int.lt_floor_add_one ((T + delay) * frameRate)
  have new : (infoFor s delay cb cycle).id = s.timerCounter + 1 := rfl
  generalize infoFor s delay cb cycle = info at adds expires kept new
  rw [← expires, frameRate_eq] at below above
  push_cast at below above
  rcases adds.inside rests up known new with ⟨due, located⟩ | ⟨goal, later, near, isGoal, located⟩ | ⟨tooLong, absent⟩
  · -- due, and fired in the next frame
    have dueCast : (info.expires : ℚ) ≤ s.vCurrentFrameIdx := by exact_mod_cast due
    rw [secondPerFrame_eq] at time
    push_cast at time
    rw [located.onTime_iff orderly runs timed calm trace kept (by rw [secondPerFrame_eq]; push_cast; linarith)]
    refine iff_of_true ?_ fun both => absurd both.1 (not_lt.mpr due)
    rintro ⟨past, before⟩
    rw [secondPerFrame_eq] at past
    push_cast at past
    linarith
  · -- fired in the frame it expires in, which ends a little before its time
    rw [isGoal] at below above
    push_cast at below above
    rw [located.onTime_iff orderly runs timed calm trace kept (by rw [secondPerFrame_eq]; push_cast; linarith), ← expires,
      isGoal]
    have isLater : (s.vCurrentFrameIdx : Int) < goal := by exact_mod_cast later
    push_cast
    exact not_congr ⟨fun both => ⟨isLater, both.1, both.2⟩, fun both => ⟨both.2.1, both.2.2⟩⟩
  · -- too long, and dropped
    rw [absent.onTime_iff orderly runs trace]
    have early := not_late_of_tooLong expires.le (by omega) reach
    refine iff_of_true (not_lt.mpr early) fun both => ?_
    have most : wholeFrames T' ≤ 43200000 := reach
    rw [← not_lt, wholeFrames_lt_iff] at most
    have atLeast : (43200000 : Int) ≤ info.expires := by omega
    have far : ((43200000 : Int) : ℚ) ≤ info.expires := by exact_mod_cast atLeast
    have past := both.2.1
    rw [← expires, secondPerFrame_eq] at past
    rw [secondPerFrame_eq] at most
    push_cast at most far past
    linarith

end OnTime

/-- In a run in which no callback raises, and which takes at most 43200000 frames, a timer that is added with a delay
that is not negative, and that nobody removes, is on time.  Between calls it must not be due behind the last slot of the
first wheel.  From a callback it is early when a call of `update` ends between the last whole frame of its time and its
time, unless it was due when it was added. -/
theorem timers_on_time (env : TimerEnv κ W) (world : W) (calls more : List (TimerCall κ))
    (forward : Forward (calls ++ more)) (reach : wholeFrames (total (calls ++ more)) ≤ wheelSizeMul1234) (delay : ℚ)
    (nonneg : 0 ≤ delay) (cb : κ) (cycle : Int) (u : TimerState κ W) (calm : Calm u.trace) (rest : List TimerEvent) :
    (∀ s t, s = calls.foldl (stateAfter env) (TimerState.init world) →
      t = stateAfter env s (.op (.add delay cb cycle)) → u = more.foldl (stateAfter env) t →
      u.trace = t.trace ++ rest → .removed (infoFor s delay cb cycle).id ∉ rest →
      (OnTime (total calls) delay (total (calls ++ more)) (infoFor s delay cb cycle).id rest ↔
        ¬ ((infoFor s delay cb cycle).expires ≤ s.vCurrentFrameIdx ∧
          ¬ (s.vWheels 0).index < (s.vWheels 0).bound ∧
          total calls + delay + 2 * secondPerFrame < total (calls ++ more)))) ∧
    ∀ s t w timer ops result todo, Runs env ⟨.outside, .init world⟩ calls
        ⟨.calling w timer (.add delay cb cycle :: ops) result todo, s⟩ →
      exec (applyOp (.add delay cb cycle)) s = (.ok (), t) →
      Runs env ⟨.calling w timer ops result todo, t⟩ more ⟨.outside, u⟩ → u.trace = t.trace ++ rest →
      .removed (infoFor s delay cb cycle).id ∉ rest →
      (OnTime (total calls) delay (total (calls ++ more)) (infoFor s delay cb cycle).id rest ↔
        ¬ ((s.vCurrentFrameIdx : Int) < (infoFor s delay cb cycle).expires ∧
          (⌊(total calls + delay) * frameRate⌋ : ℚ) * secondPerFrame < total (calls ++ more) ∧
          total (calls ++ more) < total calls + delay)) := by
  have start : Orderly (⟨.outside, .init world⟩ : Point κ W) := ⟨.fresh, rests_init world⟩
  obtain ⟨forwardBefore, forwardMore⟩ := forward_append.mp forward
  have reachBefore : wholeFrames (total calls) ≤ wheelSizeMul1234 := by
    refine (wholeFrames_mono ?_).trans reach
    rw [total_append]
    linarith [forwardMore.total_nonneg]
  constructor
  · rintro s t rfl rfl rfl trace kept
    have before : Runs env ⟨.outside, .init world⟩ calls _ := runs_of_calls (rests_init world) calls
    obtain ⟨phase, rests⟩ := before.orderly start
    have added := before.stateAfter start (.op (.add delay cb cycle))
    have adds : Adds _ (infoFor _ delay cb cycle) _ := applyAdd_exec rests delay cb cycle
    have after : Runs env _ more _ := runs_of_calls (applyAdd_rests rests delay cb cycle) more
    have calmAdded := calm
    rw [trace] at calmAdded
    have calmBefore : Calm (calls.foldl (stateAfter env) (TimerState.init world)).trace := by
      have longer := calmAdded.of_append
      rw [show (stateAfter env _ (.op (.add delay cb cycle))).trace = _ from adds.trace] at longer
      exact longer.of_append
    have wholeRun := added.trans after
    have same : total (calls ++ [.op (.add delay cb cycle)] ++ more) = total (calls ++ more) := by
      simp only [total_append]
      have none : total [(.op (.add delay cb cycle) : TimerCall κ)] = 0 := by simp [total, TimerCall.elapse]
      rw [none, add_zero]
    have forwardWhole : Forward (calls ++ [.op (.add delay cb cycle)] ++ more) := by
      rw [forward_append, forward_append]
      exact ⟨⟨forwardBefore, fun x member => absurd member (by simp)⟩, forwardMore⟩
    have timed := wholeRun.timed forwardWhole calm (by rw [same]; exact reach)
    rw [same] at timed
    exact onTime_outside rests (before.timed forwardBefore calmBefore reachBefore) after timed calm reach nonneg trace
      kept
  · intro s t w timer ops result todo runs applied after trace kept
    have orderly := runs.orderly start
    have adds : Adds s (infoFor s delay cb cycle) t :=
      (of_exec (applyAdd_adds orderly.1 delay cb cycle) applied).2.1
    have calmAdded := calm
    rw [trace] at calmAdded
    have calmBefore : Calm s.trace := by
      have longer := calmAdded.of_append
      rw [adds.trace] at longer
      exact longer.of_append
    have timed := ((runs.step (.op applied)).trans after).timed forward calm reach
    exact onTime_inside orderly (runs.timed forwardBefore calmBefore reachBefore) applied after timed calm reach nonneg
      trace kept

/-- A timer of 0.1 seconds, and three frames' time. -/
def tenthAdded : TimerState Nat (List Nat) := stateAfter returningEnv (TimerState.init []) (.op (.add (1 / 10) 2 0))

/-- A timer of a tenth of a second, in a run in which it is due. -/
theorem timers_on_time_tenth :
    OnTime 0 (1 / 10) (3 / 10) 2 [.frame 0, .frameDone 0, .frame 1, .started 2 1, .frameDone 1] := by
  have history : ([(.update (3 / 10) : TimerCall Nat)].foldl (stateAfter returningEnv) tenthAdded).trace =
      tenthAdded.trace ++ [.frame 0, .frameDone 0, .frame 1, .started 2 1, .frameDone 1] := by
    decide +kernel
  have added : tenthAdded.trace = [.added 2 1 0 0] := by decide +kernel
  have time : total [(.update (3 / 10) : TimerCall Nat)] = 3 / 10 := by norm_num [total, TimerCall.elapse]
  have forward : Forward [(.update (3 / 10) : TimerCall Nat)] := by
    intro x member
    obtain rfl := TimerCall.update.inj (List.mem_singleton.mp member)
    norm_num
  have reach : wholeFrames (total [(.update (3 / 10) : TimerCall Nat)]) ≤ wheelSizeMul1234 := by
    rw [time]
    decide +kernel
  have calm : Calm ([(.update (3 / 10) : TimerCall Nat)].foldl (stateAfter returningEnv) tenthAdded).trace := by
    rw [history, added]
    intro id
    simp
  have onTime := (timers_on_time returningEnv [] [] [.update (3 / 10)] forward reach (1 / 10) (by norm_num) 2 0 _ calm
    [.frame 0, .frameDone 0, .frame 1, .started 2 1, .frameDone 1]).1 (TimerState.init []) tenthAdded rfl rfl rfl
    history (by simp)
  simp only [List.nil_append, time] at onTime
  exact onTime.mpr fun both => absurd (show 0 < 200 by decide) both.2.1

/-- Callback 1 adds a timer of 0.13 seconds. -/
def hastyEnv : TimerEnv Nat (List Nat) :=
  .inOrder fun cb id s =>
    { world := id :: s.world, ops := if cb = 1 then [.add (13 / 100) 2 0] else [], result := some true }

def hastyCalls : List (TimerCall Nat) := [.op (.add 0 1 0), .update (3 / 20), .update (1 / 10)]

/-- A timer that is added in the first call of `update`, at 0.15 seconds, with a delay of 0.13 seconds, is started at
0.25 seconds. -/
theorem hasty_timer_early :
    (hastyCalls.foldl (stateAfter hastyEnv) (TimerState.init [])).trace =
        [.added 2 0 0 0, .frame 0, .started 2 0, .added 3 1 0 0] ++
          [.frameDone 0, .frame 1, .started 3 1, .frameDone 1] ∧
      total hastyCalls = 1 / 4 ∧
      ¬ OnTime (3 / 20) (13 / 100) (1 / 4) 3 [.frameDone 0, .frame 1, .started 3 1, .frameDone 1] := by
  refine ⟨by decide +kernel, by norm_num [hastyCalls, total, TimerCall.elapse], fun onTime => ?_⟩
  exact onTime.1 (by norm_num) 1 (by simp)

end GameServer.Timer
