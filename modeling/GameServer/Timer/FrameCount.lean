/-
Module: GameServer.Timer.FrameCount
Purpose: In a run in which no callback raises, the frame counter and the time that is left are what the calls of
  `update` make of them, call by call, in the arithmetic that the program runs in.
Trusted boundary: none
Main exports: updates, tick, clockAfter, covered, InCall, Counted, Counted.moves, Runs.counted
-/
import GameServer.Timer.NewTimers

namespace GameServer.Timer

open Lib Lib.LuaM TimerState
open Arithmetic (rounding)

variable {κ W : Type} [Arithmetic]

/-! ## The clock of the calls

A call of `update` that is not stopped takes its frames out of the time that was left and of the time that it brings.
Which frames calls take is therefore a matter of their values alone, one after the other.
-/

/-- The values that `update` is called with. -/
def updates (calls : List (TimerCall κ)) : List ℚ :=
  calls.filterMap fun
    | .update elapse => some elapse
    | .op _ => none

/-- What a call of `update` makes of the frame counter and of the time that is left, if it is not stopped. -/
def tick (clock : Nat × ℚ) (elapse : ℚ) : Nat × ℚ :=
  let time := rounding.add clock.2 elapse
  (clock.1 + framesIn time, timeLeft (framesIn time) time)

/-- The frame counter and the time that is left, after calls with the given values. -/
def clockAfter (elapses : List ℚ) : Nat × ℚ := elapses.foldl tick (0, 0)

/-- The frames that calls with the given values take. -/
def covered (elapses : List ℚ) : Nat := (clockAfter elapses).1

omit [Arithmetic] in
/-- The values of two lists of calls, one behind the other. -/
theorem updates_append (before after : List (TimerCall κ)) :
    updates (before ++ after) = updates before ++ updates after := List.filterMap_append

/-- One call more. -/
theorem clockAfter_append (elapses : List ℚ) (elapse : ℚ) :
    clockAfter (elapses ++ [elapse]) = tick (clockAfter elapses) elapse := by
  rw [clockAfter, List.foldl_append]
  rfl

/-- Calls only add frames. -/
theorem le_foldl_tick (clock : Nat × ℚ) (elapses : List ℚ) : clock.1 ≤ (elapses.foldl tick clock).1 := by
  induction elapses generalizing clock with
  | nil => exact Nat.le_refl _
  | cons elapse elapses ih => exact (Nat.le_add_right _ _).trans (ih (tick clock elapse))

/-- More calls cover more frames. -/
theorem covered_le_append (before after : List ℚ) : covered before ≤ covered (before ++ after) := by
  rw [covered, covered, clockAfter, clockAfter, List.foldl_append]
  exact le_foldl_tick _ after

/-! ## Points of a run

Inside a call some of its frames have begun.  The one that is being worked off is not counted yet.
-/

/-- In a call that found the given clock, so many frames have begun. -/
structure InCall (clock : Nat × ℚ) (elapse : ℚ) (begun : Nat) (p : Point κ W) : Prop where
  frame : p.state.vCurrentFrameIdx + p.mode.inFrame = clock.1 + begun
  left : p.state.vElapseTime = timeLeft begun (rounding.add clock.2 elapse)
  atMost : begun ≤ framesIn (rounding.add clock.2 elapse)

/-- The clock is that of the calls; in a call of `update` it is on its way there. -/
def Counted (calls : List (TimerCall κ)) (p : Point κ W) : Prop :=
  match p.mode with
  | .outside => clockAfter (updates calls) = (p.state.vCurrentFrameIdx, p.state.vElapseTime)
  | _ => ∃ before elapse begun, updates calls = before ++ [elapse] ∧ InCall (clockAfter before) elapse begun p

section Counted

variable {env : TimerEnv κ W} {calls : List (TimerCall κ)} {clock : Nat × ℚ} {elapse : ℚ} {begun : Nat}
  {p q : Point κ W} {s : TimerState κ W}

/-- Within a frame nothing is counted. -/
theorem InCall.within (inCall : InCall clock elapse begun p) (frames : q.mode.inFrame = p.mode.inFrame)
    (left : q.state.vElapseTime = p.state.vElapseTime)
    (frame : q.state.vCurrentFrameIdx = p.state.vCurrentFrameIdx) : InCall clock elapse begun q := by
  refine ⟨?_, left.trans inCall.left, inCall.atMost⟩
  rw [frame, frames]
  exact inCall.frame

/-- Another frame of the call begins as long as there is time for it. -/
theorem InCall.begins_iff (inCall : InCall clock elapse begun ⟨.turning, s⟩)
    (reach : (tick clock elapse).1 ≤ wheelSizeMul1234) :
    begun < framesIn (rounding.add clock.2 elapse) ↔ s.vElapseTime > secondPerFrame := by
  obtain ⟨-, left, atMost⟩ := inCall
  change clock.1 + framesIn (rounding.add clock.2 elapse) ≤ wheelSizeMul1234 at reach
  have enough : framesIn (rounding.add clock.2 elapse) < turnsFor (rounding.add clock.2 elapse) := by
    have turns := lt_turnsFor (rounding.add clock.2 elapse)
    omega
  change s.vElapseTime = _ at left
  rw [left]
  exact lt_framesTaken_iff enough atMost

/-- When the loop stops, all frames of the call have begun. -/
theorem InCall.all (inCall : InCall clock elapse begun ⟨.turning, s⟩) (less : ¬ s.vElapseTime > secondPerFrame)
    (reach : (tick clock elapse).1 ≤ wheelSizeMul1234) : (s.vCurrentFrameIdx, s.vElapseTime) = tick clock elapse := by
  have none : ¬ begun < framesIn (rounding.add clock.2 elapse) := fun another => less ((inCall.begins_iff reach).mp another)
  obtain rfl := Nat.eq_of_le_of_lt_succ (not_lt.mp none) (Nat.lt_succ_of_le inCall.atMost)
  exact Prod.ext inCall.frame inCall.left

/-- A step keeps count, as long as no callback raises and the wheels reach. -/
theorem Counted.moves (reach : covered (updates calls) ≤ wheelSizeMul1234) (calm : Calm q.state.trace)
    (counted : Counted calls p) (moves : Moves env p q) : Counted calls q := by
  cases moves with
  | stop less =>
      obtain ⟨before, elapse, begun, last, inCall⟩ := counted
      rw [covered, last, clockAfter_append] at reach
      change clockAfter (updates calls) = _
      rw [last, clockAfter_append]
      exact (inCall.all less reach).symm
  | @begin s t more moved ids visited =>
      obtain ⟨before, elapse, begun, last, inCall⟩ := counted
      rw [covered, last, clockAfter_append] at reach
      refine ⟨before, elapse, begun + 1, last, ?_, ?_, (inCall.begins_iff reach).mpr more⟩
      · change t.vCurrentFrameIdx + 1 = _
        rw [show t.vCurrentFrameIdx = s.vCurrentFrameIdx from moved.clock.1]
        exact congrArg (· + 1) inCall.frame
      · rw [timeLeft_succ, ← inCall.left]
        exact moved.clock.2.2
  | @beginRaised s t more moved fifty =>
      obtain ⟨before, elapse, begun, last, inCall⟩ := counted
      rw [covered, last, clockAfter_append] at reach
      -- the frame is one of the call, and the wheels reach over it
      have inside := (inCall.begins_iff reach).mpr more
      have far := Nat.le_of_dvd fifty.1 (Nat.dvd_of_mod_eq_zero fifty.2)
      have frame : s.vCurrentFrameIdx + 0 = (clockAfter before).1 + begun := inCall.frame
      change (clockAfter before).1 + framesIn (rounding.add (clockAfter before).2 elapse) ≤ wheelSizeMul1234 at reach
      omega
  | gone none =>
      obtain ⟨before, elapse, begun, last, inCall⟩ := counted
      exact ⟨before, elapse, begun, last, inCall.within rfl rfl rfl⟩
  | start there called =>
      obtain ⟨before, elapse, begun, last, inCall⟩ := counted
      exact ⟨before, elapse, begun, last, inCall.within rfl rfl rfl⟩
  | add adds slot =>
      obtain ⟨before, elapse, begun, last, inCall⟩ := counted
      exact ⟨before, elapse, begun, last, inCall.within rfl adds.clock.elapse adds.clock.frame⟩
  | remove removes =>
      obtain ⟨before, elapse, begun, last, inCall⟩ := counted
      exact ⟨before, elapse, begun, last, inCall.within rfl removes.clock.elapse removes.clock.frame⟩
  | @raised s w timer todo => exact absurd (by simp [TimerState.record]) (calm timer.id)
  | returned finishes =>
      obtain ⟨before, elapse, begun, last, inCall⟩ := counted
      exact ⟨before, elapse, begun, last, inCall.within rfl finishes.clock.elapse finishes.clock.frame⟩
  | frameDone =>
      obtain ⟨before, elapse, begun, last, inCall⟩ := counted
      exact ⟨before, elapse, begun, last, inCall.frame, inCall.left, inCall.atMost⟩

/-- A call finds the clock of the calls before it. -/
theorem Counted.callPoint {phase : Phase} (rests : Rests phase s) (counted : Counted calls ⟨.outside, s⟩)
    (call : TimerCall κ) : Counted (calls ++ [call]) (callPoint s call) := by
  change clockAfter (updates calls) = (s.vCurrentFrameIdx, s.vElapseTime) at counted
  cases call with
  | update elapse =>
      refine ⟨updates calls, elapse, 0, updates_append _ _, ?_, ?_, Nat.zero_le _⟩
      · rw [counted]
        rfl
      · rw [counted]
        rfl
  | op op =>
      have same : updates (calls ++ [.op op]) = updates calls := by
        rw [updates_append]
        exact List.append_nil _
      change clockAfter (updates (calls ++ [.op op])) = (_, _)
      rw [same, counted]
      cases op with
      | add expires cb cycle =>
          have adds := applyAdd_exec rests expires cb cycle
          exact Prod.ext adds.clock.frame.symm adds.clock.elapse.symm
      | remove id =>
          have removes := applyRemove_exec rests id
          exact Prod.ext removes.clock.frame.symm removes.clock.elapse.symm

/-- The count at every point of a run in which no callback raises. -/
theorem Runs.counted {world : W} (runs : Runs env ⟨.outside, .init world⟩ calls p) (calm : Calm p.state.trace)
    (reach : covered (updates calls) ≤ wheelSizeMul1234) : Counted calls p := by
  have start : Orderly (⟨.outside, .init world⟩ : Point κ W) := ⟨.fresh, rests_init world⟩
  induction runs with
  | nil => rfl
  | @call calls s runs call ih =>
      obtain ⟨phase, rests⟩ := runs.orderly start
      obtain ⟨events, grown⟩ := callPoint_trace rests call
      rw [grown] at calm
      rw [updates_append] at reach
      exact (ih calm.of_append ((covered_le_append _ _).trans reach)).callPoint rests call
  | @step calls q r runs step ih =>
      obtain ⟨-, moves⟩ := step.moves (runs.orderly start)
      obtain ⟨events, grown⟩ := moves.trace
      have before := ih (by
        rw [grown] at calm
        exact calm.of_append) reach
      exact before.moves reach calm moves

end Counted

end GameServer.Timer
