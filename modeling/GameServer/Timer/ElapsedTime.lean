/-
Module: GameServer.Timer.ElapsedTime
Purpose: In a run without errors the frames that were worked off and the time that is left make up the total of all
  elapsed time; so the frame a timer waits for tells by which total it has been started.
Trusted boundary: none
Main exports: total, Timed, Runs.timed, Timed.lt_frame_iff, started_iff
-/
import Mathlib.Algebra.Order.BigOperators.Group.List
import GameServer.Timer.NewTimers

namespace GameServer.Timer

open Lib Lib.LuaM TimerState
open scoped ExactArithmetic

variable {κ W : Type}

/-! ## Time

With exact time the frame counter and the time that is left make up the total that `update` has been passed.
-/

/-- The time that a call brings. -/
def TimerCall.elapse : TimerCall κ → ℚ
  | .update elapse => elapse
  | .op _ => 0

/-- The sum of all values passed to `update`. -/
def total (calls : List (TimerCall κ)) : ℚ := (calls.map TimerCall.elapse).sum

/-- Totals add up. -/
theorem total_append (first second : List (TimerCall κ)) : total (first ++ second) = total first + total second := by
  simp [total]

/-- Time does not go back. -/
theorem Forward.total_nonneg {calls : List (TimerCall κ)} (forward : Forward calls) : 0 ≤ total calls := by
  refine List.sum_nonneg fun x member => ?_
  obtain ⟨call, inside, rfl⟩ := List.mem_map.mp member
  cases call with
  | update elapse => exact (forward elapse inside).le
  | op op => exact le_refl 0

/-- Frames and time left make up the total; some time is left once there was a frame, and after `update` at most one
frame's; the barrier is up in callbacks alone; and what was started was started by now. -/
structure Timed (T : ℚ) (p : Point κ W) : Prop where
  time : p.state.vElapseTime + (p.state.vCurrentFrameIdx + p.mode.inFrame : Nat) * secondPerFrame = T
  nonneg : 0 ≤ p.state.vElapseTime
  left : 0 < p.state.vCurrentFrameIdx + p.mode.inFrame → 0 < p.state.vElapseTime
  rest : p.mode = .outside → p.state.vElapseTime ≤ secondPerFrame
  barrier : ¬ p.mode.isCall → p.state.innerBarrier = false
  starts : ∀ id frame, .started id frame ∈ p.state.trace → frame < p.state.vCurrentFrameIdx + p.mode.inFrame

section Timed

variable {env : TimerEnv κ W} {T : ℚ} {p q : Point κ W} {s t : TimerState κ W} {mode : Mode κ}

/-- Adding and removing timers takes no time. -/
theorem Timed.does {mode' : Mode κ} (timed : Timed T ⟨mode, s⟩) {event : TimerEvent} {counter : Nat}
    {members : Fin 4 → Nat → TimerInfo κ → Prop} (does : Does s event counter members t)
    (notStarted : ∀ id frame, event ≠ .started id frame) (frames : mode'.inFrame = mode.inFrame)
    (call : mode'.isCall ↔ mode.isCall) (rest : mode' = .outside → mode = .outside) : Timed T ⟨mode', t⟩ := by
  have elapse : t.vElapseTime = s.vElapseTime := does.clock.elapse
  have frame : t.vCurrentFrameIdx = s.vCurrentFrameIdx := does.clock.frame
  refine ⟨?_, ?_, ?_, fun outside => ?_, fun notCall => ?_, fun id g member => ?_⟩
  · change t.vElapseTime + (t.vCurrentFrameIdx + mode'.inFrame : Nat) * secondPerFrame = T
    rw [elapse, frame, frames]
    exact timed.time
  · change 0 ≤ t.vElapseTime
    rw [elapse]
    exact timed.nonneg
  · change 0 < t.vCurrentFrameIdx + mode'.inFrame → 0 < t.vElapseTime
    rw [elapse, frame, frames]
    exact timed.left
  · change t.vElapseTime ≤ secondPerFrame
    rw [elapse]
    exact timed.rest (rest outside)
  · exact does.clock.barrier.trans (timed.barrier fun isCall => notCall (call.mpr isCall))
  · change g < t.vCurrentFrameIdx + mode'.inFrame
    change .started id g ∈ t.trace at member
    rw [does.trace] at member
    rw [frame, frames]
    rcases List.mem_append.mp member with before | last
    · exact timed.starts id g before
    · exact absurd (List.mem_singleton.mp last).symm (notStarted id g)

/-- A frame is among the whole ones when the time goes past its end. -/
theorem wholeFrames_lt_iff (n : Nat) (x : ℚ) : n < wholeFrames x ↔ (n + 1 : Nat) * secondPerFrame < x := by
  have scaled : x * frameRate = x / secondPerFrame := by
    rw [frameRate_eq, secondPerFrame_eq]
    ring
  have positive : (0 : ℚ) < secondPerFrame := by norm_num [secondPerFrame_eq]
  rw [wholeFrames, scaled, Nat.lt_sub_iff_add_lt, Nat.lt_ceil, lt_div_iff₀ positive]

/-- Without errors a step keeps time. -/
theorem Timed.moves (reach : wholeFrames T ≤ wheelSizeMul1234) (calm : Calm q.state.trace) (timed : Timed T p)
    (moves : Moves env p q) : Timed T q := by
  have positive : (0 : ℚ) < secondPerFrame := by norm_num [secondPerFrame_eq]
  cases moves with
  | stop less => exact ⟨timed.time, timed.nonneg, timed.left, fun _ => not_lt.mp less, timed.barrier, timed.starts⟩
  | @begin s t more moved ids visited =>
      have elapse : t.vElapseTime = s.vElapseTime - secondPerFrame := moved.clock.2.2
      have frame : t.vCurrentFrameIdx = s.vCurrentFrameIdx := moved.clock.1
      have some : 0 < t.vElapseTime := by
        rw [elapse]
        linarith
      have time := timed.time
      refine ⟨?_, some.le, fun _ => some, fun outside => absurd outside (by simp), fun _ => ?_, fun id g member => ?_⟩
      · change t.vElapseTime + (t.vCurrentFrameIdx + 1 : Nat) * secondPerFrame = T
        change s.vElapseTime + (s.vCurrentFrameIdx + 0 : Nat) * secondPerFrame = T at time
        rw [elapse, frame, ← time]
        push_cast
        ring
      · exact moved.clock.2.1.trans (timed.barrier id)
      · change .started id g ∈ t.trace at member
        change g < t.vCurrentFrameIdx + 1
        rw [moved.history.1] at member
        rw [frame]
        rcases List.mem_append.mp member with before | last
        · exact Nat.lt_succ_of_lt (timed.starts id g before)
        · exact absurd (List.mem_singleton.mp last) (by simp)
  | @beginRaised s t more moved fifty =>
      obtain ⟨some, aligned⟩ := fifty
      have far : wheelSizeMul1234 ≤ s.vCurrentFrameIdx := Nat.le_of_dvd some (Nat.dvd_of_mod_eq_zero aligned)
      have beyond : s.vCurrentFrameIdx < wholeFrames T := by
        have time := timed.time
        change s.vElapseTime + (s.vCurrentFrameIdx + 0 : Nat) * secondPerFrame = T at time
        rw [wholeFrames_lt_iff, ← time]
        push_cast
        linarith
      omega
  | gone none => exact ⟨timed.time, timed.nonneg, timed.left, fun outside => absurd outside (by simp), timed.barrier,
      timed.starts⟩
  | @start s w todo timer run there called =>
      refine ⟨timed.time, timed.nonneg, timed.left, fun outside => absurd outside (by simp),
        fun notCall => absurd trivial notCall, fun id g member => ?_⟩
      change g < s.vCurrentFrameIdx + 1
      rcases List.mem_append.mp member with before | last
      · exact timed.starts id g before
      · obtain ⟨-, rfl⟩ := TimerEvent.started.inj (List.mem_singleton.mp last)
        exact Nat.lt_succ_self _
  | add adds slot => exact timed.does adds (by simp) rfl Iff.rfl (by simp)
  | remove removes => exact timed.does removes (by simp) rfl Iff.rfl (by simp)
  | @raised s w timer todo => exact absurd (by simp [TimerState.record]) (calm timer.id)
  | @returned s t w timer result todo finishes =>
      have elapse : t.vElapseTime = s.vElapseTime := finishes.clock.elapse
      have frame : t.vCurrentFrameIdx = s.vCurrentFrameIdx := finishes.clock.frame
      have trace : t.trace = s.trace := finishes.history.1
      refine ⟨?_, ?_, ?_, fun outside => absurd outside (by simp), fun _ => finishes.clock.barrier,
        fun id g member => ?_⟩
      · change t.vElapseTime + (t.vCurrentFrameIdx + 1 : Nat) * secondPerFrame = T
        rw [elapse, frame]
        exact timed.time
      · change 0 ≤ t.vElapseTime
        rw [elapse]
        exact timed.nonneg
      · change 0 < t.vCurrentFrameIdx + 1 → 0 < t.vElapseTime
        rw [elapse, frame]
        exact timed.left
      · change g < t.vCurrentFrameIdx + 1
        change .started id g ∈ t.trace at member
        rw [trace] at member
        rw [frame]
        exact timed.starts id g member
  | @frameDone s w =>
      refine ⟨timed.time, timed.nonneg, fun _ => timed.left (Nat.succ_pos _), fun outside => absurd outside (by simp),
        fun _ => timed.barrier id, fun id g member => ?_⟩
      rcases List.mem_append.mp member with before | last
      · exact timed.starts id g before
      · exact absurd (List.mem_singleton.mp last) (by simp)

/-- A call brings its time. -/
theorem Timed.callPoint {phase : Phase} (rests : Rests phase s) (timed : Timed T ⟨.outside, s⟩) (call : TimerCall κ)
    (forward : Forward [call]) : Timed (T + call.elapse) (callPoint s call) := by
  cases call with
  | update elapse =>
      have positive : 0 < elapse := forward elapse (by simp)
      have nonneg : 0 ≤ s.vElapseTime := timed.nonneg
      have some : 0 < s.vElapseTime + elapse := by linarith
      refine ⟨?_, some.le, fun _ => some, fun outside => absurd outside (by simp [GameServer.Timer.callPoint]),
        fun _ => timed.barrier id, timed.starts⟩
      have time := timed.time
      change s.vElapseTime + (s.vCurrentFrameIdx + 0 : Nat) * secondPerFrame = T at time
      change s.vElapseTime + elapse + (s.vCurrentFrameIdx + 0 : Nat) * secondPerFrame = T + elapse
      linarith
  | op op =>
      change Timed (T + 0) _
      rw [add_zero]
      cases op with
      | add expires cb cycle =>
          exact timed.does (applyAdd_exec rests expires cb cycle) (by simp) rfl Iff.rfl fun _ => rfl
      | remove id => exact timed.does (applyRemove_exec rests id) (by simp) rfl Iff.rfl fun _ => rfl

/-- Time at every point of a run without errors. -/
theorem Runs.timed {world : W} {calls : List (TimerCall κ)} (runs : Runs env ⟨.outside, .init world⟩ calls p)
    (forward : Forward calls) (calm : Calm p.state.trace) (reach : wholeFrames (total calls) ≤ wheelSizeMul1234) :
    Timed (total calls) p := by
  have start : Orderly (⟨.outside, .init world⟩ : Point κ W) := ⟨.fresh, rests_init world⟩
  induction runs with
  | nil =>
      refine ⟨by norm_num [total, TimerState.init, Mode.inFrame], le_refl _,
        fun some => absurd some (Nat.lt_irrefl 0), fun _ => ?_, fun _ => rfl, fun id g member => ?_⟩
      · norm_num [TimerState.init, secondPerFrame_eq]
      · exact absurd member (by simp [TimerState.init])
  | @call calls s runs call ih =>
      obtain ⟨phase, rests⟩ := runs.orderly start
      obtain ⟨events, grown⟩ := callPoint_trace rests call
      rw [grown] at calm
      obtain ⟨forwardBefore, forwardCall⟩ := forward_append.mp forward
      rw [total_append] at reach ⊢
      have nonneg : 0 ≤ total [call] := forwardCall.total_nonneg
      have before := ih forwardBefore calm.of_append ((wholeFrames_mono (by linarith)).trans reach)
      have last : total [call] = call.elapse := by simp [total]
      rw [last]
      exact before.callPoint rests call forwardCall
  | @step calls q r runs step ih =>
      obtain ⟨-, moves⟩ := step.moves (runs.orderly start)
      obtain ⟨events, grown⟩ := moves.trace
      have before := ih forward (by
        rw [grown] at calm
        exact calm.of_append) reach
      exact before.moves reach calm moves

/-- A frame is over exactly when the total is past its end. -/
theorem Timed.lt_frame_iff {u : TimerState κ W} (timed : Timed T ⟨.outside, u⟩) (frame : Nat) :
    frame < u.vCurrentFrameIdx ↔ (frame + 1 : Nat) * secondPerFrame < T := by
  have positive : (0 : ℚ) < secondPerFrame := by norm_num [secondPerFrame_eq]
  have time : u.vElapseTime + (u.vCurrentFrameIdx : ℚ) * secondPerFrame = T := timed.time
  have atMost : u.vElapseTime ≤ secondPerFrame := timed.rest rfl
  rw [← time]
  constructor
  · intro past
    have some : 0 < u.vElapseTime := timed.left (Nat.zero_lt_of_lt past)
    have le : ((frame + 1 : Nat) : ℚ) ≤ u.vCurrentFrameIdx := by exact_mod_cast past
    have scaled := mul_le_mul_of_nonneg_right le positive.le
    linarith
  · intro past
    by_contra before
    have le : (u.vCurrentFrameIdx : ℚ) ≤ frame := by exact_mod_cast not_lt.mp before
    have scaled := mul_le_mul_of_nonneg_right le positive.le
    push_cast at past
    linarith

end Timed

/-! ## Timers and time

When a timer that waits for a frame has been started, in terms of the total.
-/

section Started

variable {env : TimerEnv κ W} {timer : TimerInfo κ} {goal : Nat} {p : Point κ W} {u : TimerState κ W} {T : ℚ}

/-- In a calm run a timer that nobody removes has been started exactly when its frame is over. -/
theorem started_iff (orderly : Orderly p) (located : Located True timer goal p) {calls : List (TimerCall κ)}
    (runs : Runs env p calls ⟨.outside, u⟩) (timed : Timed T ⟨.outside, u⟩) (calm : Calm u.trace)
    {rest : List TimerEvent} (trace : u.trace = p.state.trace ++ rest) (kept : .removed timer.id ∉ rest) :
    (∃ frame, .started timer.id frame ∈ rest) ↔ goal < u.vCurrentFrameIdx := by
  obtain ⟨rest', trace', fires, still⟩ := located.followed orderly runs
  obtain rfl : rest' = rest := List.append_cancel_left (trace'.symm.trans trace)
  have onlyStart : ∀ e ∈ rest', Parts True timer.id e → ∃ frame, e = .started timer.id frame := by
    rintro e member (rfl | isStart | ⟨-, k, rfl⟩)
    · exact absurd member kept
    · exact isStart
    · exact absurd (trace ▸ List.mem_append_right _ member) (calm k)
  constructor
  · rintro ⟨frame, member⟩
    -- the first start is in the frame that the timer waits for
    have some : ∃ e ∈ rest', Parts True timer.id e := ⟨_, member, Or.inr (Or.inl ⟨frame, rfl⟩)⟩
    obtain ⟨before, e, after, split, parts, quiet⟩ := exists_first some
    obtain ⟨first, rfl⟩ := onlyStart e (by simp [split]) parts
    have isGoal : first = goal := (fires before _ after split quiet).1 first rfl
    subst isGoal
    have inTrace : .started timer.id first ∈ u.trace := by simp [trace, split]
    exact timed.starts timer.id first inTrace
  · intro past
    by_contra none
    have quiet : ∀ e ∈ rest', ¬ Parts True timer.id e := by
      intro e member parts
      obtain ⟨frame, rfl⟩ := onlyStart e member parts
      exact none ⟨frame, member⟩
    obtain ⟨phase, rests⟩ := runs.orderly orderly
    exact absurd ((still quiet).1.frame_le rests) (not_le.mpr past)

end Started

end GameServer.Timer
