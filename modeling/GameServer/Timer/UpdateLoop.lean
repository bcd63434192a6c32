/-
Module: GameServer.Timer.UpdateLoop
Purpose: Which calls of `update` complete, whatever the timers are: the indices of the wheels in every frame, and the
  frame in which the fourth wheel is at its bound.
Trusted boundary: none
Main exports: Standing, updateFrame_completes, updateFrame_raises, wholeFrames, Completes, Lasts, run_completes_iff
-/
import Mathlib.Data.Fintype.Basic
import Mathlib.Tactic.FinCases
import GameServer.Lib.Runs
import GameServer.Timer.Cascade

namespace GameServer.Timer

open Lib Lib.LuaM TimerState
open Arithmetic (rounding)

variable {κ W : Type} (env : TimerEnv κ W)

/-! ## Where the wheels stand

Between two frames the indices of the wheels are a function of the frame counter. Whether a cascade or a new timer
finds its slot depends on nothing else, whatever timers are in the slots.
-/

/-- The clock, the bounds of the wheels and the time that is left. -/
structure Standing (frame : Nat) (index : Fin 4 → Nat) (barrier : Bool) (elapse : ℚ) (s : TimerState κ W) : Prop where
  clock : Clock frame index barrier s
  bounds : ∀ w, (s.vWheels w).bound = wheelBound w
  elapse : s.vElapseTime = elapse

section Standing

variable {frame : Nat} {index : Fin 4 → Nat} {barrier : Bool} {elapse : ℚ} {s t : TimerState κ W}

/-- Changes of slots and of the map leave the wheels where they stand. -/
theorem Standing.of_same (standing : Standing frame index barrier elapse s) (same : SameClock s t) :
    Standing frame index barrier elapse t :=
  ⟨standing.clock.of_same same, fun w => (same.bound w).trans (standing.bounds w), same.elapse.trans standing.elapse⟩

theorem Standing.setIndex (standing : Standing frame index barrier elapse s) (w : Fin 4) (value : Nat) :
    Standing frame (Function.update index w value) barrier elapse (s.setIndex w value) := by
  refine ⟨standing.clock.setIndex w value, fun w' => ?_, standing.elapse⟩
  by_cases wheel : w' = w
  · subst wheel
    simpa [TimerState.setIndex, TimerState.setWheel] using standing.bounds w'
  · simpa [TimerState.setIndex, TimerState.setWheel, wheel] using standing.bounds w'

/-- The slot of a timer is in its wheel, unless the timer is due and the first wheel is at its bound. -/
theorem slotFor_inside {e : Int} {w : Fin 4} {i : Nat} (choice : s.slotFor e = some (w, i))
    (ready : e ≤ s.vCurrentFrameIdx → s.innerBarrier = true ∨ (s.vWheels 0).index < wheelSize1) : i < wheelBound w := by
  have sizes : wheelSize1 = 200 ∧ wheelSize2 = 60 ∧ wheelSize3 = 60 ∧ wheelSize4 = 60 := by decide
  obtain ⟨one, two, three, four⟩ := sizes
  rw [one] at ready
  simp only [slotFor, one, two, three, four] at choice
  split_ifs at choice with due barrier first second third fourth
  · obtain ⟨rfl, rfl⟩ := Prod.mk.inj (Option.some.inj choice)
    exact Nat.mod_lt _ (by decide)
  · obtain ⟨rfl, rfl⟩ := Prod.mk.inj (Option.some.inj choice)
    rcases ready (by omega) with inside | below
    · exact absurd inside barrier
    · exact below
  · obtain ⟨rfl, rfl⟩ := Prod.mk.inj (Option.some.inj choice)
    simp only [wheelBound, one]
    omega
  · obtain ⟨rfl, rfl⟩ := Prod.mk.inj (Option.some.inj choice)
    simp only [wheelBound, two]
    omega
  · obtain ⟨rfl, rfl⟩ := Prod.mk.inj (Option.some.inj choice)
    simp only [wheelBound, three]
    omega
  · obtain ⟨rfl, rfl⟩ := Prod.mk.inj (Option.some.inj choice)
    simp only [wheelBound, four]
    omega

end Standing

/-! ## What cannot raise

Each function returns from a state that stands well, and leaves the clock alone; callbacks return by assumption.
-/

section Operations

variable {frame : Nat} {index : Fin 4 → Nat} {barrier : Bool} {elapse : ℚ} {s : TimerState κ W}

/-- A timer finds its slot when the first index is inside its wheel, or the timer is not due. -/
theorem internalAddTimer_completes (standing : Standing frame index barrier elapse s) (timer : TimerInfo κ)
    (ready : timer.expires ≤ frame → barrier = true ∨ index 0 < wheelSize1) :
    wp (internalAddTimer timer) (fun _ t => Standing frame index barrier elapse t) (fun _ => False) s := by
  simp only [internalAddTimer, wp_bind, wp_get]
  cases choice : s.slotFor timer.expires with
  | none => exact standing
  | some place =>
      obtain ⟨w, i⟩ := place
      have inside : i < wheelBound w := by
        apply slotFor_inside choice
        rw [standing.clock.frame, standing.clock.barrier, standing.clock.index]
        exact ready
      simp only [standing.bounds, if_pos inside, wp_modify]
      exact standing.of_same (sameClock_store s w i timer)

theorem removeTimer_completes (standing : Standing frame index barrier elapse s) (id : Nat) :
    wp (removeTimer id) (fun _ t => Standing frame index barrier elapse t) (fun _ => False) s := by
  simp only [removeTimer, wp_bind, wp_get]
  cases s.vIndexSlotMap id with
  | none => exact standing
  | some place =>
      obtain ⟨w, i⟩ := place
      simp only [wp_bind, wp_modify, wp_pure]
      exact standing.of_same (sameClock_erase s w i id)

/-- A timer that is added is due if it has less than a frame to wait. -/
theorem addTimer_completes [Arithmetic] (standing : Standing frame index barrier elapse s) (expires : ℚ) (cb : κ)
    (cycle : Int) (ready : framesUntil expires elapse ≤ 0 → barrier = true ∨ index 0 < wheelSize1) :
    wp (addTimer expires cb cycle) (fun _ t => Standing frame index barrier elapse t) (fun _ => False) s := by
  simp only [addTimer, wp_bind, wp_modify, wp_get, wp_pure]
  apply internalAddTimer_completes
  · exact ⟨⟨standing.clock.frame, standing.clock.index, standing.clock.barrier⟩, standing.bounds, standing.elapse⟩
  · intro due
    apply ready
    simp only [newInfo, standing.elapse, standing.clock.frame] at due
    omega

/-- In a callback, every call of the wheel completes. -/
theorem applyOp_completes [Arithmetic] (standing : Standing frame index true elapse s) (op : TimerOp κ) :
    wp (applyOp op) (fun _ t => Standing frame index true elapse t) (fun _ => False) s := by
  cases op with
  | add expires cb cycle =>
      simp only [applyOp, wp_bind, wp_pure]
      exact addTimer_completes standing expires cb cycle fun _ => Or.inl rfl
  | remove id =>
      simp only [applyOp, wp_bind, wp_modify, wp_pure]
      apply removeTimer_completes
      exact ⟨⟨standing.clock.frame, standing.clock.index, standing.clock.barrier⟩, standing.bounds, standing.elapse⟩

/-- A callback that returns leaves the wheels where they stand. -/
theorem callTimer_completes [Arithmetic] (returns : ∀ cb id s, (env.callback cb id s).result ≠ none)
    (standing : Standing frame index false elapse s) (timer : TimerInfo κ) :
    wp (callTimer env timer) (fun _ t => Standing frame index false elapse t) (fun _ => False) s := by
  simp only [callTimer, wp_bind, wp_modify, wp_get]
  generalize called : env.callback timer.callback timer.id _ = run
  have returned : run.result ≠ none := by
    rw [← called]
    exact returns _ _ _
  refine wp_mono (wp_forEach (I := fun _ t => Standing frame index true elapse t)
    (fun op _ t inside => applyOp_completes inside op) ?_) (fun _ t inside => ?_) fun _ never => never
  · exact ⟨⟨standing.clock.frame, standing.clock.index, rfl⟩, standing.bounds, standing.elapse⟩
  · cases result : run.result with
    | none => exact absurd result returned
    | some value =>
        simp only [wp_bind, wp_modify, wp_pure]
        exact ⟨⟨inside.clock.frame, inside.clock.index, rfl⟩, inside.bounds, inside.elapse⟩

/-- One timer of the current slot. -/
theorem fireTimer_completes [Arithmetic] (returns : ∀ cb id s, (env.callback cb id s).result ≠ none)
    (standing : Standing frame index false elapse s) (below : index 0 < wheelSize1) (wheelIndex idx : Nat) :
    wp (fireTimer env wheelIndex idx) (fun _ t => Standing frame index false elapse t) (fun _ => False) s := by
  simp only [fireTimer, wp_bind, wp_get]
  cases (s.slot 0 wheelIndex).find? fun t => t.id = idx with
  | none => exact standing
  | some timer =>
      simp only [wp_bind]
      refine wp_mono (callTimer_completes env returns standing timer) (fun result t called => ?_) fun _ never => never
      refine wp_mono (removeTimer_completes called idx) (fun _ u removed => ?_) fun _ never => never
      rw [wp_ite]
      refine ⟨fun _ => internalAddTimer_completes removed _ fun _ => Or.inr below, fun _ => removed⟩

/-- Wheel `w` is cascaded while its index is below its bound. -/
theorem cascadeTimers_completes (standing : Standing frame index barrier elapse s) (first : index 0 < wheelSize1)
    {w : Fin 4} (below : index w < wheelBound w) :
    wp (cascadeTimers env w) (fun _ t => Standing frame (Function.update index w (index w + 1)) barrier elapse t)
      (fun _ => False) s := by
  simp only [cascadeTimers, wp_bind, wp_get]
  rw [standing.clock.index, standing.bounds, if_pos below]
  simp only [wp_bind, wp_modify]
  refine wp_mono (wp_forEach (I := fun _ t => Standing frame index barrier elapse t)
    (fun timer _ t inside => internalAddTimer_completes inside timer fun _ => Or.inr first) standing)
    (fun _ t cascaded => ?_) fun _ never => never
  have emptied := cascaded.of_same (sameClock_setSlot t w (index w) [])
  rw [emptied.clock.index]
  exact emptied.setIndex w _

end Operations

/-! ## Frames

A frame is worked off exactly when one of the four wheels has a slot left for it. In frame 43200000, and in every
multiple of it, none has one, and the cascade behind the fourth wheel raises.
-/

section Frames

variable {frame : Nat} {barrier : Bool} {elapse : ℚ} {s : TimerState κ W}

/-- The step from wheel `w` to the next one: it is cascaded if it is due, and otherwise the indices are those of the
frame. -/
theorem cascade_turn_spec {Q : Unit → TimerState κ W → Prop} {R : TimerState κ W → Prop} (w : Fin 3)
    {behind : List (Fin 4)} (due : w.castSucc ≠ 0 → 0 < frame ∧ frame % slotSpan w.castSucc = 0)
    (rest : 0 < frame ∧ frame % slotSpan w.succ = 0 → ∀ t, Standing frame (indexAfter frame w.succ) barrier elapse t →
      wp (cascade env behind w.succ) Q R t)
    (done : ¬ (0 < frame ∧ frame % slotSpan w.succ = 0) →
      ∀ t, Standing frame (frameIndex frame) barrier elapse t → Q () t)
    (standing : Standing frame (indexAfter frame w.castSucc) barrier elapse s) :
    wp (cascade env (w.succ :: behind) w.castSucc) Q R s := by
  simp only [cascade, wp_bind, wp_get]
  rw [standing.clock.index, standing.bounds]
  by_cases isDue : 0 < frame ∧ frame % slotSpan w.succ = 0
  · rw [if_pos ((atBound_iff w due).mpr isDue)]
    simp only [wp_bind, wp_modify]
    have reset := standing.setIndex w.castSucc 0
    have first : Function.update (indexAfter frame w.castSucc) w.castSucc 0 0 < wheelSize1 := by
      fin_cases w <;> exact Nat.zero_lt_succ _
    have below : Function.update (indexAfter frame w.castSucc) w.castSucc 0 w.succ < wheelBound w.succ := by
      fin_cases w <;> exact Nat.mod_lt _ (by decide)
    refine wp_mono (cascadeTimers_completes env reset first below) (fun _ t cascaded => ?_) fun _ never => never.elim
    rw [update_indexAfter] at cascaded
    exact rest isDue t cascaded
  · rw [if_neg fun atBound => isDue ((atBound_iff w due).mp atBound)]
    rw [indexAfter_eq w due isDue] at standing
    exact done isDue s standing

/-- The three steps of a frame, and what happens at the fourth wheel. -/
theorem cascade_spec {Q : Unit → TimerState κ W → Prop} {R : TimerState κ W → Prop}
    (done : ¬ (0 < frame ∧ frame % slotSpan 3 = 0) → ∀ t, Standing frame (frameIndex frame) barrier elapse t → Q () t)
    (last : 0 < frame ∧ frame % slotSpan 3 = 0 → ∀ t, Standing frame (indexAfter frame 3) barrier elapse t →
      wp (cascade env [] 3) Q R t)
    (standing : Standing frame (startIndex frame) barrier elapse s) : wp (cascade env [1, 2, 3] 0) Q R s := by
  have start : indexAfter frame 0 = startIndex frame := by
    funext v
    simp [indexAfter]
  have quiet : ∀ w : Fin 3, ¬ (0 < frame ∧ frame % slotSpan w.succ = 0) → ¬ (0 < frame ∧ frame % slotSpan 3 = 0) := by
    intro w notDue lastDue
    have divides : ∀ w : Fin 3, slotSpan w.succ ∣ slotSpan 3 := by decide
    exact notDue ⟨lastDue.1, Nat.mod_eq_zero_of_dvd ((divides w).trans (Nat.dvd_of_mod_eq_zero lastDue.2))⟩
  rw [← start] at standing
  refine cascade_turn_spec env 0 (fun higher => absurd rfl higher) (fun dueOne t second => ?_)
    (fun notDue => done (quiet 0 notDue)) standing
  refine cascade_turn_spec env 1 (fun _ => dueOne) (fun dueTwo t third => ?_)
    (fun notDue => done (quiet 1 notDue)) second
  exact cascade_turn_spec env 2 (fun _ => dueTwo) last (fun notDue => done (quiet 2 notDue)) third

/-- Below the bound of the fourth wheel the indices are those of the frame. -/
theorem cascade_completes (reach : frame < wheelSizeMul1234)
    (standing : Standing frame (startIndex frame) false elapse s) :
    wp (cascade env [1, 2, 3] 0) (fun _ t => Standing frame (frameIndex frame) false elapse t) (fun _ => False) s := by
  refine cascade_spec env (fun _ t done => done) (fun due t last => ?_) standing
  change frame < 43200000 at reach
  change 0 < frame ∧ frame % 720000 = 0 at due
  have below : ¬ wheelBound 3 ≤ indexAfter frame 3 3 := by
    change ¬ 60 ≤ (frame - 1) / 720000 % 60 + 1
    omega
  simp only [cascade, wp_bind, wp_get]
  rw [last.clock.index, last.bounds, if_neg below]
  rw [indexAfter_last due.1 due.2 reach] at last
  exact last

/-- In frame 43200000, and in every multiple of it, the fourth wheel is at its bound. -/
theorem cascade_raises (turned : 0 < frame ∧ frame % wheelSizeMul1234 = 0)
    (standing : Standing frame (startIndex frame) barrier elapse s) :
    wp (cascade env [1, 2, 3] 0) (fun _ _ => False) (fun _ => True) s := by
  change 0 < frame ∧ frame % 43200000 = 0 at turned
  have aligned : 0 < frame ∧ frame % slotSpan 3 = 0 := by
    change 0 < frame ∧ frame % 720000 = 0
    omega
  refine cascade_spec env (fun notDue => absurd aligned notDue) (fun _ t last => ?_) standing
  have atBound : wheelBound 3 ≤ indexAfter frame 3 3 := by
    change 60 ≤ (frame - 1) / 720000 % 60 + 1
    omega
  simp only [cascade, wp_bind, wp_get]
  rw [last.clock.index, last.bounds, if_pos atBound]
  simp only [wp_bind, wp_modify, wp_raise]

/-- The timers of a frame are fired, and the first wheel goes on. -/
theorem fireSlot_completes [Arithmetic] (returns : ∀ cb id s, (env.callback cb id s).result ≠ none)
    (standing : Standing frame (frameIndex frame) false elapse s) :
    wp (fireSlot env) (fun _ t => Standing (frame + 1) (startIndex (frame + 1)) false elapse t) (fun _ => False) s := by
  have below : frameIndex frame 0 < wheelBound 0 := Nat.mod_lt _ (by decide)
  simp only [fireSlot, wp_bind, wp_get]
  rw [standing.clock.index, standing.bounds, if_pos below]
  simp only [wp_bind, wp_modify]
  refine wp_mono (wp_forEach (I := fun _ t => Standing frame (frameIndex frame) false elapse t)
    (fun idx _ t inside => fireTimer_completes env returns inside below _ idx) standing)
    (fun _ t fired => ?_) fun _ never => never
  have next : Function.update (frameIndex frame) 0 (frameIndex frame 0 + 1) = startIndex (frame + 1) := by
    funext v
    fin_cases v <;> rfl
  have moved := fired.setIndex 0 (frameIndex frame 0 + 1)
  rw [next] at moved
  rw [← fired.clock.index] at moved
  exact ⟨⟨congrArg (· + 1) fired.clock.frame, moved.clock.index, moved.clock.barrier⟩, moved.bounds, moved.elapse⟩

/-- One turn of the loop, in a frame that the wheels reach. -/
theorem updateFrame_completes [Arithmetic] (returns : ∀ cb id s, (env.callback cb id s).result ≠ none)
    (reach : frame < wheelSizeMul1234) (standing : Standing frame (startIndex frame) false elapse s) :
    wp (updateFrame env)
      (fun _ t => Standing (frame + 1) (startIndex (frame + 1)) false (rounding.sub elapse secondPerFrame) t)
      (fun _ => False) s := by
  simp only [updateFrame, wp_bind, wp_modify]
  have taken : rounding.sub s.vElapseTime secondPerFrame = rounding.sub elapse secondPerFrame := by
    rw [standing.elapse]
  refine wp_mono (cascade_completes env reach ⟨⟨standing.clock.frame, standing.clock.index, standing.clock.barrier⟩,
    standing.bounds, taken⟩) (fun _ t cascaded => ?_) fun _ never => never
  exact fireSlot_completes env returns cascaded

/-- One turn of the loop, in the frame that the wheels do not reach. -/
theorem updateFrame_raises [Arithmetic]
    (standing : Standing wheelSizeMul1234 (startIndex wheelSizeMul1234) false elapse s) :
    wp (updateFrame env) (fun _ _ => False) (fun _ => True) s := by
  simp only [updateFrame, wp_bind, wp_modify]
  have taken : rounding.sub s.vElapseTime secondPerFrame = rounding.sub elapse secondPerFrame := by
    rw [standing.elapse]
  exact wp_mono (cascade_raises env (by decide) ⟨⟨standing.clock.frame, standing.clock.index, standing.clock.barrier⟩,
    standing.bounds, taken⟩) (fun _ _ never => never.elim) fun _ raised => raised

end Frames

/-! ## Calls of `update`

The loop takes frames out of the time, one after the other, until no more than one is left.  What is left and how many
frames it takes are functions of the time alone, in the arithmetic that the program runs in.
-/

section Updates

variable [Arithmetic]

/-- What is left of a time when so many frames have been taken out of it. -/
def timeLeft : (frames : Nat) → (elapse : ℚ) → ℚ
  | 0, elapse => elapse
  | frames + 1, elapse => timeLeft frames (rounding.sub elapse secondPerFrame)

/-- The frames that so many turns of the loop take out of a time. -/
def framesTaken : (turns : Nat) → (elapse : ℚ) → Nat
  | 0, _ => 0
  | turns + 1, elapse =>
      if elapse > secondPerFrame then framesTaken turns (rounding.sub elapse secondPerFrame) + 1 else 0

/-- The frames that a call of `update` takes out of a time, if it is not stopped. -/
def framesIn (elapse : ℚ) : Nat := framesTaken (turnsFor elapse) elapse

/-- A turn with time left takes a frame. -/
theorem framesTaken_of_more {elapse : ℚ} (more : elapse > secondPerFrame) (turns : Nat) :
    framesTaken (turns + 1) elapse = framesTaken turns (rounding.sub elapse secondPerFrame) + 1 :=
  if_pos more

/-- Without enough time no turn takes any. -/
theorem framesTaken_of_less {elapse : ℚ} (less : ¬ elapse > secondPerFrame) (turns : Nat) :
    framesTaken turns elapse = 0 := by
  cases turns with
  | zero => rfl
  | succ turns => exact if_neg less

/-- Up to the last frame that is taken there is more time than a frame. -/
theorem timeLeft_gt {turns n : Nat} {elapse : ℚ} (taken : n < framesTaken turns elapse) :
    timeLeft n elapse > secondPerFrame := by
  induction turns generalizing n elapse with
  | zero => exact absurd taken (Nat.not_lt_zero n)
  | succ turns ih =>
      by_cases more : elapse > secondPerFrame
      · rw [framesTaken_of_more more] at taken
        cases n with
        | zero => exact more
        | succ n =>
            have rest := ih (Nat.lt_of_succ_lt_succ taken)
            exact rest
      · rw [framesTaken_of_less more] at taken
        exact absurd taken (Nat.not_lt_zero n)

/-- When there are turns left, no more than a frame's time is. -/
theorem timeLeft_le {turns : Nat} {elapse : ℚ} (enough : framesTaken turns elapse < turns) :
    timeLeft (framesTaken turns elapse) elapse ≤ secondPerFrame := by
  induction turns generalizing elapse with
  | zero => exact absurd enough (Nat.not_lt_zero _)
  | succ turns ih =>
      by_cases more : elapse > secondPerFrame
      · rw [framesTaken_of_more more] at enough ⊢
        exact ih (Nat.lt_of_succ_lt_succ enough)
      · rw [framesTaken_of_less more]
        exact not_lt.mp more

/-- As many frames are taken out of a time as there is more than a frame of it left. -/
theorem lt_framesTaken_iff {turns n : Nat} {elapse : ℚ} (few : framesTaken turns elapse < turns)
    (before : n ≤ framesTaken turns elapse) :
    n < framesTaken turns elapse ↔ timeLeft n elapse > secondPerFrame := by
  constructor
  · exact timeLeft_gt
  · intro more
    refine Nat.lt_of_le_of_ne before fun same => ?_
    have less := timeLeft_le few
    rw [← same] at less
    exact absurd more (not_lt.mpr less)

/-- A frame is taken as long as there is more than a frame left. -/
theorem le_framesTaken {turns n : Nat} {elapse : ℚ} (enough : n ≤ turns)
    (left : ∀ m < n, timeLeft m elapse > secondPerFrame) : n ≤ framesTaken turns elapse := by
  induction turns generalizing n elapse with
  | zero => exact enough
  | succ turns ih =>
      cases n with
      | zero => exact Nat.zero_le _
      | succ n =>
          have more : elapse > secondPerFrame := left 0 (Nat.succ_pos n)
          rw [framesTaken_of_more more]
          refine Nat.succ_le_succ (ih (Nat.le_of_succ_le_succ enough) fun m before => ?_)
          exact left (m + 1) (Nat.succ_lt_succ before)

/-- One frame more. -/
theorem timeLeft_succ (n : Nat) (elapse : ℚ) :
    timeLeft (n + 1) elapse = rounding.sub (timeLeft n elapse) secondPerFrame := by
  induction n generalizing elapse with
  | zero => rfl
  | succ n ih => exact ih _

/-- Where rounding changes a time by `ε` at most, a turn takes out a frame and `ε` at most. -/
theorem le_timeLeft {limit ε : ℚ} (near : ∀ q, 0 ≤ q → q < limit → |rounding.round q - q| ≤ ε) (nonneg : 0 ≤ ε)
    (small : ε ≤ secondPerFrame) (n : Nat) {elapse : ℚ} (below : elapse < limit)
    (enough : n * (secondPerFrame + ε) ≤ elapse) : elapse - n * (secondPerFrame + ε) ≤ timeLeft n elapse := by
  induction n generalizing elapse with
  | zero => simp [timeLeft]
  | succ n ih =>
      push_cast at enough ⊢
      have frames : (0 : ℚ) ≤ n * (secondPerFrame + ε) :=
        mul_nonneg (Nat.cast_nonneg n) (add_nonneg (nonneg.trans small) nonneg)
      obtain ⟨atLeast, atMost⟩ := abs_le.mp (near (elapse - secondPerFrame) (by linarith) (by linarith))
      have rest : rounding.round (elapse - secondPerFrame) - n * (secondPerFrame + ε) ≤
          timeLeft n (rounding.round (elapse - secondPerFrame)) := ih (by linarith) (by linarith)
      change _ ≤ timeLeft n (rounding.round (elapse - secondPerFrame))
      linarith

variable {frame : Nat} {elapse : ℚ} {s : TimerState κ W}

/-- The loop works off the frames that it takes, as long as the wheels reach. -/
theorem updateLoop_completes (returns : ∀ cb id s, (env.callback cb id s).result ≠ none) (turns : Nat)
    (reach : frame + framesTaken turns elapse ≤ wheelSizeMul1234)
    (standing : Standing frame (startIndex frame) false elapse s) :
    wp (updateLoop env turns)
      (fun _ t => Standing (frame + framesTaken turns elapse) (startIndex (frame + framesTaken turns elapse)) false
        (timeLeft (framesTaken turns elapse) elapse) t)
      (fun _ => False) s := by
  induction turns generalizing frame elapse s with
  | zero => exact standing
  | succ turns ih =>
      simp only [updateLoop, wp_bind, wp_get, standing.elapse]
      by_cases more : elapse > secondPerFrame
      · rw [framesTaken_of_more more] at reach ⊢
        rw [if_pos more, wp_bind]
        refine wp_mono (updateFrame_completes env returns (by omega) standing) (fun _ t next => ?_) fun _ never => never
        have rest := ih (by omega) next
        rw [Nat.add_right_comm, Nat.add_assoc] at rest
        exact rest
      · rw [if_neg more, framesTaken_of_less more]
        exact standing

/-- The loop fails in the frame that the wheels do not reach. -/
theorem updateLoop_raises (returns : ∀ cb id s, (env.callback cb id s).result ≠ none) (turns : Nat)
    (start : frame ≤ wheelSizeMul1234) (beyond : wheelSizeMul1234 < frame + framesTaken turns elapse)
    (standing : Standing frame (startIndex frame) false elapse s) :
    wp (updateLoop env turns) (fun _ _ => False) (fun _ => True) s := by
  induction turns generalizing frame elapse s with
  | zero => exact absurd beyond (not_lt.mpr start)
  | succ turns ih =>
      have more : elapse > secondPerFrame := by
        by_contra less
        rw [framesTaken_of_less less] at beyond
        exact absurd beyond (not_lt.mpr start)
      rw [framesTaken_of_more more] at beyond
      simp only [updateLoop, wp_bind, wp_get, standing.elapse]
      rw [if_pos more, wp_bind]
      rcases Nat.lt_or_eq_of_le start with inside | last
      · refine wp_mono (updateFrame_completes env returns inside standing) (fun _ t next => ?_)
          fun _ never => never.elim
        exact ih inside (by omega) next
      · subst last
        exact wp_mono (updateFrame_raises env standing) (fun _ _ never => never.elim) fun _ raised => raised

/-- A call that stays within 43200000 frames returns, with all its frames worked off. -/
theorem update_completes (returns : ∀ cb id s, (env.callback cb id s).result ≠ none) {e : ℚ}
    (reach : frame + framesIn (rounding.add elapse e) ≤ wheelSizeMul1234)
    (standing : Standing frame (startIndex frame) false elapse s) :
    wp (update env e)
      (fun _ t => Standing (frame + framesIn (rounding.add elapse e))
        (startIndex (frame + framesIn (rounding.add elapse e))) false
        (timeLeft (framesIn (rounding.add elapse e)) (rounding.add elapse e)) t)
      (fun _ => False) s := by
  simp only [update, wp_bind, wp_modify, wp_get, standing.elapse]
  exact updateLoop_completes env returns _ reach ⟨⟨standing.clock.frame, standing.clock.index,
    standing.clock.barrier⟩, standing.bounds, rfl⟩

/-- A call that does not raises. -/
theorem update_raises (returns : ∀ cb id s, (env.callback cb id s).result ≠ none) {e : ℚ}
    (start : frame ≤ wheelSizeMul1234) (beyond : wheelSizeMul1234 < frame + framesIn (rounding.add elapse e))
    (standing : Standing frame (startIndex frame) false elapse s) :
    wp (update env e) (fun _ _ => False) (fun _ => True) s := by
  simp only [update, wp_bind, wp_modify, wp_get, standing.elapse]
  exact updateLoop_raises env returns _ start beyond ⟨⟨standing.clock.frame, standing.clock.index,
    standing.clock.barrier⟩, standing.bounds, rfl⟩

/-- The turns of the model are enough, up to the frame that the wheels do not reach. -/
theorem timeLeft_framesIn_le (reach : framesIn elapse ≤ wheelSizeMul1234) :
    timeLeft (framesIn elapse) elapse ≤ secondPerFrame :=
  timeLeft_le (Nat.lt_of_le_of_lt reach (Nat.lt_of_succ_lt (lt_turnsFor elapse)))

end Updates

/-! ## Whole frames

In exact arithmetic the frames that are taken out of a time can be calculated.
-/

section ExactTime

open scoped ExactArithmetic

/-- The whole frames in a time; a frame that is just over stays. -/
def wholeFrames (elapse : ℚ) : Nat := ⌈elapse * frameRate⌉₊ - 1

theorem wholeFrames_of_le {elapse : ℚ} (less : elapse ≤ secondPerFrame) : wholeFrames elapse = 0 := by
  have scaled : elapse * frameRate ≤ (1 : Nat) := by
    rw [frameRate_eq]
    norm_num [secondPerFrame_eq] at less ⊢
    linarith
  exact Nat.sub_eq_zero_of_le (Nat.ceil_le.mpr scaled)

/-- A frame taken out of a time is one of its whole frames. -/
theorem wholeFrames_of_lt {elapse : ℚ} (more : secondPerFrame < elapse) :
    wholeFrames elapse = wholeFrames (elapse - secondPerFrame) + 1 := by
  have scaled : (elapse - secondPerFrame) * frameRate = elapse * frameRate - 1 := by
    rw [frameRate_eq, secondPerFrame_eq]
    ring
  have positive : 1 < elapse * frameRate := by
    rw [frameRate_eq]
    norm_num [secondPerFrame_eq] at more ⊢
    linarith
  have least : 1 < ⌈elapse * frameRate⌉₊ := Nat.lt_ceil.mpr (by exact_mod_cast positive)
  rw [wholeFrames, wholeFrames, scaled, Nat.ceil_sub_one]
  omega

theorem wholeFrames_mono {x y : ℚ} (le : x ≤ y) : wholeFrames x ≤ wholeFrames y := by
  have rate : (0 : ℚ) ≤ frameRate := by norm_num [frameRate_eq]
  exact Nat.sub_le_sub_right (Nat.ceil_mono (mul_le_mul_of_nonneg_right le rate)) 1

theorem wholeFrames_sub (x : ℚ) (n : Nat) : wholeFrames (x - n * secondPerFrame) = wholeFrames x - n := by
  have scaled : (x - n * secondPerFrame) * frameRate = x * frameRate - n := by
    rw [frameRate_eq, secondPerFrame_eq]
    ring
  rw [wholeFrames, wholeFrames, scaled, Nat.ceil_sub_natCast]
  omega

theorem wholeFrames_eq_zero_iff (x : ℚ) : wholeFrames x = 0 ↔ x ≤ secondPerFrame := by
  constructor
  · intro none
    by_contra more
    have count := wholeFrames_of_lt (not_le.mp more)
    omega
  · exact wholeFrames_of_le

theorem timeLeft_eq (n : Nat) (elapse : ℚ) : timeLeft n elapse = elapse - n * secondPerFrame := by
  induction n generalizing elapse with
  | zero => simp [timeLeft]
  | succ n ih =>
      rw [timeLeft, ih, ExactArithmetic.rounding_eq, Rounding.sub_exact]
      push_cast
      ring

theorem framesTaken_eq {turns : Nat} {elapse : ℚ} (enough : wholeFrames elapse ≤ turns) :
    framesTaken turns elapse = wholeFrames elapse := by
  induction turns generalizing elapse with
  | zero => exact (Nat.le_zero.mp enough).symm
  | succ turns ih =>
      by_cases more : elapse > secondPerFrame
      · have count := wholeFrames_of_lt more
        rw [framesTaken_of_more more, ExactArithmetic.rounding_eq, Rounding.sub_exact, ih (by omega), count]
      · rw [framesTaken_of_less more, wholeFrames_of_le (not_lt.mp more)]

theorem framesIn_eq (elapse : ℚ) : framesIn elapse = wholeFrames elapse :=
  framesTaken_eq ((Nat.sub_le _ 1).trans (ceil_le_turnsFor elapse))

end ExactTime

/-! ## Runs

A run goes on as long as no call goes past frame 43200000, and none adds a timer that is due while the first index is
at its bound.
-/

section Runs

variable [Arithmetic]

/-- `update` completes: its loop has come to its end, and as many frames were processed as were taken out of
`v_elapse_time`.  The other calls complete, so the slot that they choose is in its wheel. -/
def Completes (s : TimerState κ W) : TimerCall κ → Prop
  | .update elapse =>
      wp (update env elapse)
        (fun _ t => ∃ frames, t.vCurrentFrameIdx = s.vCurrentFrameIdx + frames ∧
          t.vElapseTime = timeLeft frames (rounding.add s.vElapseTime elapse) ∧ t.vElapseTime ≤ secondPerFrame)
        (fun _ => False) s
  | .op op => wp (applyOp op) (fun _ _ => True) (fun _ => False) s

/-- A call may raise; the next one starts in the state that is left. -/
def stateAfter (s : TimerState κ W) (call : TimerCall κ) : TimerState κ W := (exec (applyCall env call) s).2

/-- No call of `update` takes the frames past 43200000, and no timer that is due is added from outside right after the
last slot of the first wheel. -/
def Lasts : (frame : Nat) → (elapse : ℚ) → List (TimerCall κ) → Prop
  | _, _, [] => True
  | frame, elapse, .update e :: calls =>
      let time := rounding.add elapse e
      frame + framesIn time ≤ wheelSizeMul1234 ∧ Lasts (frame + framesIn time) (timeLeft (framesIn time) time) calls
  | frame, elapse, .op (.add expires _ _) :: calls =>
      ¬ (framesUntil expires elapse ≤ 0 ∧ 0 < frame ∧ frame % wheelSize1 = 0) ∧ Lasts frame elapse calls
  | frame, elapse, .op (.remove _) :: calls => Lasts frame elapse calls

variable {frame : Nat} {elapse : ℚ} {s : TimerState κ W}

omit [Arithmetic] in
theorem standing_init (world : W) :
    Standing 0 (startIndex 0) false 0 (TimerState.init world : TimerState κ W) := by
  refine ⟨⟨rfl, fun w => ?_, rfl⟩, fun w => ?_, rfl⟩
  · match w with
    | 0 => rfl
    | 1 => rfl
    | 2 => rfl
    | 3 => rfl
  · match w with
    | 0 => rfl
    | 1 => rfl
    | 2 => rfl
    | 3 => rfl

/-- The state that a call leaves, when it completes. -/
theorem wp_stateAfter {call : TimerCall κ} {P : TimerState κ W → Prop}
    (completes : wp (applyCall env call) (fun _ t => P t) (fun _ => False) s) : P (stateAfter env s call) :=
  wp_same.mp (wp_mono completes (fun _ _ holds => holds) fun _ never => never.elim)

omit [Arithmetic] in
/-- A function does not both return and raise. -/
theorem wp_not_both {α σ : Type} {m : LuaM σ α} {Q : α → σ → Prop} {s : σ} (returns : wp m Q (fun _ => False) s)
    (raises : wp m (fun _ _ => False) (fun _ => True) s) : False := by
  unfold wp at returns raises
  cases result : exec m s with
  | mk value t =>
      rw [result] at returns raises
      cases value with
      | ok _ => exact raises
      | error _ => exact returns

/-- Both together: when a call of `update` completes. -/
theorem completes_update_iff (returns : ∀ cb id s, (env.callback cb id s).result ≠ none)
    (start : frame ≤ wheelSizeMul1234) (standing : Standing frame (startIndex frame) false elapse s) (e : ℚ) :
    Completes env s (.update e) ↔ frame + framesIn (rounding.add elapse e) ≤ wheelSizeMul1234 := by
  constructor
  · intro completes
    by_contra beyond
    exact wp_not_both completes (update_raises env returns start (Nat.lt_of_not_le beyond) standing)
  · intro reach
    refine wp_mono (update_completes env returns reach standing) (fun _ t done => ?_) fun _ never => never
    refine ⟨framesIn (rounding.add elapse e), ?_, ?_, ?_⟩
    · rw [done.clock.frame, standing.clock.frame]
    · rw [done.elapse, standing.elapse]
    · rw [done.elapse]
      exact timeLeft_framesIn_le ((Nat.le_add_left _ _).trans reach)

omit [Arithmetic] in
/-- Between two calls the first wheel is at its bound after every 200 frames. -/
theorem startIndex_first_lt_iff (frame : Nat) :
    startIndex frame 0 < wheelSize1 ↔ ¬ (0 < frame ∧ frame % wheelSize1 = 0) := by
  change (if frame = 0 then 0 else (frame - 1) % 200 + 1) < 200 ↔ ¬ (0 < frame ∧ frame % 200 = 0)
  split <;> omega

omit [Arithmetic] in
/-- Outside of callbacks a timer that is due goes to the current slot, which is none behind the bound. -/
theorem internalAddTimer_raises {index : Fin 4 → Nat} (standing : Standing frame index false elapse s)
    {timer : TimerInfo κ} (due : timer.expires ≤ frame) (atBound : ¬ index 0 < wheelSize1) :
    wp (internalAddTimer timer) (fun _ _ => False) (fun _ => True) s := by
  have choice : s.slotFor timer.expires = some (0, index 0) := by
    simp only [slotFor, standing.clock.frame, standing.clock.barrier, standing.clock.index]
    rw [if_pos (by omega)]
    rfl
  have outside : ¬ index 0 < wheelBound 0 := atBound
  simp only [internalAddTimer, wp_bind, wp_get, choice, standing.bounds, if_neg outside, wp_raise]

/-- A timer that is due has no slot while the first index is at its bound. -/
theorem addTimer_raises (standing : Standing frame (startIndex frame) false elapse s) {expires : ℚ} (cb : κ)
    (cycle : Int) (due : framesUntil expires elapse ≤ 0) (atBound : ¬ startIndex frame 0 < wheelSize1) :
    wp (addTimer expires cb cycle) (fun _ _ => False) (fun _ => True) s := by
  simp only [addTimer, wp_bind, wp_modify, wp_get, wp_pure]
  apply internalAddTimer_raises
  · exact ⟨⟨standing.clock.frame, standing.clock.index, standing.clock.barrier⟩, standing.bounds, standing.elapse⟩
  · simp only [newInfo, standing.elapse, standing.clock.frame]
    omega
  · exact atBound

/-- When a call of `add_timer` completes. -/
theorem completes_add_iff (standing : Standing frame (startIndex frame) false elapse s) (expires : ℚ) (cb : κ)
    (cycle : Int) :
    Completes env s (.op (.add expires cb cycle)) ↔
      ¬ (framesUntil expires elapse ≤ 0 ∧ 0 < frame ∧ frame % wheelSize1 = 0) := by
  constructor
  · intro completes ⟨due, atBound⟩
    simp only [Completes, applyOp, wp_bind, wp_pure] at completes
    exact wp_not_both completes (addTimer_raises standing cb cycle due fun below =>
      (startIndex_first_lt_iff frame).mp below atBound)
  · intro ready
    simp only [Completes, applyOp, wp_bind, wp_pure]
    refine wp_mono (addTimer_completes standing expires cb cycle fun due => ?_) (fun _ _ _ => trivial)
      fun _ never => never
    exact Or.inr ((startIndex_first_lt_iff frame).mpr fun atBound => ready ⟨due, atBound⟩)

/-- From where the wheels stand, a run completes throughout if and only if it lasts. -/
theorem guarded_completes_iff (returns : ∀ cb id s, (env.callback cb id s).result ≠ none)
    (calls : List (TimerCall κ)) (start : frame ≤ wheelSizeMul1234)
    (standing : Standing frame (startIndex frame) false elapse s) :
    Guarded (always (stateAfter env)) (Completes env) s calls ↔ Lasts frame elapse calls := by
  induction calls generalizing frame elapse s with
  | nil => exact Iff.rfl
  | cons call calls ih =>
      cases call with
      | update e =>
          rw [Lasts, ← completes_update_iff env returns start standing]
          apply and_congr_right
          intro completes
          have reach := (completes_update_iff env returns start standing e).mp completes
          have done : wp (applyCall env (.update e)) _ _ s := update_completes env returns reach standing
          have next := wp_stateAfter env done
          rw [forall_always_iff]
          exact ih reach next
      | op op =>
          cases op with
          | add expires cb cycle =>
              rw [Lasts, ← completes_add_iff env standing expires cb cycle]
              apply and_congr_right
              intro completes
              have ready := (completes_add_iff env standing expires cb cycle).mp completes
              have next : Standing frame (startIndex frame) false elapse
                  (stateAfter env s (.op (.add expires cb cycle))) := by
                apply wp_stateAfter
                simp only [applyCall, applyOp, wp_bind, wp_pure]
                refine addTimer_completes standing expires cb cycle fun due => ?_
                exact Or.inr ((startIndex_first_lt_iff frame).mpr fun atBound => ready ⟨due, atBound⟩)
              rw [forall_always_iff]
              exact ih start next
          | remove id =>
              have removed : wp (applyCall env (.op (.remove id)))
                  (fun _ t => Standing frame (startIndex frame) false elapse t) (fun _ => False) s := by
                simp only [applyCall, applyOp, wp_bind, wp_modify, wp_pure]
                apply removeTimer_completes
                exact ⟨⟨standing.clock.frame, standing.clock.index, standing.clock.barrier⟩, standing.bounds,
                  standing.elapse⟩
              have completes : Completes env s (.op (.remove id)) :=
                wp_mono removed (fun _ _ _ => trivial) fun _ never => never
              rw [Lasts, guarded_cons, and_iff_right completes, forall_always_iff]
              exact ih start (wp_stateAfter env removed)

/-- When callbacks return, every call of a run completes, the slots it uses are in their wheels, and `update` processes
the frames that it takes out, if and only if the run takes out at most 43200000 frames and adds no timer that is due
right after the last slot of the first wheel. -/
theorem run_completes_iff (returns : ∀ cb id s, (env.callback cb id s).result ≠ none) (world : W)
    (calls : List (TimerCall κ)) :
    Guarded (always (stateAfter env)) (Completes env) (TimerState.init world) calls ↔ Lasts 0 0 calls :=
  guarded_completes_iff env returns calls (Nat.zero_le _) (standing_init world)

end Runs

/-- Every callback returns true. -/
def returningEnv : TimerEnv Nat (List Nat) :=
  .inOrder fun _ id s =>
    { world := id :: s.world, ops := [], result := some true }

theorem returningEnv_returns (cb id : Nat) (s : TimerState Nat (List Nat)) :
    (returningEnv.callback cb id s).result ≠ none := by
  rw [returningEnv]
  exact Option.some_ne_none true

/-- A timer in the first wheel, one of 25 seconds and a period in the second wheel, and 301 frames; then a timer that is
due, and another frame. -/
def longCalls : List (TimerCall Nat) :=
  [.op (.add (1 / 2) 1 0), .op (.add 25 2 300), .update (965 / 32), .op (.add 0 3 0), .op (.remove 2), .update (1 / 8)]

section Doubles

open scoped DoubleArithmetic

/-- A run through a cascade, in which a timer is added between two frames. -/
theorem run_completes_iff_example :
    Guarded (always (stateAfter returningEnv)) (Completes returningEnv) (TimerState.init []) longCalls ∧
      (longCalls.foldl (stateAfter returningEnv) (TimerState.init [])).vCurrentFrameIdx = 302 := by
  refine ⟨(run_completes_iff returningEnv returningEnv_returns [] longCalls).mpr ?_, by decide +kernel⟩
  refine ⟨by decide +kernel, by decide +kernel, by decide +kernel, by decide +kernel, by decide +kernel, trivial⟩

/-- A double is near the number that it was rounded from. -/
theorem double_near (q : ℚ) (nonneg : 0 ≤ q) (small : q < (2 : ℕ) ^ (23 : ℤ)) :
    |rounding.round q - q| ≤ 1 / 2 ^ 31 := by
  have error := abs_roundTo_sub_le_of_lt (p := 53) one_lt_two nonneg small
  norm_num at error ⊢
  exact error

/-- After fifty days the next frame is not processed. -/
theorem fifty_days_raise :
    ¬ Guarded (always (stateAfter returningEnv)) (Completes returningEnv) (TimerState.init []) [.update 5000000] := by
  have time : rounding.add 0 5000000 = 5000000 := by decide +kernel
  have tenth : secondPerFrame = 3602879701896397 / 36028797018963968 := by decide +kernel
  have last : wheelSizeMul1234 = 43200000 := by decide
  have turns : 43200001 ≤ turnsFor 5000000 := by
    have enough := lt_turnsFor 5000000
    omega
  have frames : 43200001 ≤ framesIn 5000000 := by
    refine le_framesTaken turns fun m before => ?_
    have few : (m : ℚ) ≤ 43200000 := by exact_mod_cast Nat.le_of_lt_succ before
    have left : 5000000 - m * (secondPerFrame + 1 / 2 ^ 31) ≤ timeLeft m 5000000 := by
      refine le_timeLeft double_near (by norm_num) ?_ m (by norm_num) ?_
      · rw [tenth]
        norm_num
      · rw [tenth]
        linarith
    rw [tenth] at left ⊢
    linarith
  rw [run_completes_iff returningEnv returningEnv_returns]
  rintro ⟨reach, -⟩
  rw [time] at reach
  omega

end Doubles

end GameServer.Timer
