/-
Module: GameServer.Timer.AddTimer
Purpose: Timers can be added at every point of every run, except that a timer that is due outside of callbacks finds no
  slot behind the last one of the first wheel, and comes a frame late behind a callback that raised.
Trusted boundary: none
Main exports: OneSlot, AddsWell, add_timer_well
-/
import GameServer.Timer.Schedule

namespace GameServer.Timer

open Lib Lib.LuaM TimerState
open Arithmetic (rounding)

variable {κ W : Type}

section AnyTime

variable [Arithmetic]

/-- The timer is in one slot, the one in `v_index_slot_map`, and no other timer has its id. -/
def OneSlot (s : TimerState κ W) (timer : TimerInfo κ) : Prop :=
  ∃ w i, s.vIndexSlotMap timer.id = some (w, i) ∧ i < wheelBound w ∧ timer ∈ s.slot w i ∧
    ∀ w' i' x, x ∈ s.slot w' i' → x.id = timer.id → w' = w ∧ i' = i ∧ x = timer

/-- `add_timer` returns and stores the timer in one slot; a timer that is due is fired in frame `goal`, in every run
from there on. -/
def AddsWell (env : TimerEnv κ W) (mode : Mode κ) (s : TimerState κ W) (expires : ℚ) (cb : κ) (cycle : Int)
    (goal : Nat) : Prop :=
  ∃ t, exec (addTimer expires cb cycle) s = (.ok (infoFor s expires cb cycle).id, t) ∧
    OneSlot t (infoFor s expires cb cycle) ∧
    ((infoFor s expires cb cycle).expires ≤ s.vCurrentFrameIdx → ∀ calls q, Runs env ⟨mode, t⟩ calls q →
      ∃ rest, q.state.trace = t.trace ++ rest ∧ FiresIn False (infoFor s expires cb cycle).id goal rest)

section Add

variable {env : TimerEnv κ W} {phase : Phase} {s t : TimerState κ W} {info : TimerInfo κ}

omit [Arithmetic] in
/-- A timer at rest is in one slot. -/
theorem Rests.oneSlot (rests : Rests phase t) {w : Fin 4} {i : Nat} (member : info ∈ t.slot w i) : OneSlot t info := by
  have wf := rests.sound.wellFormed
  refine ⟨w, i, wf.mapped w i info member, wf.inside w i info member, member, fun w' i' x there same => ?_⟩
  exact wf.same_place member there same

omit [Arithmetic] in
/-- A timer that is not too long, and that is not without a slot, is stored. -/
theorem Adds.member (adds : Adds s info t) (slot : ¬ NoSlot s info.expires)
    (reach : info.expires < s.vCurrentFrameIdx + 43200000) : ∃ w i, info ∈ t.slot w i := by
  rcases slotFor_cases s info.expires with ⟨-, choice⟩ | ⟨-, -, w, i, choice, -⟩ | ⟨tooLong, -⟩
  · exact ⟨0, _, adds.stored slot choice⟩
  · exact ⟨w, i, adds.stored slot choice⟩
  · omega

/-- `add_timer` where there is a slot. -/
theorem addsWell_of_slot {mode : Mode κ} {expires : ℚ} {cb : κ} {cycle : Int} {goal : Nat} (rests : Rests phase s)
    (slot : ¬ NoSlot s (infoFor s expires cb cycle).expires)
    (reach : (infoFor s expires cb cycle).expires < s.vCurrentFrameIdx + wheelSizeMul1234)
    (orderly : ∀ t, exec (applyOp (.add expires cb cycle)) s = (.ok (), t) → Orderly (⟨mode, t⟩ : Point κ W))
    (located : (infoFor s expires cb cycle).expires ≤ s.vCurrentFrameIdx → ∀ t, Adds s (infoFor s expires cb cycle) t →
      Located False (infoFor s expires cb cycle) goal ⟨mode, t⟩) : AddsWell env mode s expires cb cycle goal := by
  have returns : wp (addTimer expires cb cycle) (fun id t => id = (infoFor s expires cb cycle).id ∧ Rests phase t ∧
      Adds s (infoFor s expires cb cycle) t) (fun _ => False) s :=
    wp_mono (addTimer_adds rests expires cb cycle) (fun _ t added => ⟨added.1, added.2.1, added.2.2.1⟩)
      fun t raised => slot raised.2.2
  obtain ⟨id, t, result, rfl, restsT, adds⟩ := exec_eq_of_wp returns
  obtain ⟨w, i, member⟩ := adds.member slot reach
  refine ⟨t, result, restsT.oneSlot member, fun due calls q runs => ?_⟩
  have applied : exec (applyOp (.add expires cb cycle)) s = (.ok (), t) := by
    rw [applyOp, exec_bind, result]
    rfl
  obtain ⟨rest, trace, fires, -⟩ := (located due t adds).followed (orderly t applied) runs
  exact ⟨rest, trace, fires⟩

end Add

/-- Between two calls and in callbacks, `add_timer` stores a timer in one slot.  A timer that is due is fired in the
coming frame, or the next one when it is added in a callback.  Outside of callbacks it must not be due behind the last
slot of the first wheel, or behind a callback that raised and left the barrier up. -/
theorem add_timer_well (env : TimerEnv κ W) (world : W) (calls : List (TimerCall κ)) (expires : ℚ) (cb : κ)
    (cycle : Int) :
    (∀ s, s = calls.foldl (stateAfter env) (TimerState.init world) →
      (infoFor s expires cb cycle).expires < s.vCurrentFrameIdx + wheelSizeMul1234 →
      ((infoFor s expires cb cycle).expires ≤ s.vCurrentFrameIdx →
        s.innerBarrier = false ∧ (s.vWheels 0).index < (s.vWheels 0).bound) →
      AddsWell env .outside s expires cb cycle s.vCurrentFrameIdx) ∧
    ∀ s w timer ops result todo, Runs env ⟨.outside, .init world⟩ calls
        ⟨.calling w timer (.add expires cb cycle :: ops) result todo, s⟩ →
      (infoFor s expires cb cycle).expires < s.vCurrentFrameIdx + wheelSizeMul1234 →
      AddsWell env (.calling w timer ops result todo) s expires cb cycle (s.vCurrentFrameIdx + 1) := by
  have start : Orderly (⟨.outside, .init world⟩ : Point κ W) := ⟨.fresh, rests_init world⟩
  constructor
  · rintro s rfl reach ready
    have whole : Runs env ⟨.outside, .init world⟩ calls _ := runs_of_calls (rests_init world) calls
    obtain ⟨phase, rests⟩ := whole.orderly start
    generalize calls.foldl (stateAfter env) (TimerState.init world) = s at rests reach ready
    have slot : ¬ NoSlot s (infoFor s expires cb cycle).expires := by
      intro noSlot
      obtain ⟨due, -, atBound⟩ := noSlot.due
      have below := (ready due).2
      rw [rests.sound.wellFormed.bounds] at below
      exact atBound below
    refine addsWell_of_slot rests slot reach (fun t applied => ?_) fun due t adds => ?_
    · exact ⟨phase, (of_exec (applyAdd_adds rests expires cb cycle) applied).1⟩
    · exact ⟨stands_of_due_down rests adds slot due (ready due).1, fun never => never.elim⟩
  · intro s w timer ops result todo runs reach
    have orderly := runs.orderly start
    have ⟨rests, _, up, known⟩ := orderly
    have slot := not_noSlot rests (Or.inl up) (infoFor s expires cb cycle).expires
    refine addsWell_of_slot rests slot reach (fun t applied => ?_) fun due t adds => ?_
    · have step : Step env _ ⟨.calling w timer ops result todo, t⟩ := .op applied
      exact (step.moves orderly).1
    · refine ⟨stands_of_due_up rests adds slot due up, fun same => ?_, fun now => ?_⟩
      · change timer.id = s.timerCounter + 1 at same
        omega
      · rw [adds.clock.frame] at now
        omega

end AnyTime

/-- A timer in the first wheel and one of 21 seconds in the second, which the cascade of frame 200 takes down. -/
def cascadedCalls : List (TimerCall Nat) := [.op (.add (1 / 2) 1 0), .op (.add 21 2 0), .update (81 / 4)]

section Doubles

open scoped DoubleArithmetic

/-- A timer that is due is added in frame 202, beside the one of 21 seconds. -/
theorem add_timer_well_first :
    AddsWell returningEnv .outside (cascadedCalls.foldl (stateAfter returningEnv) (TimerState.init [])) 0 1 0 202 := by
  have frame : (cascadedCalls.foldl (stateAfter returningEnv) (TimerState.init [])).vCurrentFrameIdx = 202 := by
    decide +kernel
  have added := (add_timer_well returningEnv [] cascadedCalls 0 1 0).1 _ rfl (by decide +kernel) fun _ => by
    decide +kernel
  rw [frame] at added
  exact added

/-- After 200 frames a timer that is due has no slot, and `add_timer` raises. -/
theorem due_timer_without_slot :
    (infoFor (stateAfter returningEnv (TimerState.init []) (.update (401 / 20))) 0 1 0).expires ≤
        (stateAfter returningEnv (TimerState.init []) (.update (401 / 20))).vCurrentFrameIdx ∧
      wp (addTimer 0 1 0) (fun _ _ => False) (fun _ => True)
        (stateAfter returningEnv (TimerState.init []) (.update (401 / 20))) := by
  have frames : framesIn (rounding.add 0 (401 / 20)) = 200 := by decide +kernel
  have done : wp (applyCall returningEnv (.update (401 / 20))) _ _ (TimerState.init []) :=
    update_completes returningEnv returningEnv_returns (by rw [frames]; decide) (standing_init [])
  have standing := wp_stateAfter returningEnv done
  rw [frames] at standing
  have due : (infoFor (stateAfter returningEnv (TimerState.init []) (.update (401 / 20))) 0 1 0).expires ≤
      (stateAfter returningEnv (TimerState.init []) (.update (401 / 20))).vCurrentFrameIdx := by
    decide +kernel
  refine ⟨due, addTimer_raises standing 1 0 ?_ (by decide)⟩
  rw [← standing.elapse]
  exact Int.le_of_add_le_add_right (due.trans_eq (Int.zero_add _).symm)

end Doubles

end GameServer.Timer
