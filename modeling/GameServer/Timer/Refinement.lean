/-
Module: GameServer.Timer.Refinement
Purpose: Whole runs of the timing wheel: it does what the map of expiries does, so every timer fires
  once, in its frame.
Trusted boundary: none
Main exports: update_elapse_le, applyCall_triple, wheel_refines_expiryMap
-/
import GameServer.Timer.Frames

namespace GameServer.Timer

open Lib Lib.LuaM TimerState

variable {κ W : Type} (env : TimerEnv κ W)

/-! ## The loop of `update`

In exact arithmetic a turn takes one frame out of the time that is left.
-/

section ExactTime

open scoped ExactArithmetic

/-- A turn takes one frame out of `v_elapse_time`. -/
theorem updateFrame_elapse (s : TimerState κ W) :
    wp (updateFrame env) (fun _ t => t.vElapseTime = s.vElapseTime - secondPerFrame)
      (fun _ => True) s := by
  simp only [updateFrame, wp_bind, wp_modify]
  refine wp_mono (cascade_grows env _ _ _) (fun _ t cascaded => ?_) fun _ _ => trivial
  refine wp_mono (fireSlot_grows env t) (fun _ u fired => ?_) fun _ _ => trivial
  exact fired.2.1.trans cascaded.2.1

/-- Turns enough for the elapsed time work off all whole frames in it. -/
theorem updateLoop_elapse (turns : Nat) (s : TimerState κ W)
    (enough : s.vElapseTime ≤ turns * secondPerFrame) :
    wp (updateLoop env turns) (fun _ t => t.vElapseTime ≤ secondPerFrame) (fun _ => True) s := by
  induction turns generalizing s with
  | zero =>
      have nonneg : (0 : ℚ) ≤ secondPerFrame := by norm_num [secondPerFrame_eq]
      simp only [updateLoop, wp_pure]
      refine enough.trans ?_
      simpa using nonneg
  | succ turns ih =>
      simp only [updateLoop, wp_bind, wp_get]
      by_cases more : s.vElapseTime > secondPerFrame
      · rw [if_pos more, wp_bind]
        refine wp_mono (updateFrame_elapse env s) (fun _ t taken => ih t ?_) fun _ h => h
        push_cast at enough
        rw [taken]
        linarith
      · rw [if_neg more]
        exact not_lt.mp more

/-- When `update` returns, less than a frame is left over, so the turns it was given were enough. -/
theorem update_elapse_le (elapse : ℚ) (s : TimerState κ W) :
    wp (update env elapse) (fun _ t => t.vElapseTime ≤ secondPerFrame) (fun _ => True) s := by
  simp only [update, wp_bind, wp_modify, wp_get]
  refine updateLoop_elapse env _ _ ?_
  have ceil := Nat.le_ceil ((s.vElapseTime + elapse) * frameRate)
  have turns : (⌈(s.vElapseTime + elapse) * frameRate⌉₊ : ℚ) ≤ turnsFor (s.vElapseTime + elapse) := by
    exact_mod_cast ceil_le_turnsFor (s.vElapseTime + elapse)
  have rate : frameRate * secondPerFrame = 1 := by norm_num [frameRate_eq, secondPerFrame_eq]
  have positive : (0 : ℚ) < secondPerFrame := by norm_num [secondPerFrame_eq]
  calc s.vElapseTime + elapse
      = (s.vElapseTime + elapse) * frameRate * secondPerFrame := by rw [mul_assoc, rate, mul_one]
    _ ≤ _ := mul_le_mul_of_nonneg_right (ceil.trans turns) positive.le

end ExactTime

/-! ## Between two frames

In every arithmetic the frames of a call of `update` leave the wheels as they were found.
-/

section AnyTime

variable [Arithmetic]

/-- Between two calls from outside. -/
def BetweenCalls (s : TimerState κ W) : Prop := ∃ frame, AtStart frame s

omit [Arithmetic] in
/-- New wheels are between two calls. -/
theorem betweenCalls_init (world : W) : BetweenCalls (TimerState.init world : TimerState κ W) := by
  refine ⟨0, inv_init world, rfl, fun w => ?_, rfl⟩
  match w with
  | 0 => rfl
  | 1 => rfl
  | 2 => rfl
  | 3 => rfl

theorem updateLoop_remembers (turns : Nat) : Remembers FineSoFar (updateLoop env turns) := by
  induction turns with
  | zero => exact Keeps.pure ()
  | succ turns ih =>
      refine Keeps.get.bind fun s => Keeps.ite ?_ (Keeps.pure ())
      refine Keeps.bind ?_ fun _ => ih
      refine Keeps.bind (Keeps.modify fun _ fine => fine) fun _ => ?_
      exact remembers_of_grows ((grows_record _).bind fun _ =>
        (cascade_grows env _ _).bind fun _ => fireSlot_grows env)

/-- A call of `update` keeps the wheels in agreement with the map. -/
theorem updateLoop_triple (turns : Nat) :
    Triple FineSoFar BetweenCalls (updateLoop env turns) fun _ => BetweenCalls := by
  induction turns with
  | zero => exact Triple.pure fun _ between => between
  | succ turns ih =>
      refine Triple.get_bind (updateLoop_remembers env (turns + 1)) ?_
      rintro s₀ ⟨frame, start⟩
      split
      · refine Triple.bind (Q := fun _ => BetweenCalls) ?_ fun _ => ih
        refine (updateFrame_triple env).consequence ?_ fun _ s next => ⟨frame + 1, next⟩
        rintro s rfl
        exact start
      · refine Triple.pure ?_
        rintro s rfl
        exact ⟨frame, start⟩

/-- A call from outside leaves the wheel between two frames again. -/
theorem applyCall_triple (call : TimerCall κ) :
    Triple FineSoFar BetweenCalls (applyCall env call) fun _ => BetweenCalls := by
  cases call with
  | update elapse =>
      refine Triple.bind (Q := fun _ => BetweenCalls) (Triple.modify (fun _ fine => fine) ?_)
        fun _ => ?_
      · rintro s ⟨frame, inv, clock⟩ _
        exact ⟨frame, inv.congr (fun _ _ => rfl) (fun _ => rfl) rfl rfl rfl rfl,
          clock.frame, clock.index, clock.barrier⟩
      · refine Triple.get_bind (Keeps.get.bind fun s => updateLoop_remembers env _) ?_
        rintro s₀ between
        refine (updateLoop_triple env _).consequence ?_ fun _ _ done => done
        rintro s rfl
        exact between
  | op op =>
      refine Triple.of_wp (remembers_of_grows (applyOp_grows op)) ?_
      rintro s ⟨frame, inv, clock⟩
      have nextLe : ∀ _ : Fin 4, max frame 1 ≤ frame + 1 := fun _ => by omega
      refine wp_mono (applyOp_triple nextLe (fun _ => True) op s
        fun _ => ⟨inv, clock, fun _ _ => trivial⟩) (fun _ t reached fine => ?_) fun _ h => h
      obtain ⟨invAfter, clockAfter, -⟩ := reached fine
      exact ⟨frame, invAfter, clockAfter⟩

/-! ## Whole runs

The map's histories are the wheels' histories, and every timer is started in its frame.
-/

/-- The timing wheel refines the map of expiries: a run that keeps to what the wheel is made for ends
without an error, its history is one of the map, and the timers in the wheels are the ones that wait in
the map.  So every timer fires once, in its frame, unless it is removed before. -/
theorem wheel_refines_expiryMap (calls : List (TimerCall κ)) (world : W) {result : Except Unit Unit}
    {final : TimerState κ W}
    (run : exec (forEach (applyCall env) calls) (TimerState.init world) = (result, final))
    (fine : OkTrace final.trace) :
    result = .ok () ∧ FiresOnce final.trace ∧
      ∃ m, Replays final.trace m ∧ m.frame = final.vCurrentFrameIdx ∧
        ∀ id e, m.waiting id = some e ↔ ∃ t, InWheels final t ∧ t.id = id ∧ t.expires = e := by
  have triple : Triple FineSoFar BetweenCalls (forEach (applyCall env) calls) fun _ => BetweenCalls :=
    Triple.forEach (I := fun _ => BetweenCalls) (fun call _ => applyCall_triple env call) calls
  have reached := triple (TimerState.init world) fun _ => betweenCalls_init world
  unfold wp at reached
  rw [run] at reached
  cases result with
  | error _ => exact absurd fine reached
  | ok _ =>
      obtain ⟨frame, inv, clock⟩ := reached fine
      obtain ⟨m, matched⟩ := inv.matched
      refine ⟨rfl, matched.replays.firesOnce, m, matched.replays, matched.frame, fun id e => ?_⟩
      rw [matched.waiting]
      simp

end AnyTime

section ExactTime

open scoped ExactArithmetic

/-- Callback 1 adds a timer of 20 seconds; the others do nothing. -/
def addingEnv : TimerEnv Nat (List Nat) :=
  .inOrder fun cb id s =>
    { world := id :: s.world, ops := if cb = 1 then [.add 20 2 0] else [], result := some true }

/-- Two timers, of which the second is removed, and 210 frames: the timer that the first callback adds
passes through the second wheel. -/
def addingCalls : List (TimerCall Nat) :=
  [.op (.add (1 / 2) 1 0), .op (.add 3 3 0), .op (.remove 3), .update 1, .update (202 / 10)]

/-- The timer that is added in frame 5 expires in frame 209, and is started there. -/
theorem wheel_refines_expiryMap_adding :
    FiresOnce (exec (forEach (applyCall addingEnv) addingCalls) (TimerState.init [])).2.trace ∧
      .added 4 209 5 0 ∈ (exec (forEach (applyCall addingEnv) addingCalls) (TimerState.init [])).2.trace ∧
      .started 4 209 ∈ (exec (forEach (applyCall addingEnv) addingCalls) (TimerState.init [])).2.trace :=
  ⟨(wheel_refines_expiryMap addingEnv addingCalls [] rfl (by decide +kernel)).2.1, by decide +kernel,
    by decide +kernel⟩

end ExactTime

end GameServer.Timer
