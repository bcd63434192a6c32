/-
Module: GameServer.Timer.Points
Purpose: Where a run of the timer object stands: between calls, in the loop of `update`, in the traversal of a slot or
  in a callback; the steps from one such point to the next, and that a call of `update` takes them.
Trusted boundary: none
Main exports: Mode, Point, beginFrame, finishCall, endFrame, Step, Steps, updateLoop_steps, Runs, Runs.invariant
-/
import Mathlib.Logic.Relation
import GameServer.Timer.Frames
import GameServer.Timer.UpdateLoop

namespace GameServer.Timer

open Lib Lib.LuaM TimerState
open Arithmetic (rounding)

variable {κ W : Type}

/-! ## Results

A weakest precondition is read off the result of a function, and the other way round.
-/

/-- What a function does, from its result. -/
theorem of_exec {α : Type} {m : LuaM (TimerState κ W) α} {Q : α → TimerState κ W → Prop} {R : TimerState κ W → Prop}
    {s t : TimerState κ W} {a : α} (spec : wp m Q R s) (result : exec m s = (.ok a, t)) : Q a t := by
  unfold wp at spec
  rw [result] at spec
  exact spec

theorem of_exec_error {α : Type} {m : LuaM (TimerState κ W) α} {Q : α → TimerState κ W → Prop}
    {R : TimerState κ W → Prop} {s t : TimerState κ W} (spec : wp m Q R s) (result : exec m s = (.error (), t)) :
    R t := by
  unfold wp at spec
  rw [result] at spec
  exact spec

/-- A step for each way a function ends. -/
theorem wp_of_exec {α : Type} {m : LuaM (TimerState κ W) α} {Q : α → TimerState κ W → Prop} {R : TimerState κ W → Prop}
    {s : TimerState κ W} (onReturn : ∀ a t, exec m s = (.ok a, t) → Q a t)
    (onRaise : ∀ t, exec m s = (.error (), t) → R t) : wp m Q R s := by
  unfold wp
  cases result : exec m s with
  | mk value t =>
      cases value with
      | ok a => exact onReturn a t result
      | error e => exact onRaise t result

/-! ## Points

Where a run can be stopped to look at it: between calls, before and behind the cascades of a frame, and around each
callback and each operation of one.
-/

/-- Between calls; in the outer `while` of `update`; in its `for` loop over the slot with the given index, with the ids
still to be visited; in a callback of that loop, with the calls of the timer object it still makes and the value it
will return. -/
inductive Mode (κ : Type) where
  | outside
  | turning
  | visiting (wheelIndex : Nat) (todo : List Nat)
  | calling (wheelIndex : Nat) (timer : TimerInfo κ) (ops : List (TimerOp κ)) (result : Option Bool)
      (todo : List Nat)

structure Point (κ W : Type) where
  mode : Mode κ
  state : TimerState κ W

/-- The frame that is being worked off has been taken out of the elapsed time, and is not counted yet. -/
def Mode.inFrame : Mode κ → Nat
  | .outside => 0
  | .turning => 0
  | .visiting _ _ => 1
  | .calling _ _ _ _ _ => 1

variable [Arithmetic] (env : TimerEnv κ W)

/-- A turn of the outer `while` up to the slot of the frame. -/
def beginFrame : LuaM (TimerState κ W) Unit := do
  modify fun s => { s with vElapseTime := rounding.sub s.vElapseTime secondPerFrame }
  modify fun s => s.record (.frame s.vCurrentFrameIdx)
  cascade env [1, 2, 3] 0

/-- What the `for` loop does once the callback has returned. -/
def finishCall (timer : TimerInfo κ) (result : Bool) : LuaM (TimerState κ W) Unit := do
  modify fun s => { s with innerBarrier := false }
  let _ ← removeTimer timer.id
  if timer.cycle > 0 ∧ result then
    internalAddTimer { timer with expires := timer.expires + timer.cycle }
  else
    pure ()

/-- The last two lines of a turn. -/
def endFrame (s : TimerState κ W) : TimerState κ W :=
  let s := s.record (.frameDone s.vCurrentFrameIdx)
  let s := { s with vCurrentFrameIdx := s.vCurrentFrameIdx + 1 }
  s.setIndex 0 ((s.vWheels 0).index + 1)

/-- The state in which a callback is called. -/
def atCall (timer : TimerInfo κ) (s : TimerState κ W) : TimerState κ W :=
  { s with innerBarrier := true }.record (.started timer.id s.vCurrentFrameIdx)

/-- The slot of the first wheel that `for` goes through. -/
def currentSlot (s : TimerState κ W) : List (TimerInfo κ) := s.slot 0 (s.vWheels 0).index

/-! ## Steps

The functions of the wheel, taken apart into steps. The operations of a callback are steps of their own, as the state
between two of them can be looked at.
-/

/-- One step inside a call of `update`.  An error leads out of it. -/
inductive Step : Point κ W → Point κ W → Prop
  | stop {s : TimerState κ W} (less : ¬ s.vElapseTime > secondPerFrame) : Step ⟨.turning, s⟩ ⟨.outside, s⟩
  | begin {s t : TimerState κ W} (more : s.vElapseTime > secondPerFrame)
      (begun : exec (beginFrame env) s = (.ok (), t)) (inside : (t.vWheels 0).index < (t.vWheels 0).bound) :
      Step ⟨.turning, s⟩ ⟨.visiting (t.vWheels 0).index ((env.pairs t (currentSlot t)).map TimerInfo.id), t⟩
  | beginRaised {s t : TimerState κ W} (more : s.vElapseTime > secondPerFrame)
      (raised : exec (beginFrame env) s = (.error (), t)) : Step ⟨.turning, s⟩ ⟨.outside, t⟩
  | noSlot {s t : TimerState κ W} (more : s.vElapseTime > secondPerFrame)
      (begun : exec (beginFrame env) s = (.ok (), t)) (beyond : ¬ (t.vWheels 0).index < (t.vWheels 0).bound) :
      Step ⟨.turning, s⟩ ⟨.outside, t⟩
  | gone {s : TimerState κ W} {w idx : Nat} {todo : List Nat} (none : (s.slot 0 w).find? (fun t => t.id = idx) = none) :
      Step ⟨.visiting w (idx :: todo), s⟩ ⟨.visiting w todo, s⟩
  | start {s : TimerState κ W} {w idx : Nat} {todo : List Nat} {timer : TimerInfo κ} {run : CallbackRun κ W}
      (found : (s.slot 0 w).find? (fun t => t.id = idx) = some timer)
      (called : env.callback timer.callback timer.id (atCall timer s) = run) :
      Step ⟨.visiting w (idx :: todo), s⟩
        ⟨.calling w timer run.ops run.result todo, { atCall timer s with world := run.world }⟩
  | op {s t : TimerState κ W} {w : Nat} {timer : TimerInfo κ} {op : TimerOp κ} {ops : List (TimerOp κ)}
      {result : Option Bool} {todo : List Nat} (done : exec (applyOp op) s = (.ok (), t)) :
      Step ⟨.calling w timer (op :: ops) result todo, s⟩ ⟨.calling w timer ops result todo, t⟩
  | opRaised {s t : TimerState κ W} {w : Nat} {timer : TimerInfo κ} {op : TimerOp κ} {ops : List (TimerOp κ)}
      {result : Option Bool} {todo : List Nat} (raised : exec (applyOp op) s = (.error (), t)) :
      Step ⟨.calling w timer (op :: ops) result todo, s⟩ ⟨.outside, t⟩
  | raised {s : TimerState κ W} {w : Nat} {timer : TimerInfo κ} {todo : List Nat} :
      Step ⟨.calling w timer [] none todo, s⟩ ⟨.outside, s.record (.raised timer.id)⟩
  | returned {s t : TimerState κ W} {w : Nat} {timer : TimerInfo κ} {result : Bool} {todo : List Nat}
      (done : exec (finishCall timer result) s = (.ok (), t)) :
      Step ⟨.calling w timer [] (some result) todo, s⟩ ⟨.visiting w todo, t⟩
  | notStored {s t : TimerState κ W} {w : Nat} {timer : TimerInfo κ} {result : Bool} {todo : List Nat}
      (raised : exec (finishCall timer result) s = (.error (), t)) :
      Step ⟨.calling w timer [] (some result) todo, s⟩ ⟨.outside, t⟩
  | frameDone {s : TimerState κ W} {w : Nat} : Step ⟨.visiting w [], s⟩ ⟨.turning, endFrame s⟩

/-- Several steps. -/
abbrev Steps : Point κ W → Point κ W → Prop := Relation.ReflTransGen (Step env)

variable {env}

/-! ## The functions take steps

Each function leads from point to point, and every raise leads out of the call.
-/

section Functions

variable {s : TimerState κ W}

/-- The calls that a callback makes. -/
theorem forEach_ops_steps {w : Nat} {timer : TimerInfo κ} {result : Option Bool} {todo : List Nat}
    (ops : List (TimerOp κ)) :
    wp (forEach applyOp ops)
      (fun _ t => Steps env ⟨.calling w timer ops result todo, s⟩ ⟨.calling w timer [] result todo, t⟩)
      (fun t => Steps env ⟨.calling w timer ops result todo, s⟩ ⟨.outside, t⟩) s := by
  induction ops generalizing s with
  | nil => exact .refl
  | cons op ops ih =>
      rw [forEach, wp_bind]
      refine wp_of_exec (fun _ t done => ?_) fun t raised => .single (.opRaised raised)
      exact wp_mono (ih (s := t)) (fun _ u rest => .head (.op done) rest) fun u rest => .head (.op done) rest

/-- The body of the `for` loop. -/
theorem fireTimer_steps (w idx : Nat) (todo : List Nat) :
    wp (fireTimer env w idx)
      (fun _ t => Steps env ⟨.visiting w (idx :: todo), s⟩ ⟨.visiting w todo, t⟩)
      (fun t => Steps env ⟨.visiting w (idx :: todo), s⟩ ⟨.outside, t⟩) s := by
  simp only [fireTimer, wp_bind, wp_get]
  cases found : (s.slot 0 w).find? fun t => t.id = idx with
  | none => exact .single (.gone found)
  | some timer =>
      have idEq : timer.id = idx := by simpa using List.find?_some found
      subst idEq
      simp only [callTimer, wp_bind, wp_modify, wp_get]
      generalize called : env.callback timer.callback timer.id _ = run
      have start : Steps env ⟨.visiting w (timer.id :: todo), s⟩ _ := .single (.start found called)
      have calls : ∀ s, wp (forEach applyOp run.ops)
          (fun _ t => Steps env ⟨.calling w timer run.ops run.result todo, s⟩ ⟨.calling w timer [] run.result todo, t⟩)
          (fun t => Steps env ⟨.calling w timer run.ops run.result todo, s⟩ ⟨.outside, t⟩) s :=
        fun s => forEach_ops_steps run.ops
      refine wp_mono (calls _) (fun _ t ops => ?_) fun t raised => start.trans raised
      have atEnd := start.trans ops
      cases result : run.result with
      | none =>
          rw [result] at atEnd
          simp only [wp_bind, wp_modify, wp_raise]
          exact atEnd.tail .raised
      | some value =>
          rw [result] at atEnd
          have finish : wp (finishCall timer value) (fun _ u => Steps env _ ⟨.visiting w todo, u⟩)
              (fun u => Steps env _ ⟨.outside, u⟩) t :=
            wp_of_exec (fun _ u done => atEnd.tail (.returned done)) fun u raised => atEnd.tail (.notStored raised)
          simp only [finishCall, wp_bind, wp_modify] at finish
          simp only [wp_bind, wp_modify, wp_pure]
          exact finish

/-- The loop over the slot, timer by timer. -/
theorem fireTimers_steps (w : Nat) (ids : List Nat) :
    wp (forEach (fireTimer env w) ids)
      (fun _ t => Steps env ⟨.visiting w ids, s⟩ ⟨.visiting w [], t⟩)
      (fun t => Steps env ⟨.visiting w ids, s⟩ ⟨.outside, t⟩) s := by
  induction ids generalizing s with
  | nil => exact .refl
  | cons idx ids ih =>
      rw [forEach, wp_bind]
      refine wp_mono (fireTimer_steps w idx ids) (fun _ t first => ?_) fun t raised => raised
      exact wp_mono (ih (s := t)) (fun _ u rest => first.trans rest) fun u rest => first.trans rest

/-- A turn of the outer `while`. -/
theorem updateFrame_steps (more : s.vElapseTime > secondPerFrame) :
    wp (updateFrame env) (fun _ t => Steps env ⟨.turning, s⟩ ⟨.turning, t⟩)
      (fun t => Steps env ⟨.turning, s⟩ ⟨.outside, t⟩) s := by
  have first : wp (beginFrame env) (fun _ t => wp (fireSlot env) (fun _ u => Steps env ⟨.turning, s⟩ ⟨.turning, u⟩)
      (fun u => Steps env ⟨.turning, s⟩ ⟨.outside, u⟩) t) (fun t => Steps env ⟨.turning, s⟩ ⟨.outside, t⟩) s := by
    refine wp_of_exec (fun _ t begun => ?_) fun t raised => .single (.beginRaised more raised)
    simp only [fireSlot, wp_bind, wp_get]
    rw [wp_ite]
    refine ⟨fun inside => ?_, fun beyond => .single (.noSlot more begun beyond)⟩
    have start : Steps env ⟨.turning, s⟩ _ := .single (.begin more begun inside)
    simp only [wp_bind, wp_modify]
    refine wp_mono (fireTimers_steps _ _) (fun _ u fired => ?_) fun u raised => start.trans raised
    exact (start.trans fired).tail .frameDone
  simp only [beginFrame, wp_bind, wp_modify] at first
  simp only [updateFrame, wp_bind, wp_modify]
  exact first

/-- A frame that is over counts. -/
theorem updateFrame_counts (s : TimerState κ W) :
    wp (updateFrame env) (fun _ t => s.vCurrentFrameIdx < t.vCurrentFrameIdx) (fun _ => True) s := by
  simp only [updateFrame, wp_bind, wp_modify]
  refine wp_mono (cascade_grows env _ _ _) (fun _ t cascaded => ?_) fun _ _ => trivial
  refine wp_mono (fireSlot_counts env t) (fun _ u fired => ?_) fun _ _ => trivial
  exact Nat.lt_of_le_of_lt cascaded.2.2 fired

/-- The loop takes steps to the end of the call, or it has used up its turns, with a frame for each. -/
theorem updateLoop_steps (turns : Nat) :
    wp (updateLoop env turns)
      (fun _ t => Steps env ⟨.turning, s⟩ ⟨.outside, t⟩ ∨
        (Steps env ⟨.turning, s⟩ ⟨.turning, t⟩ ∧ s.vCurrentFrameIdx + turns ≤ t.vCurrentFrameIdx))
      (fun t => Steps env ⟨.turning, s⟩ ⟨.outside, t⟩) s := by
  induction turns generalizing s with
  | zero => exact Or.inr ⟨.refl, Nat.le_refl _⟩
  | succ turns ih =>
      simp only [updateLoop, wp_bind, wp_get]
      rw [wp_ite]
      refine ⟨fun more => ?_, fun less => Or.inl (.single (.stop less))⟩
      rw [wp_bind]
      refine wp_of_exec (fun _ t turn => ?_) fun t raised => of_exec_error (updateFrame_steps more) raised
      have first := of_exec (updateFrame_steps more) turn
      have counted := of_exec (updateFrame_counts s) turn
      refine wp_mono (ih (s := t)) (fun _ u rest => ?_) fun u rest => first.trans rest
      rcases rest with ended | ⟨turning, frames⟩
      · exact Or.inl (first.trans ended)
      · exact Or.inr ⟨first.trans turning, by omega⟩

end Functions

/-! ## Runs

Calls from outside, each with its steps; the last one may still be going on.
-/

/-- The time that `update` is called with has been added. -/
def elapsed (elapse : ℚ) (s : TimerState κ W) : TimerState κ W :=
  { s with vElapseTime := rounding.add s.vElapseTime elapse }

/-- The point right after a call: `add_timer` and `remove_timer` are over, `update` is at its loop. -/
def callPoint (s : TimerState κ W) : TimerCall κ → Point κ W
  | .update elapse => ⟨.turning, elapsed elapse s⟩
  | .op op => ⟨.outside, (exec (applyOp op) s).2⟩

variable (env) in
/-- Calls from outside, one after the other, with the steps that they take; the last one may not be over. -/
inductive Runs (p : Point κ W) : List (TimerCall κ) → Point κ W → Prop
  | nil : Runs p [] p
  | call {calls : List (TimerCall κ)} {s : TimerState κ W} (runs : Runs p calls ⟨.outside, s⟩) (call : TimerCall κ) :
      Runs p (calls ++ [call]) (callPoint s call)
  | step {calls : List (TimerCall κ)} {q r : Point κ W} (runs : Runs p calls q) (step : Step env q r) :
      Runs p calls r

section Runs

variable {p q r : Point κ W} {calls calls' : List (TimerCall κ)}

theorem Runs.steps (runs : Runs env p calls q) (steps : Steps env q r) : Runs env p calls r := by
  induction steps with
  | refl => exact runs
  | tail _ last ih => exact ih.step last

/-- Runs one after the other. -/
theorem Runs.trans (first : Runs env p calls q) (second : Runs env q calls' r) : Runs env p (calls ++ calls') r := by
  induction second with
  | nil =>
      rw [List.append_nil]
      exact first
  | call _ call ih =>
      rw [← List.append_assoc]
      exact ih.call call
  | step _ step ih => exact ih.step step

/-- What calls and steps keep holds at every point, where a step may count on what is known of the points of the
run. -/
theorem Runs.invariant {I : Point κ W → Prop} (start : I p)
    (onCall : ∀ s call, I ⟨.outside, s⟩ → I (callPoint s call))
    (onStep : ∀ before q r, before <+: calls → Runs env p before q → I q → Step env q r → I r)
    (runs : Runs env p calls q) : I q := by
  induction runs with
  | nil => exact start
  | call _ call ih =>
      refine onCall _ call (ih fun before q r isPrefix => ?_)
      exact onStep before q r (isPrefix.trans (List.prefix_append _ _))
  | step before last ih => exact onStep _ _ _ (List.prefix_refl _) before (ih onStep) last

end Runs

end GameServer.Timer
