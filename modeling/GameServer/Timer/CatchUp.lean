/-
Module: GameServer.Timer.CatchUp
Purpose: Whether elapsed time comes in one call of `update` or in several: the calls work off the same frames, and
  when that makes a difference.
Trusted boundary: none
Main exports: frames, delay, Quiet, update_eq_frames, SameOutcome, Returns, catchUp_iff
-/
import Mathlib.Algebra.Order.BigOperators.Group.List
import GameServer.Timer.Refinement
import GameServer.Timer.UpdateLoop

namespace GameServer.Timer

open Lib Lib.LuaM TimerState
open scoped ExactArithmetic

variable {κ W : Type} (env : TimerEnv κ W)

/-! ## Frames

The loop of `update` without its comparison: so many turns, whatever time is left. Two calls that work off the same
frames can then be compared frame by frame.
-/

/-- Turns of the outer `while` of `update`, without its comparison. -/
def frames : Nat → LuaM (TimerState κ W) Unit
  | 0 => pure ()
  | n + 1 => do
      updateFrame env
      frames n

/-- The function returns from the state. -/
def Returns {α σ : Type} (m : LuaM σ α) (s : σ) : Prop := wp m (fun _ _ => True) (fun _ => False) s

/-- More time than there was. -/
def delay (b : ℚ) (s : TimerState κ W) : TimerState κ W := { s with vElapseTime := s.vElapseTime + b }

theorem delay_delay (a b : ℚ) (s : TimerState κ W) : delay b (delay a s) = delay (a + b) s := by
  simp only [delay, add_assoc]

theorem delay_zero (s : TimerState κ W) : delay 0 s = s := by
  simp only [delay, add_zero]

/-- A turn takes one frame out of `v_elapse_time`, whether it returns or raises. -/
theorem updateFrame_takes (s : TimerState κ W) :
    (exec (updateFrame env) s).2.vElapseTime = s.vElapseTime - secondPerFrame := by
  rw [← wp_same (P := fun t : TimerState κ W => t.vElapseTime = s.vElapseTime - secondPerFrame)]
  simp only [updateFrame, wp_bind, wp_modify]
  refine wp_mono (cascade_grows env _ _ _) (fun _ t cascaded => ?_) fun t cascaded => cascaded.2.1
  refine wp_mono (fireSlot_grows env t) (fun _ u fired => ?_) fun u fired => ?_
  · exact fired.2.1.trans cascaded.2.1
  · exact fired.2.1.trans cascaded.2.1

theorem exec_frames_succ (n : Nat) (s : TimerState κ W) :
    exec (frames env (n + 1)) s = match exec (updateFrame env) s with
      | (.ok _, t) => exec (frames env n) t
      | (.error e, t) => (.error e, t) := by
  rw [frames, exec_bind]
  cases exec (updateFrame env) s with
  | mk result t => cases result <;> rfl

/-- Several frames return, or raise in one of them; then fewer frames return, and more of them end as these do. -/
theorem frames_cases (n : Nat) (s : TimerState κ W) :
    (∃ t, exec (frames env n) s = (.ok (), t) ∧ t.vElapseTime = s.vElapseTime - n * secondPerFrame) ∨
      ∃ k < n, ∃ t, t.vElapseTime = s.vElapseTime - (k + 1 : Nat) * secondPerFrame ∧
        (∀ m ≤ k, Returns (frames env m) s) ∧ ∀ m, k < m → exec (frames env m) s = (.error (), t) := by
  induction n generalizing s with
  | zero =>
      left
      exact ⟨s, rfl, by simp⟩
  | succ n ih =>
      have takes := updateFrame_takes env s
      have step := fun m => exec_frames_succ env m s
      cases turn : exec (updateFrame env) s with
      | mk result t =>
          rw [turn] at takes step
          cases result with
          | error _ =>
              right
              refine ⟨0, Nat.succ_pos n, t, ?_, fun m small => ?_, fun m positive => ?_⟩
              · rw [takes]
                simp
              · rw [Nat.le_zero.mp small]
                trivial
              · obtain ⟨m, rfl⟩ := Nat.exists_eq_succ_of_ne_zero (Nat.ne_of_gt positive)
                exact step m
          | ok _ =>
              rcases ih t with ⟨u, done, left'⟩ | ⟨k, below, u, left', fewer, more⟩
              · left
                refine ⟨u, (step n).trans done, ?_⟩
                rw [left', takes]
                push_cast
                ring
              · right
                refine ⟨k + 1, Nat.succ_lt_succ below, u, ?_, fun m small => ?_, fun m large => ?_⟩
                · rw [left', takes]
                  push_cast
                  ring
                · cases m with
                  | zero => trivial
                  | succ m =>
                      have returned := fewer m (Nat.le_of_succ_le_succ small)
                      unfold Returns wp at returned ⊢
                      rw [step m]
                      exact returned
                · obtain ⟨m, rfl⟩ := Nat.exists_eq_succ_of_ne_zero (Nat.ne_of_gt (Nat.zero_lt_of_lt large))
                  exact (step m).trans (more m (Nat.lt_of_succ_lt_succ large))

/-- Frames come one after the other. -/
theorem frames_add (m n : Nat) (s : TimerState κ W) :
    exec (frames env (m + n)) s = exec (frames env m >>= fun _ => frames env n) s := by
  induction m generalizing s with
  | zero =>
      rw [Nat.zero_add]
      rfl
  | succ m ih =>
      have split : m + 1 + n = m + n + 1 := by omega
      rw [split, exec_bind, exec_frames_succ, exec_frames_succ]
      cases exec (updateFrame env) s with
      | mk result t =>
          cases result with
          | error _ => rfl
          | ok _ =>
              change exec (frames env (m + n)) t = _
              rw [ih t, exec_bind]

/-! ## `update` works off whole frames

With exact time the comparison of the loop is decided beforehand, by the whole frames in the time.
-/

/-- With turns enough the loop of `update` works off the whole frames that are left. -/
theorem updateLoop_eq_frames (turns : Nat) (s : TimerState κ W) (enough : wholeFrames s.vElapseTime ≤ turns) :
    exec (updateLoop env turns) s = exec (frames env (wholeFrames s.vElapseTime)) s := by
  induction turns generalizing s with
  | zero =>
      rw [Nat.le_zero.mp enough]
      rfl
  | succ turns ih =>
      have unfolded : exec (updateLoop env (turns + 1)) s =
          exec (if s.vElapseTime > secondPerFrame then updateFrame env >>= fun _ => updateLoop env turns else pure ()) s :=
        rfl
      rw [unfolded]
      by_cases more : s.vElapseTime > secondPerFrame
      · have count := wholeFrames_of_lt more
        have takes := updateFrame_takes env s
        rw [if_pos more, count, exec_frames_succ, exec_bind]
        cases turn : exec (updateFrame env) s with
        | mk result t =>
            rw [turn] at takes
            cases result with
            | error _ => rfl
            | ok _ =>
                change t.vElapseTime = _ at takes
                rw [← takes] at count ⊢
                exact ih t (by omega)
      · rw [if_neg more, wholeFrames_of_le (not_lt.mp more)]
        rfl

/-- A call of `update` is so many frames. -/
theorem update_eq_frames (x : ℚ) (s : TimerState κ W) :
    exec (applyCall env (.update x)) s = exec (frames env (wholeFrames (s.vElapseTime + x))) (delay x s) :=
  updateLoop_eq_frames env _ (delay x s) ((Nat.sub_le _ 1).trans (ceil_le_turnsFor _))

/-! ## The time that is left is not looked at

A frame does the same, however much time is left behind it, so frames of one call can be moved to another.
-/

/-- Callbacks neither add nor remove timers.  `v_elapse_time` is a field of the timer object alone: no callback reads
it, and the order of `pairs` does not depend on it. -/
structure Quiet : Prop where
  noOps : ∀ cb id (s : TimerState κ W), (env.callback cb id s).ops = []
  callback : ∀ cb id (s : TimerState κ W) b, env.callback cb id (delay b s) = env.callback cb id s
  pairs : ∀ (s : TimerState κ W) slot b, env.pairs (delay b s) slot = env.pairs s slot

theorem internalAddTimer_delay (b : ℚ) (timer : TimerInfo κ) :
    Commutes (delay b) (internalAddTimer timer : LuaM (TimerState κ W) Unit) := by
  refine Commutes.get_bind (fun _ => rfl) fun s => ?_
  split
  · exact Simulates.pure ()
  · exact Simulates.ite Iff.rfl (Simulates.modify fun _ => rfl) Simulates.raise

theorem removeTimer_delay (b : ℚ) (index : Nat) :
    Commutes (delay b) (removeTimer index : LuaM (TimerState κ W) Bool) := by
  refine Commutes.get_bind (fun _ => rfl) fun s => ?_
  split
  · exact Simulates.bind (Simulates.modify fun _ => rfl) fun _ => Simulates.pure true
  · exact Simulates.pure false

section Quiet

variable {env} (quiet : Quiet env) (b : ℚ)
include quiet

theorem callTimer_delay (timer : TimerInfo κ) : Commutes (delay b) (callTimer env timer) := by
  refine Simulates.bind (Simulates.modify fun _ => rfl) fun _ => ?_
  refine Simulates.bind (Simulates.modify fun _ => rfl) fun _ => ?_
  refine Commutes.get_bind (fun s => ?_) fun s => ?_
  · simp only [quiet.callback]
  · simp only [quiet.noOps, forEach]
    refine Simulates.bind (Simulates.modify fun _ => rfl) fun _ => ?_
    refine Simulates.bind (Simulates.pure ()) fun _ => ?_
    split
    · exact Simulates.bind (Simulates.modify fun _ => rfl) fun _ => Simulates.raise
    · exact Simulates.bind (Simulates.modify fun _ => rfl) fun _ => Simulates.pure _

theorem fireTimer_delay (wheelIndex idx : Nat) : Commutes (delay b) (fireTimer env wheelIndex idx) := by
  refine Commutes.get_bind (fun _ => rfl) fun s => ?_
  split
  · exact Simulates.pure ()
  · refine (callTimer_delay quiet b _).bind fun result => ?_
    refine (removeTimer_delay b idx).bind fun _ => ?_
    exact Simulates.ite Iff.rfl (internalAddTimer_delay b _) (Simulates.pure ())

theorem fireSlot_delay : Commutes (delay b) (fireSlot env) := by
  refine Commutes.get_bind (fun s => ?_) fun s => ?_
  · simp only [quiet.pairs]
    rfl
  · refine Simulates.ite Iff.rfl ?_ Simulates.raise
    refine (Commutes.forEach (fireTimer_delay quiet b _) _).bind fun _ => ?_
    refine Simulates.bind (Simulates.modify fun _ => rfl) fun _ => ?_
    exact Simulates.bind (Simulates.modify fun _ => rfl) fun _ => Simulates.modify fun _ => rfl

theorem cascadeTimers_delay (w : Fin 4) : Commutes (delay b) (cascadeTimers env w) := by
  refine Commutes.get_bind (fun s => ?_) fun s => ?_
  · simp only [quiet.pairs]
    rfl
  · refine Simulates.ite Iff.rfl ?_ Simulates.raise
    refine (Commutes.forEach (internalAddTimer_delay b) _).bind fun _ => ?_
    exact Simulates.bind (Simulates.modify fun _ => rfl) fun _ => Simulates.modify fun _ => rfl

theorem cascade_delay (behind : List (Fin 4)) (w : Fin 4) : Commutes (delay b) (cascade env behind w) := by
  induction behind generalizing w with
  | nil =>
      refine Commutes.get_bind (fun _ => rfl) fun s => Simulates.ite Iff.rfl ?_ (Simulates.pure ())
      exact Simulates.bind (Simulates.modify fun _ => rfl) fun _ => Simulates.raise
  | cons next behind ih =>
      refine Commutes.get_bind (fun _ => rfl) fun s => Simulates.ite Iff.rfl ?_ (Simulates.pure ())
      refine Simulates.bind (Simulates.modify fun _ => rfl) fun _ => ?_
      exact (cascadeTimers_delay quiet b next).bind fun _ => ih next

theorem updateFrame_delay : Commutes (delay b) (updateFrame env) := by
  refine Simulates.bind (Simulates.modify fun s => ?_) fun _ => ?_
  · simp only [delay, ExactArithmetic.rounding_eq, Rounding.sub_exact, add_sub_right_comm]
  refine Simulates.bind (Simulates.modify fun _ => rfl) fun _ => ?_
  exact (cascade_delay quiet b [1, 2, 3] 0).bind fun _ => fireSlot_delay quiet b

/-- The same timers are started in the same frames, however much time is left behind them. -/
theorem frames_delay (n : Nat) : Commutes (delay b) (frames env n) := by
  induction n with
  | zero => exact Simulates.pure ()
  | succ n ih => exact (updateFrame_delay quiet b).bind fun _ => ih

end Quiet

/-! ## One call of `update`

A call that returns has worked off all its frames; one that raises has kept the time of the rest.
-/

section Updates

variable {env} {s : TimerState κ W}

/-- When frames raise, the time that is left is too little for another frame exactly when there was no further one. -/
theorem left_le_iff (x : ℚ) (k : Nat) : x - (k : ℚ) * secondPerFrame ≤ secondPerFrame ↔ wholeFrames x ≤ k := by
  rw [← wholeFrames_eq_zero_iff, wholeFrames_sub, Nat.sub_eq_zero_iff_le]

/-- What frames that return leave of the time. -/
theorem Returns.exec_eq {n : Nat} (returns : Returns (frames env n) s) :
    ∃ t, exec (frames env n) s = (.ok (), t) ∧ t.vElapseTime = s.vElapseTime - n * secondPerFrame := by
  rcases frames_cases env n s with done | ⟨k, below, t, -, -, more⟩
  · exact done
  · unfold Returns wp at returns
    rw [more n below] at returns
    exact returns.elim

/-- When many frames return, fewer do, too. -/
theorem Returns.of_le {m n : Nat} (returns : Returns (frames env n) s) (le : m ≤ n) : Returns (frames env m) s := by
  unfold Returns at returns ⊢
  obtain ⟨rest, rfl⟩ := Nat.exists_eq_add_of_le le
  unfold wp at returns
  rw [frames_add] at returns
  change wp (frames env m >>= fun _ => frames env rest) (fun _ _ => True) (fun _ => False) s at returns
  rw [wp_bind] at returns
  exact wp_mono returns (fun _ _ _ => trivial) fun _ never => never

/-- Of frames that raise, those before the one that raises return. -/
theorem returns_iff {k : Nat} {t : TimerState κ W} (fewer : ∀ m ≤ k, Returns (frames env m) s)
    (more : ∀ m, k < m → exec (frames env m) s = (.error (), t)) (m : Nat) : Returns (frames env m) s ↔ m ≤ k := by
  constructor
  · intro returns
    by_contra beyond
    unfold Returns wp at returns
    rw [more m (not_le.mp beyond)] at returns
    exact returns
  · exact fewer m

end Updates

/-! ## Several calls of `update`

Calls that return add up: their frames are those of one call with their sum.
-/

section Ticks

variable {env} (quiet : Quiet env) {s : TimerState κ W}
include quiet

/-- The state after `update` is that of the frames it works off. -/
theorem stateAfter_update (s : TimerState κ W) (x : ℚ) :
    stateAfter env s (.update x) = delay x (exec (frames env (wholeFrames (s.vElapseTime + x))) s).2 := by
  rw [stateAfter, update_eq_frames, frames_delay quiet x]

/-- Two calls are one, when the first of them returns. -/
theorem stateAfter_merge {a b : ℚ} (nonneg : 0 ≤ b)
    (returns : Returns (frames env (wholeFrames (s.vElapseTime + a))) s) :
    stateAfter env (stateAfter env s (.update a)) (.update b) = stateAfter env s (.update (a + b)) := by
  obtain ⟨t, first, left⟩ := returns.exec_eq
  have more : wholeFrames (s.vElapseTime + a) ≤ wholeFrames (s.vElapseTime + (a + b)) :=
    wholeFrames_mono (by linarith)
  have rest : wholeFrames ((delay a t).vElapseTime + b) =
      wholeFrames (s.vElapseTime + (a + b)) - wholeFrames (s.vElapseTime + a) := by
    rw [← wholeFrames_sub]
    congr 1
    change t.vElapseTime + a + b = _
    rw [left]
    ring
  have split : wholeFrames (s.vElapseTime + (a + b)) =
      wholeFrames (s.vElapseTime + a) + wholeFrames ((delay a t).vElapseTime + b) := by omega
  rw [stateAfter_update quiet s a, first, stateAfter_update quiet _ b, frames_delay quiet a, delay_delay,
    stateAfter_update quiet s (a + b), split, frames_add, exec_bind, first]

/-- Time that is no whole frame is only kept. -/
theorem ticks_idle (ticks : List ℚ) (nonneg : ∀ x ∈ ticks, 0 ≤ x)
    (little : s.vElapseTime + ticks.sum ≤ secondPerFrame) :
    (ticks.map TimerCall.update).foldl (stateAfter env) s = delay ticks.sum s := by
  induction ticks generalizing s with
  | nil => exact (delay_zero s).symm
  | cons x ticks ih =>
      obtain ⟨-, others⟩ := List.forall_mem_cons.mp nonneg
      have rest : 0 ≤ ticks.sum := List.sum_nonneg others
      rw [List.sum_cons] at little ⊢
      have none : wholeFrames (s.vElapseTime + x) = 0 := wholeFrames_of_le (by linarith)
      have kept : stateAfter env s (.update x) = delay x s := by
        rw [stateAfter_update quiet s x, none]
        rfl
      rw [List.map_cons, List.foldl_cons, kept, ih others, delay_delay]
      change s.vElapseTime + x + ticks.sum ≤ secondPerFrame
      linarith

omit quiet in
/-- Frames only take time. -/
theorem frames_elapse_le (n : Nat) (s : TimerState κ W) :
    (exec (frames env n) s).2.vElapseTime ≤ s.vElapseTime ∧
      (0 < n → (exec (frames env n) s).2.vElapseTime < s.vElapseTime) := by
  have positive : (0 : ℚ) < secondPerFrame := by norm_num [secondPerFrame_eq]
  rcases frames_cases env n s with ⟨t, done, left⟩ | ⟨k, below, t, left, -, more⟩
  · rw [done, left]
    have scaled : (0 : ℚ) ≤ n * secondPerFrame := by positivity
    refine ⟨by linarith, fun some => ?_⟩
    have cast : (0 : ℚ) < n := by exact_mod_cast some
    have taken := mul_pos cast positive
    linarith
  · rw [more n below, left]
    have scaled : (0 : ℚ) < (k + 1 : Nat) * secondPerFrame := by positivity
    exact ⟨by linarith, fun _ => by linarith⟩

/-- What is left is at most what there was and what came in. -/
theorem ticks_elapse_le (ticks : List ℚ) :
    ((ticks.map TimerCall.update).foldl (stateAfter env) s).vElapseTime ≤ s.vElapseTime + ticks.sum := by
  induction ticks generalizing s with
  | nil => simp
  | cons x ticks ih =>
      have first : (stateAfter env s (.update x)).vElapseTime ≤ s.vElapseTime + x := by
        rw [stateAfter_update quiet s x]
        exact add_le_add_left (frames_elapse_le _ s).1 x
      have rest := ih (s := stateAfter env s (.update x))
      rw [List.map_cons, List.foldl_cons, List.sum_cons]
      linarith

/-- Time for a whole frame is not all left at the end. -/
theorem ticks_busy (ticks : List ℚ) (some : ticks ≠ []) (much : secondPerFrame < s.vElapseTime + ticks.sum) :
    ((ticks.map TimerCall.update).foldl (stateAfter env) s).vElapseTime < s.vElapseTime + ticks.sum := by
  induction ticks generalizing s with
  | nil => exact absurd rfl some
  | cons x ticks ih =>
      rw [List.sum_cons] at much ⊢
      rw [List.map_cons, List.foldl_cons]
      by_cases little : s.vElapseTime + x ≤ secondPerFrame
      · have kept : stateAfter env s (.update x) = delay x s := by
          rw [stateAfter_update quiet s x, wholeFrames_of_le little]
          rfl
        rw [kept]
        cases ticks with
        | nil =>
            rw [List.sum_nil, add_zero] at much
            exact absurd much (not_lt.mpr little)
        | cons y ticks =>
            have later := ih (s := delay x s) (List.cons_ne_nil y ticks) (by
              change secondPerFrame < s.vElapseTime + x + _
              linarith)
            change _ < s.vElapseTime + x + _ at later
            linarith
      · have count : 0 < wholeFrames (s.vElapseTime + x) := by
          by_contra none
          exact little ((wholeFrames_eq_zero_iff _).mp (Nat.eq_zero_of_not_pos none))
        have first : (stateAfter env s (.update x)).vElapseTime < s.vElapseTime + x := by
          rw [stateAfter_update quiet s x]
          exact add_lt_add_left ((frames_elapse_le _ s).2 count) x
        have rest := ticks_elapse_le quiet ticks (s := stateAfter env s (.update x))
        linarith

end Ticks

/-! ## Catching up

One call with the whole time against many with parts of it: the outcome is the same exactly when no frame raises.
-/

/-- The callbacks that were started, in order, each with its frame. -/
def starts (trace : List TimerEvent) : List (Nat × Nat) :=
  trace.filterMap fun
    | .started id frame => some (id, frame)
    | _ => none

/-- The same timers were started in the same frames, and the wheel is in the same state. -/
structure SameOutcome (s t : TimerState κ W) : Prop where
  starts : starts s.trace = starts t.trace
  frame : s.vCurrentFrameIdx = t.vCurrentFrameIdx
  index : ∀ w, (s.vWheels w).index = (t.vWheels w).index
  slots : ∀ w i, s.slot w i = t.slot w i
  elapse : s.vElapseTime = t.vElapseTime

theorem SameOutcome.of_eq {s t : TimerState κ W} (same : s = t) : SameOutcome s t := by
  subst same
  exact ⟨rfl, rfl, fun _ => rfl, fun _ _ => rfl, rfl⟩

section CatchUp

variable {env} (quiet : Quiet env) {s : TimerState κ W}
include quiet

/-- A frame that raises is caught up with only when it was the last one. -/
theorem sameOutcome_of_raised {first : ℚ} {ticks : List ℚ} (some : ticks ≠ []) (nonneg : ∀ x ∈ ticks, 0 ≤ x)
    {k : Nat} {t : TimerState κ W} (below : k < wholeFrames (s.vElapseTime + first))
    (left : t.vElapseTime = s.vElapseTime - (k + 1 : Nat) * secondPerFrame)
    (more : ∀ m, k < m → exec (frames env m) s = (.error (), t)) :
    SameOutcome (((first :: ticks).map TimerCall.update).foldl (stateAfter env) s)
        (stateAfter env s (.update (first + ticks.sum))) ↔
      wholeFrames (s.vElapseTime + (first + ticks.sum)) ≤ k + 1 := by
  have sum : 0 ≤ ticks.sum := List.sum_nonneg nonneg
  have longer : wholeFrames (s.vElapseTime + first) ≤ wholeFrames (s.vElapseTime + (first + ticks.sum)) :=
    wholeFrames_mono (by linarith)
  have total : stateAfter env s (.update (first + ticks.sum)) = delay (first + ticks.sum) t := by
    rw [stateAfter_update quiet s, more _ (Nat.lt_of_lt_of_le below longer)]
  have begun : stateAfter env s (.update first) = delay first t := by
    rw [stateAfter_update quiet s, more _ below]
  have rest : (delay first t).vElapseTime + ticks.sum =
      s.vElapseTime + (first + ticks.sum) - (k + 1 : Nat) * secondPerFrame := by
    change t.vElapseTime + first + ticks.sum = _
    rw [left]
    ring
  rw [List.map_cons, List.foldl_cons, begun, total, ← left_le_iff, ← rest]
  constructor
  · intro same
    by_contra much
    have lost := ticks_busy quiet ticks some (not_le.mp much)
    rw [same.elapse] at lost
    change t.vElapseTime + (first + ticks.sum) < t.vElapseTime + first + ticks.sum at lost
    linarith
  · intro little
    rw [ticks_idle quiet ticks nonneg little, delay_delay]
    exact SameOutcome.of_eq rfl

/-- When a frame of the first call raises. -/
theorem sameOutcome_iff_of_raises {first last : ℚ} {ticks : List ℚ} (nonneg : ∀ x ∈ ticks, 0 ≤ x)
    (lastNonneg : 0 ≤ last) (raises : ¬ Returns (frames env (wholeFrames (s.vElapseTime + first))) s) :
    SameOutcome (((first :: ticks ++ [last]).map TimerCall.update).foldl (stateAfter env) s)
        (stateAfter env s (.update (first + ticks.sum + last))) ↔
      Returns (frames env (min (wholeFrames (s.vElapseTime + (first + ticks.sum)))
        (wholeFrames (s.vElapseTime + (first + ticks.sum + last)) - 1))) s := by
  rcases frames_cases env (wholeFrames (s.vElapseTime + first)) s with ⟨t, done, -⟩ | ⟨k, below, t, left, fewer, more⟩
  · refine absurd ?_ raises
    unfold Returns wp
    rw [done]
    trivial
  · have all : ∀ x ∈ ticks ++ [last], 0 ≤ x := by
      intro x member
      rcases List.mem_append.mp member with inside | isLast
      · exact nonneg x inside
      · rw [List.mem_singleton.mp isLast]
        exact lastNonneg
    have same := sameOutcome_of_raised quiet (List.append_ne_nil_of_right_ne_nil ticks (List.cons_ne_nil last []))
      all below left more
    rw [List.sum_append, List.sum_singleton, ← add_assoc] at same
    have sum : 0 ≤ ticks.sum := List.sum_nonneg nonneg
    have longer : wholeFrames (s.vElapseTime + first) ≤ wholeFrames (s.vElapseTime + (first + ticks.sum)) :=
      wholeFrames_mono (by linarith)
    rw [List.cons_append, same, returns_iff fewer more]
    omega

/-- Several calls of `update` end as one does exactly when the frames before the last call return, the last frame of
all aside. -/
theorem sameOutcome_iff {first last : ℚ} (ticks : List ℚ) (nonneg : ∀ x ∈ ticks, 0 ≤ x) (lastNonneg : 0 ≤ last) :
    SameOutcome (((first :: ticks ++ [last]).map TimerCall.update).foldl (stateAfter env) s)
        (stateAfter env s (.update (first + ticks.sum + last))) ↔
      Returns (frames env (min (wholeFrames (s.vElapseTime + (first + ticks.sum)))
        (wholeFrames (s.vElapseTime + (first + ticks.sum + last)) - 1))) s := by
  induction ticks generalizing first with
  | nil =>
      by_cases returns : Returns (frames env (wholeFrames (s.vElapseTime + first))) s
      · have merged := stateAfter_merge quiet lastNonneg returns
        rw [List.sum_nil, add_zero]
        constructor
        · intro _
          exact returns.of_le (Nat.min_le_left _ _)
        · intro _
          exact SameOutcome.of_eq merged
      · exact sameOutcome_iff_of_raises quiet nonneg lastNonneg returns
  | cons x ticks ih =>
      by_cases returns : Returns (frames env (wholeFrames (s.vElapseTime + first))) s
      · obtain ⟨xNonneg, others⟩ := List.forall_mem_cons.mp nonneg
        have merged := stateAfter_merge quiet xNonneg returns
        rw [List.sum_cons, ← add_assoc first x, ← ih others]
        simp only [List.cons_append, List.map_cons, List.foldl_cons, merged]
      · exact sameOutcome_iff_of_raises quiet nonneg lastNonneg returns

/-- Two calls of `update` start the same timers in the same frames as one, and end in the same state, exactly when each
frame of the first call returns, apart from the last frame of both.  So do any number of calls. -/
theorem catchUp_iff (s : TimerState κ W) :
    (∀ a b : ℚ, 0 ≤ a → 0 ≤ b →
      (SameOutcome (stateAfter env (stateAfter env s (.update a)) (.update b)) (stateAfter env s (.update (a + b))) ↔
        Returns (frames env (min (wholeFrames (s.vElapseTime + a)) (wholeFrames (s.vElapseTime + (a + b)) - 1))) s)) ∧
    ∀ (first last : ℚ) (ticks : List ℚ), (∀ x ∈ first :: ticks, 0 ≤ x) → 0 ≤ last →
      (SameOutcome (((first :: ticks ++ [last]).map TimerCall.update).foldl (stateAfter env) s)
          (stateAfter env s (.update ((first :: ticks).sum + last))) ↔
        Returns (frames env (min (wholeFrames (s.vElapseTime + (first :: ticks).sum))
          (wholeFrames (s.vElapseTime + ((first :: ticks).sum + last)) - 1))) s) := by
  constructor
  · intro a b _ bNonneg
    have pair : SameOutcome (([a, b].map TimerCall.update).foldl (stateAfter env) s)
        (stateAfter env s (.update (a + ([] : List ℚ).sum + b))) ↔ _ := sameOutcome_iff quiet [] (by simp) bNonneg
    rw [List.sum_nil, add_zero] at pair
    exact pair
  · intro first last ticks nonneg lastNonneg
    rw [List.sum_cons]
    exact sameOutcome_iff quiet ticks (List.forall_mem_cons.mp nonneg).2 lastNonneg

end CatchUp

/-- Every callback raises. -/
def raisingEnv : TimerEnv Nat (List Nat) :=
  .inOrder fun _ id s =>
    { world := id :: s.world, ops := [], result := none }

theorem raisingEnv_quiet : Quiet raisingEnv := ⟨fun _ _ _ => rfl, fun _ _ _ _ => rfl, fun _ _ _ => rfl⟩

theorem returningEnv_quiet : Quiet returningEnv := ⟨fun _ _ _ => rfl, fun _ _ _ _ => rfl, fun _ _ _ => rfl⟩

/-- From where the wheels stand, frames up to the last one return. -/
theorem frames_return (returns : ∀ cb id s, (env.callback cb id s).result ≠ none) {frame : Nat} {elapse : ℚ}
    {s : TimerState κ W} (n : Nat) (reach : frame + n ≤ wheelSizeMul1234)
    (standing : Standing frame (startIndex frame) false elapse s) : Returns (frames env n) s := by
  induction n generalizing frame elapse s with
  | zero => trivial
  | succ n ih =>
      unfold Returns
      rw [frames, wp_bind]
      refine wp_mono (updateFrame_completes env returns (by omega) standing) (fun _ t next => ?_) fun _ never => never
      exact ih (by omega) next

/-- A timer of half a second, one of 20.1 seconds with a period of 3 frames, and one of 25 seconds. -/
def threeTimers : TimerState Nat (List Nat) :=
  [TimerCall.op (.add (1 / 2) 1 0), .op (.add (201 / 10) 2 3), .op (.add 25 3 0)].foldl (stateAfter returningEnv)
    (TimerState.init [])

/-- The first call ends before the cascade of frame 200, the second one goes past it. -/
theorem catchUp_iff_twoFrames :
    SameOutcome (stateAfter returningEnv (stateAfter returningEnv threeTimers (.update 10)) (.update 11))
      (stateAfter returningEnv threeTimers (.update (10 + 11))) := by
  refine ((catchUp_iff returningEnv_quiet threeTimers).1 10 11 (by norm_num) (by norm_num)).mpr ?_
  have standing : Standing 0 (startIndex 0) false 0 threeTimers :=
    ⟨⟨by decide +kernel, by decide +kernel, by decide +kernel⟩, by decide +kernel, by decide +kernel⟩
  refine frames_return returningEnv returningEnv_returns _ ?_ standing
  rw [Nat.zero_add]
  exact (Nat.min_le_left _ _).trans (by decide +kernel)

/-- A timer that is due raises in the first call, and again in the second one, which takes another frame out of the time
that is left for it. -/
theorem raising_ticks_lose_frame :
    Quiet raisingEnv ∧
      ¬ SameOutcome
        ([TimerCall.op (.add 0 1 0), .update (1 / 5), .update (1 / 5)].foldl (stateAfter raisingEnv) (TimerState.init []))
        ([TimerCall.op (.add 0 1 0), .update (1 / 5 + 1 / 5)].foldl (stateAfter raisingEnv) (TimerState.init [])) := by
  refine ⟨raisingEnv_quiet, fun same => ?_⟩
  have lost := same.elapse
  revert lost
  decide +kernel

end GameServer.Timer
