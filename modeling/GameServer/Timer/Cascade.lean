/-
Module: GameServer.Timer.Cascade
Purpose: The cascades at the start of a frame: they bring every timer that expires in the coming span
  into a lower wheel, and leave the wheels as the callbacks of the frame find them.
Trusted boundary: none
Main exports: startIndex, frameIndex, AtStart, InFrame, slotFor_cascade, cascadeTimers_triple,
  cascade_triple
-/
import Mathlib.Order.Fin.Basic
import GameServer.Timer.Simulation

namespace GameServer.Timer

open Lib Lib.LuaM TimerState

variable {κ W : Type} (env : TimerEnv κ W)

/-! ## Phases of a frame

The indices at the start of a frame, and while its callbacks run.
-/

/-- The indices before the cascades of a frame: the first wheel has just left the slot of the frame
before. -/
def startIndex (frame : Nat) : Fin 4 → Nat
  | 0 => if frame = 0 then 0 else (frame - 1) % 200 + 1
  | 1 => (frame - 1) / 200 % 60
  | 2 => (frame - 1) / 12000 % 60
  | 3 => (frame - 1) / 720000 % 60

/-- The indices while the callbacks of a frame run. -/
def frameIndex (frame : Nat) : Fin 4 → Nat
  | 0 => frame % 200
  | 1 => frame / 200 % 60
  | 2 => frame / 12000 % 60
  | 3 => frame / 720000 % 60

/-- Between two frames: a higher wheel can be cascaded from the coming frame on, though never in
frame 0. -/
def AtStart (frame : Nat) (s : TimerState κ W) : Prop :=
  Inv (fun _ => max frame 1) [] none s ∧ Clock frame (startIndex frame) false s

/-- While the callbacks of a frame run: the cascades of the frame are done. -/
def InFrame (frame : Nat) (cur : Option Nat) (barrier : Bool) (s : TimerState κ W) : Prop :=
  Inv (fun _ => frame + 1) [] cur s ∧ Clock frame (frameIndex frame) barrier s

/-! ## Indices

Turning a wheel changes its index and nothing else.
-/

theorem slot_setIndex (s : TimerState κ W) (w w' : Fin 4) (index i : Nat) :
    (s.setIndex w index).slot w' i = s.slot w' i := by
  by_cases wheel : w' = w
  · subst wheel
    simp [TimerState.slot, TimerState.setIndex, TimerState.setWheel]
  · simp [TimerState.slot, TimerState.setIndex, TimerState.setWheel, wheel]

/-- The invariant does not look at the indices. -/
theorem Inv.setIndex {next : Fin 4 → Nat} {hand : List (TimerInfo κ)} {cur : Option Nat}
    {s : TimerState κ W} (inv : Inv next hand cur s) (w : Fin 4) (index : Nat) :
    Inv next hand cur (s.setIndex w index) := by
  refine inv.congr (slot_setIndex s w · index ·) (fun w' => ?_) rfl rfl rfl rfl
  by_cases wheel : w' = w
  · subst wheel
    simp [TimerState.setIndex, TimerState.setWheel]
  · simp [TimerState.setIndex, TimerState.setWheel, wheel]

theorem Clock.setIndex {frame : Nat} {index : Fin 4 → Nat} {barrier : Bool} {s : TimerState κ W}
    (clock : Clock frame index barrier s) (w : Fin 4) (value : Nat) :
    Clock frame (Function.update index w value) barrier (s.setIndex w value) := by
  refine ⟨clock.frame, fun w' => ?_, clock.barrier⟩
  by_cases wheel : w' = w
  · subst wheel
    simp [TimerState.setIndex, TimerState.setWheel]
  · simpa [TimerState.setIndex, TimerState.setWheel, wheel] using clock.index w'

/-! ## Cascades

The wheels whose index is at its bound are cascaded one behind the other. A timer whose slot is cascaded is put into a
finer wheel, in time for its expiry; the others are not due before the next cascade of their wheel.
-/

/-- The timers in the slot that is cascaded in a frame expire within the span of that slot. -/
theorem Timely.due_of_cascade {frame : Nat} {next : Fin 4 → Nat} {w : Fin 4} {e : Int} (higher : w ≠ 0)
    (positive : 0 < frame) (aligned : frame % slotSpan w = 0) (fresh : next w = frame)
    (timely : Timely frame next w ((frame / slotSpan w - 1) % 60) e) :
    (frame : Int) ≤ e ∧ e < frame + slotSpan w := by
  match w with
  | 0 => exact absurd rfl higher
  | 1 =>
      simp only [Timely, slotSpan, wheelSize1] at timely aligned ⊢
      omega
  | 2 =>
      simp only [Timely, slotSpan, wheelSizeMul12, wheelSize1, wheelSize2] at timely aligned ⊢
      omega
  | 3 =>
      simp only [Timely, slotSpan, wheelSizeMul123, wheelSize1, wheelSize2, wheelSize3]
        at timely aligned ⊢
      omega

/-- The timers in the other slots of the wheel come out later. -/
theorem Timely.after_cascade {frame : Nat} {next next' : Fin 4 → Nat} {w : Fin 4} {i : Nat} {e : Int}
    (higher : w ≠ 0) (positive : 0 < frame) (aligned : frame % slotSpan w = 0)
    (fresh : next w = frame) (done : next' w = frame + 1) (other : i ≠ (frame / slotSpan w - 1) % 60)
    (timely : Timely frame next w i e) : Timely frame next' w i e := by
  match w with
  | 0 => exact absurd rfl higher
  | 1 =>
      simp only [Timely, slotSpan, wheelSize1] at timely aligned other ⊢
      omega
  | 2 =>
      simp only [Timely, slotSpan, wheelSizeMul12, wheelSize1, wheelSize2] at timely aligned other ⊢
      omega
  | 3 =>
      simp only [Timely, slotSpan, wheelSizeMul123, wheelSize1, wheelSize2, wheelSize3]
        at timely aligned other ⊢
      omega

/-- When no cascade of the wheel is due in a frame, its timers come out later. -/
theorem Timely.not_due {frame : Nat} {next : Fin 4 → Nat} {w : Fin 4} {i : Nat} {e : Int}
    (quiet : frame = 0 ∨ frame % slotSpan w ≠ 0) (fresh : next w = max frame 1)
    (timely : Timely frame next w i e) (next' : Fin 4 → Nat) (done : next' w = frame + 1) :
    Timely frame next' w i e := by
  match w with
  | 0 => exact timely
  | 1 =>
      simp only [Timely, slotSpan, wheelSize1] at timely quiet ⊢
      omega
  | 2 =>
      simp only [Timely, slotSpan, wheelSizeMul12, wheelSize1, wheelSize2] at timely quiet ⊢
      omega
  | 3 =>
      simp only [Timely, slotSpan, wheelSizeMul123, wheelSize1, wheelSize2, wheelSize3]
        at timely quiet ⊢
      omega

/-- The slots of a higher wheel span more frames. -/
theorem slotSpan_le {w w' : Fin 4} (le : w ≤ w') : slotSpan w ≤ slotSpan w' := by
  revert w w'
  decide

/-- When a higher wheel is cascaded, the first one is at its bound. -/
theorem aligned_first {frame : Nat} {w : Fin 4} (higher : w ≠ 0)
    (aligned : frame % slotSpan w = 0) : frame % 200 = 0 := by
  match w with
  | 0 => exact absurd rfl higher
  | 1 => exact aligned
  | 2 =>
      simp only [slotSpan, wheelSizeMul12, wheelSize1, wheelSize2] at aligned
      omega
  | 3 =>
      simp only [slotSpan, wheelSizeMul123, wheelSize1, wheelSize2, wheelSize3] at aligned
      omega

/-- A timer that is taken out of a slot in a cascade goes to a lower wheel, and stands well there. -/
theorem slotFor_cascade {s : TimerState κ W} {frame : Nat} {index next : Fin 4 → Nat} {w : Fin 4}
    {e : Int} (clock : Clock frame index false s) (higher : w ≠ 0)
    (aligned : frame % slotSpan w = 0) (first : index 0 = 0)
    (lower : ∀ v, v < w → next v ≤ frame + 1) (from' : (frame : Int) ≤ e)
    (until' : e < frame + slotSpan w) :
    ∃ w' i', s.slotFor e = some (w', i') ∧ w' < w ∧ Timely frame next w' i' e := by
  rcases lt_or_eq_of_le from' with later | now
  · have reach : slotSpan w ≤ 720000 := slotSpan_le (Fin.le_last w)
    obtain ⟨w', i', choice, timely, span⟩ :=
      slotFor_spec s (by rw [clock.frame]; exact later) (by rw [clock.frame]; omega)
    have below : w' < w := by
      by_contra notBelow
      have spans := slotSpan_le (not_lt.mp notBelow)
      rw [clock.frame] at span
      omega
    rw [clock.frame] at timely
    exact ⟨w', i', choice, below, timely.mono (lower w' below)⟩
  · refine ⟨0, 0, ?_, Fin.pos_iff_ne_zero.mpr higher, ?_⟩
    · simp only [slotFor, clock.frame, clock.barrier, clock.index, first]
      rw [if_pos (by omega)]
      rfl
    · have zero := aligned_first higher aligned
      simp only [Timely]
      omega

/-- Storing a timer elsewhere and emptying a slot can be done in either order. -/
theorem setSlot_store_comm (s : TimerState κ W) {w w' : Fin 4} (other : w' ≠ w) (i i' : Nat)
    (slot : List (TimerInfo κ)) (timer : TimerInfo κ) :
    (s.store w' i' timer).setSlot w i slot = (s.setSlot w i slot).store w' i' timer := by
  simp only [TimerState.store, TimerState.setSlot, TimerState.setWheel, TimerState.setMap,
    TimerState.slot, Function.update_of_ne other, Function.update_of_ne (Ne.symm other)]
  rw [Function.update_comm other]

/-- Storing a timer in hand does not change what the wheel and the map agree on. -/
theorem Inv.store {next : Fin 4 → Nat} {hand : List (TimerInfo κ)} {cur : Option Nat}
    {s : TimerState κ W} {timer : TimerInfo κ} (inv : Inv next (timer :: hand) cur s) {w : Fin 4}
    {i : Nat} (timely : Timely s.vCurrentFrameIdx next w i timer.expires) :
    Inv next hand cur (s.store w i timer) := by
  have members : ∀ w' i' x, x ∈ (s.store w i timer).slot w' i' ↔
      x ∈ s.slot w' i' ∨ (w' = w ∧ i' = i ∧ x = timer) := fun w' i' x =>
    inv.wellFormed.mem_store w i
  have all : ∀ x, (x ∈ hand ∨ InWheels (s.store w i timer) x) ↔
      (x ∈ timer :: hand ∨ InWheels s x) := by
    intro x
    rw [inv.wellFormed.inWheels_store, List.mem_cons]
    tauto
  obtain ⟨m, matched⟩ := inv.matched
  refine ⟨inv.wellFormed.store timely.inside, ?_, ?_, m,
    ⟨matched.frame, ?_, matched.issued, matched.running, matched.replays⟩⟩
  · intro w' i' x member
    rcases (members w' i' x).mp member with before | ⟨rfl, rfl, rfl⟩
    · exact inv.timely w' i' x before
    · exact timely
  · intro x there
    exact inv.oneShot x ((all x).mp there)
  · intro id e
    simp only [all]
    exact matched.waiting id e

/-- Taking the slot that is due in a frame into the hand. -/
theorem Inv.takeSlot {frame : Nat} {next : Fin 4 → Nat} {s : TimerState κ W}
    (inv : Inv next [] none s) (here : s.vCurrentFrameIdx = frame) {w : Fin 4} (higher : w ≠ 0)
    (positive : 0 < frame) (aligned : frame % slotSpan w = 0) (fresh : next w = frame)
    {hand : List (TimerInfo κ)} (perm : hand.Perm (s.slot w ((frame / slotSpan w - 1) % 60))) :
    Inv (Function.update next w (frame + 1)) hand none
        (s.setSlot w ((frame / slotSpan w - 1) % 60) []) ∧
      ∀ x ∈ hand, (frame : Int) ≤ x.expires ∧ x.expires < frame + slotSpan w := by
  generalize indexEq : (frame / slotSpan w - 1) % 60 = i at perm
  have members : ∀ w' i' x, x ∈ (s.setSlot w i []).slot w' i' ↔
      x ∈ s.slot w' i' ∧ ¬ (w' = w ∧ i' = i) := by
    intro w' i' x
    rw [slot_setSlot]
    split <;> simp_all
  have all : ∀ x, (x ∈ hand ∨ InWheels (s.setSlot w i []) x) ↔
      (x ∈ ([] : List (TimerInfo κ)) ∨ InWheels s x) := by
    intro x
    constructor
    · rintro (inHand | ⟨w', i', member⟩)
      · exact Or.inr ⟨w, i, perm.mem_iff.mp inHand⟩
      · exact Or.inr ⟨w', i', ((members w' i' x).mp member).1⟩
    · rintro (none | ⟨w', i', member⟩)
      · simp at none
      · by_cases place : w' = w ∧ i' = i
        · obtain ⟨rfl, rfl⟩ := place
          exact Or.inl (perm.mem_iff.mpr member)
        · exact Or.inr ⟨w', i', (members w' i' x).mpr ⟨member, place⟩⟩
  obtain ⟨m, matched⟩ := inv.matched
  refine ⟨⟨inv.wellFormed.take_slot w i perm, ?_, ?_, m,
    ⟨matched.frame, ?_, matched.issued, matched.running, matched.replays⟩⟩, ?_⟩
  · intro w' i' x member
    obtain ⟨before, other⟩ := (members w' i' x).mp member
    have timely := inv.timely w' i' x before
    change Timely s.vCurrentFrameIdx _ w' i' x.expires
    rw [here] at timely ⊢
    by_cases wheel : w' = w
    · subst wheel
      refine timely.after_cascade higher positive aligned fresh (Function.update_self ..) ?_
      exact fun index => other ⟨rfl, index.trans indexEq⟩
    · exact timely.mono (by rw [Function.update_of_ne wheel])
  · intro x there
    exact inv.oneShot x ((all x).mp there)
  · intro id e
    simp only [all]
    exact matched.waiting id e
  · intro x inHand
    have timely := inv.timely w i x (perm.mem_iff.mp inHand)
    rw [here, ← indexEq] at timely
    exact timely.due_of_cascade higher positive aligned fresh

/-- A cascade adds to the history at most. -/
theorem cascadeTimers_grows (w : Fin 4) : Keeps Grows (cascadeTimers env w) := by
  refine Keeps.get.bind fun s => Keeps.ite ?_ Keeps.raise
  refine (Keeps.forEach internalAddTimer_grows _).bind fun _ => ?_
  exact Keeps.bind (grows_silent (fun _ => rfl) (fun _ => rfl) fun _ => Nat.le_refl _) fun _ =>
    grows_silent (fun _ => rfl) (fun _ => rfl) fun _ => Nat.le_refl _

/-- `cascade_timers` of a wheel whose cascade is due. -/
theorem cascadeTimers_triple {frame : Nat} {index next : Fin 4 → Nat} {w : Fin 4} (higher : w ≠ 0)
    (positive : 0 < frame) (aligned : frame % slotSpan w = 0) (first : index 0 = 0)
    (position : index w = (frame / slotSpan w - 1) % 60) (fresh : next w = frame)
    (lower : ∀ v, v < w → next v ≤ frame + 1) :
    Triple FineSoFar (fun s => Inv next [] none s ∧ Clock frame index false s)
      (cascadeTimers env w)
      (fun _ s => Inv (Function.update next w (frame + 1)) [] none s ∧
        Clock frame (Function.update index w (index w + 1)) false s) := by
  unfold cascadeTimers
  refine Triple.get_bind (remembers_of_grows (cascadeTimers_grows env w)) ?_
  rintro s₀ ⟨inv, clock⟩
  have inside : (s₀.vWheels w).index < (s₀.vWheels w).bound := by
    rw [inv.wellFormed.bounds, clock.index, position]
    have sixty : wheelBound w = 60 := by
      match w with
      | 0 => exact absurd rfl higher
      | 1 => rfl
      | 2 => rfl
      | 3 => rfl
    rw [sixty]
    exact Nat.mod_lt _ (by norm_num)
  rw [if_pos inside, clock.index, position]
  obtain ⟨invHand, due⟩ := inv.takeSlot clock.frame higher positive aligned fresh
    (env.pairs_perm s₀ (s₀.slot w ((frame / slotSpan w - 1) % 60)))
  generalize (frame / slotSpan w - 1) % 60 = i at invHand due position
  generalize env.pairs s₀ (s₀.slot w i) = hand at invHand due
  -- the timers still in hand, and the state in which the slot is already empty
  let I : List (TimerInfo κ) → TimerState κ W → Prop := fun todo a =>
    (∀ x ∈ todo, (frame : Int) ≤ x.expires ∧ x.expires < frame + slotSpan w) ∧
      Inv (Function.update next w (frame + 1)) todo none (a.setSlot w i []) ∧
      Clock frame index false a
  have turn : ∀ timer todo, Triple FineSoFar (I (timer :: todo)) (internalAddTimer timer)
      fun _ => I todo := by
    intro timer todo
    refine Triple.of_wp (remembers_of_grows (internalAddTimer_grows timer)) ?_
    rintro a ⟨dueAll, invAll, clockA⟩
    obtain ⟨from', until'⟩ := dueAll timer (List.mem_cons_self ..)
    have lower' : ∀ v, v < w → Function.update next w (frame + 1) v ≤ frame + 1 := by
      intro v below
      rw [Function.update_of_ne (ne_of_lt below)]
      exact lower v below
    obtain ⟨w', i', choice, below, timely⟩ :=
      slotFor_cascade clockA higher aligned first lower' from' until'
    have bounded : i' < (a.vWheels w').bound := by
      rw [← (sameClock_setSlot a w i []).bound w', invAll.wellFormed.bounds]
      exact timely.inside
    simp only [internalAddTimer, wp_bind, wp_get, choice, if_pos bounded, wp_modify]
    intro _
    refine ⟨fun x member => dueAll x (List.mem_cons_of_mem _ member), ?_, ?_⟩
    · rw [setSlot_store_comm a (ne_of_lt below)]
      refine invAll.store ?_
      change Timely a.vCurrentFrameIdx _ _ _ _
      rw [clockA.frame]
      exact timely
    · exact clockA.of_same (sameClock_store a w' i' timer)
  refine Triple.bind (Q := fun _ => I []) ?_ fun _ => ?_
  · refine (Triple.forEach turn hand).consequence ?_ fun _ _ h => h
    rintro s rfl
    exact ⟨due, invHand, clock⟩
  · refine Triple.bind (Q := fun _ s => Inv (Function.update next w (frame + 1)) [] none s ∧
      Clock frame index false s) (Triple.modify (fun _ fine => fine) ?_) fun _ => ?_
    · rintro a ⟨-, invA, clockA⟩ _
      exact ⟨invA, clockA.of_same (sameClock_setSlot a w i [])⟩
    · refine Triple.modify (fun _ fine => fine) ?_
      rintro a ⟨invA, clockA⟩ _
      rw [clockA.index]
      exact ⟨invA.setIndex w _, position ▸ clockA.setIndex w _⟩

/-- The first frame in which a wheel can still be cascaded, when the cascades of a frame are done up to
wheel `w`. -/
def nextCascade (frame : Nat) (w : Fin 4) : Fin 4 → Nat :=
  fun v => if v ≤ w then frame + 1 else max frame 1

/-- The indices then: wheel `w` has moved on, those in front of it have begun again. -/
def indexAfter (frame : Nat) (w : Fin 4) : Fin 4 → Nat :=
  fun v => if v < w then 0 else if v = w ∧ w ≠ 0 then startIndex frame v + 1 else startIndex frame v

/-- Between two cascades of a frame. -/
def Cascading (frame : Nat) (w : Fin 4) (s : TimerState κ W) : Prop :=
  Inv (nextCascade frame w) [] none s ∧ Clock frame (indexAfter frame w) false s

/-- More or less may be asked of the timers, as long as they meet it. -/
theorem Inv.withNext {next next' : Fin 4 → Nat} {hand : List (TimerInfo κ)} {cur : Option Nat}
    {s : TimerState κ W} (inv : Inv next hand cur s)
    (timely : ∀ w i e, Timely s.vCurrentFrameIdx next w i e → Timely s.vCurrentFrameIdx next' w i e) :
    Inv next' hand cur s :=
  ⟨inv.wellFormed, fun w i t member => timely w i t.expires (inv.timely w i t member), inv.oneShot,
    inv.matched⟩

/-- The indices when a wheel has begun again and the next one has been cascaded. -/
theorem update_indexAfter (frame : Nat) (w : Fin 3) :
    Function.update (Function.update (indexAfter frame w.castSucc) w.castSucc 0) w.succ
        (Function.update (indexAfter frame w.castSucc) w.castSucc 0 w.succ + 1) =
      indexAfter frame w.succ := by
  match w with
  | 0 => funext v; match v with | 0 => rfl | 1 => rfl | 2 => rfl | 3 => rfl
  | 1 => funext v; match v with | 0 => rfl | 1 => rfl | 2 => rfl | 3 => rfl
  | 2 => funext v; match v with | 0 => rfl | 1 => rfl | 2 => rfl | 3 => rfl

/-- The first wheel begins again with the others. -/
theorem update_indexAfter_first (frame : Nat) (w : Fin 3) :
    Function.update (indexAfter frame w.castSucc) w.castSucc 0 0 = 0 := by
  match w with
  | 0 => rfl
  | 1 => rfl
  | 2 => rfl

/-- The next wheel stands at the slot that is due. -/
theorem update_indexAfter_next {frame : Nat} (w : Fin 3) (aligned : frame % slotSpan w.succ = 0) :
    Function.update (indexAfter frame w.castSucc) w.castSucc 0 w.succ = (frame / slotSpan w.succ - 1) % 60 := by
  have ahead : w.castSucc ≠ w.succ := ne_of_lt Fin.castSucc_lt_succ
  rw [Function.update_of_ne ahead.symm]
  match w with
  | 0 =>
      change frame % 200 = 0 at aligned
      change (frame - 1) / 200 % 60 = (frame / 200 - 1) % 60
      omega
  | 1 =>
      change frame % 12000 = 0 at aligned
      change (frame - 1) / 12000 % 60 = (frame / 12000 - 1) % 60
      omega
  | 2 =>
      change frame % 720000 = 0 at aligned
      change (frame - 1) / 720000 % 60 = (frame / 720000 - 1) % 60
      omega

theorem nextCascade_next {frame : Nat} (w : Fin 3) (positive : 0 < frame) :
    nextCascade frame w.castSucc w.succ = frame := by
  rw [nextCascade, if_neg (not_le.mpr Fin.castSucc_lt_succ), max_eq_left positive]

theorem nextCascade_le (frame : Nat) (w v : Fin 4) : nextCascade frame w v ≤ frame + 1 := by
  unfold nextCascade
  split <;> omega

theorem update_nextCascade (frame : Nat) (w : Fin 3) :
    Function.update (nextCascade frame w.castSucc) w.succ (frame + 1) = nextCascade frame w.succ := by
  match w with
  | 0 => funext v; match v with | 0 => rfl | 1 => rfl | 2 => rfl | 3 => rfl
  | 1 => funext v; match v with | 0 => rfl | 1 => rfl | 2 => rfl | 3 => rfl
  | 2 => funext v; match v with | 0 => rfl | 1 => rfl | 2 => rfl | 3 => rfl

/-- Nothing is cascaded into wheel 0 from below. -/
theorem AtStart.cascading {frame : Nat} {s : TimerState κ W} (start : AtStart frame s) :
    Cascading frame 0 s := by
  refine ⟨start.1.withNext fun w i e timely => ?_, start.2.frame, fun w => ?_, start.2.barrier⟩
  · by_cases first : w = 0
    · subst first
      exact timely
    · refine timely.mono ?_
      simp [nextCascade, first]
  · rw [start.2.index]
    simp [indexAfter]

/-- A wheel is at its bound exactly when the next wheel is due. -/
theorem atBound_iff {frame : Nat} (w : Fin 3)
    (due : w.castSucc ≠ 0 → 0 < frame ∧ frame % slotSpan w.castSucc = 0) :
    wheelBound w.castSucc ≤ indexAfter frame w.castSucc w.castSucc ↔
      0 < frame ∧ frame % slotSpan w.succ = 0 := by
  match w with
  | 0 =>
      change 200 ≤ (if frame = 0 then 0 else (frame - 1) % 200 + 1) ↔ 0 < frame ∧ frame % 200 = 0
      split <;> omega
  | 1 =>
      have aligned := due (by decide)
      change 0 < frame ∧ frame % 200 = 0 at aligned
      change 60 ≤ (frame - 1) / 200 % 60 + 1 ↔ 0 < frame ∧ frame % 12000 = 0
      omega
  | 2 =>
      have aligned := due (by decide)
      change 0 < frame ∧ frame % 12000 = 0 at aligned
      change 60 ≤ (frame - 1) / 12000 % 60 + 1 ↔ 0 < frame ∧ frame % 720000 = 0
      omega

/-- The wheels behind one that is not due are not due either. -/
theorem quiet_behind {frame : Nat} (w : Fin 3)
    (quiet : ¬ (0 < frame ∧ frame % slotSpan w.succ = 0)) {v : Fin 4} (behind : w.castSucc < v) :
    frame = 0 ∨ frame % slotSpan v ≠ 0 := by
  have divides : ∀ (w : Fin 3) (v : Fin 4), w.castSucc < v → slotSpan v % slotSpan w.succ = 0 := by
    decide
  by_contra both
  rw [not_or, not_not] at both
  refine quiet ⟨Nat.pos_of_ne_zero both.1, ?_⟩
  exact Nat.mod_eq_zero_of_dvd ((Nat.dvd_of_mod_eq_zero (divides w v behind)).trans
    (Nat.dvd_of_mod_eq_zero both.2))

/-- When no more wheel is due, the indices are those of the frame. -/
theorem indexAfter_eq {frame : Nat} (w : Fin 3)
    (due : w.castSucc ≠ 0 → 0 < frame ∧ frame % slotSpan w.castSucc = 0)
    (quiet : ¬ (0 < frame ∧ frame % slotSpan w.succ = 0)) :
    indexAfter frame w.castSucc = frameIndex frame := by
  funext v
  match w with
  | 0 =>
      change ¬ (0 < frame ∧ frame % 200 = 0) at quiet
      match v with
      | 0 =>
          change (if frame = 0 then 0 else (frame - 1) % 200 + 1) = frame % 200
          split <;> omega
      | 1 =>
          change (frame - 1) / 200 % 60 = frame / 200 % 60
          omega
      | 2 =>
          change (frame - 1) / 12000 % 60 = frame / 12000 % 60
          omega
      | 3 =>
          change (frame - 1) / 720000 % 60 = frame / 720000 % 60
          omega
  | 1 =>
      have aligned := due (by decide)
      change 0 < frame ∧ frame % 200 = 0 at aligned
      change ¬ (0 < frame ∧ frame % 12000 = 0) at quiet
      match v with
      | 0 =>
          change 0 = frame % 200
          omega
      | 1 =>
          change (frame - 1) / 200 % 60 + 1 = frame / 200 % 60
          omega
      | 2 =>
          change (frame - 1) / 12000 % 60 = frame / 12000 % 60
          omega
      | 3 =>
          change (frame - 1) / 720000 % 60 = frame / 720000 % 60
          omega
  | 2 =>
      have aligned := due (by decide)
      change 0 < frame ∧ frame % 12000 = 0 at aligned
      change ¬ (0 < frame ∧ frame % 720000 = 0) at quiet
      match v with
      | 0 =>
          change 0 = frame % 200
          omega
      | 1 =>
          change 0 = frame / 200 % 60
          omega
      | 2 =>
          change (frame - 1) / 12000 % 60 + 1 = frame / 12000 % 60
          omega
      | 3 =>
          change (frame - 1) / 720000 % 60 = frame / 720000 % 60
          omega

/-- When the fourth wheel was cascaded below its bound, the indices are those of the frame. -/
theorem indexAfter_last {frame : Nat} (positive : 0 < frame) (aligned : frame % 720000 = 0)
    (reach : frame < 43200000) :
    indexAfter frame 3 = frameIndex frame := by
  funext v
  match v with
  | 0 =>
      change 0 = frame % 200
      omega
  | 1 =>
      change 0 = frame / 200 % 60
      omega
  | 2 =>
      change 0 = frame / 12000 % 60
      omega
  | 3 =>
      change (frame - 1) / 720000 % 60 + 1 = frame / 720000 % 60
      omega

/-- So do the cascades of a frame. -/
theorem cascade_grows (behind : List (Fin 4)) (w : Fin 4) : Keeps Grows (cascade env behind w) := by
  induction behind generalizing w with
  | nil =>
      refine Keeps.get.bind fun s => Keeps.ite ?_ (Keeps.pure ())
      exact Keeps.bind (grows_silent (fun _ => rfl) (fun _ => rfl) fun _ => Nat.le_refl _) fun _ => Keeps.raise
  | cons next behind ih =>
      refine Keeps.get.bind fun s => Keeps.ite ?_ (Keeps.pure ())
      refine Keeps.bind (grows_silent (fun _ => rfl) (fun _ => rfl) fun _ => Nat.le_refl _) fun _ => ?_
      exact (cascadeTimers_grows env next).bind fun _ => ih next

/-- Wheel `w + 1` is cascaded when it is due; otherwise the cascades of the frame are done. -/
private theorem cascade_turn (frame : Nat) (w : Fin 3) (behind : List (Fin 4))
    (due : w.castSucc ≠ 0 → 0 < frame ∧ frame % slotSpan w.castSucc = 0)
    (rest : 0 < frame → frame % slotSpan w.succ = 0 →
      Triple FineSoFar (Cascading frame w.succ) (cascade env behind w.succ)
        fun _ => InFrame frame none false) :
    Triple FineSoFar (Cascading frame w.castSucc) (cascade env (w.succ :: behind) w.castSucc)
      fun _ => InFrame frame none false := by
  unfold cascade
  refine Triple.get_bind (remembers_of_grows (cascade_grows env (w.succ :: behind) w.castSucc)) ?_
  rintro s₀ ⟨inv, clock⟩
  rw [inv.wellFormed.bounds, clock.index]
  by_cases isDue : 0 < frame ∧ frame % slotSpan w.succ = 0
  · obtain ⟨positive, aligned⟩ := isDue
    rw [if_pos ((atBound_iff w due).mpr ⟨positive, aligned⟩)]
    refine Triple.bind (Q := fun _ s => Inv (nextCascade frame w.castSucc) [] none s ∧
      Clock frame (Function.update (indexAfter frame w.castSucc) w.castSucc 0) false s)
      (Triple.modify (fun _ fine => fine) ?_) fun _ => ?_
    · rintro s rfl _
      exact ⟨inv.setIndex _ 0, clock.setIndex _ 0⟩
    · have turn := cascadeTimers_triple env (Fin.succ_ne_zero w) positive aligned (update_indexAfter_first frame w)
        (update_indexAfter_next w aligned) (nextCascade_next w positive)
        fun v _ => nextCascade_le frame w.castSucc v
      rw [update_nextCascade, update_indexAfter] at turn
      exact turn.bind fun _ => rest positive aligned
  · rw [if_neg fun atBound => isDue ((atBound_iff w due).mp atBound)]
    refine Triple.pure ?_
    rintro s rfl
    refine ⟨inv.withNext fun v i e timely => ?_, indexAfter_eq w due isDue ▸ clock⟩
    by_cases before : v ≤ w.castSucc
    · exact timely.mono (by rw [nextCascade, if_pos before])
    · rw [clock.frame] at timely ⊢
      refine timely.not_due (quiet_behind w isDue (not_le.mp before)) ?_ _ rfl
      rw [nextCascade, if_neg before]

/-- In the frames the wheel is made for, the fourth wheel is never at its bound. -/
private theorem cascade_last {frame : Nat} (reach : frame < 43200000) (positive : 0 < frame)
    (aligned : frame % slotSpan 3 = 0) :
    Triple FineSoFar (Cascading frame 3) (cascade env [] 3) fun _ => InFrame frame none false := by
  change frame % 720000 = 0 at aligned
  unfold cascade
  refine Triple.get_bind (remembers_of_grows (cascade_grows env [] 3)) ?_
  rintro s₀ ⟨inv, clock⟩
  have below : ¬ wheelBound 3 ≤ indexAfter frame 3 3 := by
    change ¬ 60 ≤ (frame - 1) / 720000 % 60 + 1
    omega
  rw [inv.wellFormed.bounds, clock.index, if_neg below]
  refine Triple.pure ?_
  rintro s rfl
  refine ⟨inv.withNext fun v i e timely => timely.mono ?_, indexAfter_last positive aligned reach ▸ clock⟩
  rw [nextCascade, if_pos (show v ≤ 3 from Fin.le_last v)]

/-- All cascades of a frame. -/
theorem cascade_triple {frame : Nat} (reach : frame < 43200000) :
    Triple FineSoFar (AtStart frame) (cascade env [1, 2, 3] 0) fun _ => InFrame frame none false := by
  have last := cascade_last env reach
  have third := cascade_turn env frame 2 []
  have second := cascade_turn env frame 1 [3]
  have first := cascade_turn env frame 0 [2, 3] (fun higher => absurd rfl higher)
    fun positive aligned => second (fun _ => ⟨positive, aligned⟩)
      fun positive aligned => third (fun _ => ⟨positive, aligned⟩) last
  exact Triple.consequence first (fun _ start => start.cascading) fun _ _ done => done

end GameServer.Timer
