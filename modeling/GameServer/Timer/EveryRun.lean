/-
Module: GameServer.Timer.EveryRun
Purpose: What holds in every run of the timer object, whatever is added and whichever callbacks raise: the slots and
  `v_index_slot_map` agree, the indices are those of the frame, and a timer of a higher wheel stands well.  The
  cascades keep it, and every timer comes out of them in time.
Trusted boundary: none
Main exports: FiresAt, slotFor_cases, Sound, Phase, Rests, Moved, cascadeTimers_moves, cascade_rests
-/
import Mathlib.Data.Fintype.Basic
import Mathlib.Tactic.FinCases
import GameServer.Timer.Points

namespace GameServer.Timer

open Lib Lib.LuaM TimerState

variable {κ W : Type}

/-! ## Slots and frames

The frame in which a timer will be started, read off the slot that it stands in.
-/

/-- A timer with expiry `e` in slot `i` of wheel `w` will be fired in frame `goal`: that is the next frame in which
`update` goes through the slot, or, in a higher wheel, the frame it expires in. -/
def FiresAt (frame : Nat) : Fin 4 → Nat → Int → Nat → Prop
  | 0, i, _, goal => goal % 200 = i ∧ frame ≤ goal ∧ goal < frame + 200
  | _, _, e, goal => e = goal

/-- In a higher wheel a timer waits for the frame it expires in. -/
theorem firesAt_higher {frame i goal : Nat} {w : Fin 4} {e : Int} (higher : w ≠ 0) :
    FiresAt frame w i e goal ↔ e = goal := by
  match w with
  | 0 => exact absurd rfl higher
  | 1 => exact Iff.rfl
  | 2 => exact Iff.rfl
  | 3 => exact Iff.rfl

/-- A timer that stands well is fired in the frame it expires in. -/
theorem Timely.firesAt {frame i goal : Nat} {next : Fin 4 → Nat} {w : Fin 4} {e : Int}
    (timely : Timely frame next w i e) (expires : e = goal) : FiresAt frame w i e goal := by
  by_cases first : w = 0
  · subst first
    simp only [Timely] at timely
    simp only [FiresAt]
    omega
  · exact (firesAt_higher first).mpr expires

/-- The slot of an expiry: that of a due timer depends on the index and the barrier; one that expires later stands
well; one that expires too late gets none. -/
theorem slotFor_cases (s : TimerState κ W) (e : Int) :
    (e ≤ s.vCurrentFrameIdx ∧
      s.slotFor e = some (0, if s.innerBarrier then ((s.vWheels 0).index + 1) % 200 else (s.vWheels 0).index)) ∨
    ((s.vCurrentFrameIdx : Int) < e ∧ e < s.vCurrentFrameIdx + 43200000 ∧
      ∃ w i, s.slotFor e = some (w, i) ∧ Timely s.vCurrentFrameIdx (fun _ => s.vCurrentFrameIdx + 1) w i e) ∨
    (s.vCurrentFrameIdx + 43200000 ≤ e ∧ s.slotFor e = none) := by
  rcases le_or_gt e s.vCurrentFrameIdx with due | later
  · left
    refine ⟨due, ?_⟩
    unfold slotFor
    exact if_pos (by omega)
  · right
    rcases lt_or_ge e (s.vCurrentFrameIdx + 43200000) with reach | tooLong
    · left
      obtain ⟨w, i, choice, timely, -⟩ := slotFor_spec s later reach
      exact ⟨later, reach, w, i, choice, timely⟩
    · right
      refine ⟨tooLong, ?_⟩
      have sizes : (wheelSize1 : Int) = 200 ∧ (wheelSizeMul12 : Int) = 12000 ∧ (wheelSizeMul123 : Int) = 720000 ∧
          (wheelSizeMul1234 : Int) = 43200000 := by
        decide
      obtain ⟨one, mul12, mul123, mul1234⟩ := sizes
      simp only [slotFor, one, mul12, mul123, mul1234]
      rw [if_neg (by omega), if_neg (by omega), if_neg (by omega), if_neg (by omega), if_neg (by omega)]

/-! ## At rest

What holds of the wheels in every run, also after errors: no assumption on callbacks or expiries is made here.
-/

/-- The slots and the map agree, and the timers in the higher wheels stand well. -/
structure Sound (next : Fin 4 → Nat) (hand : List (TimerInfo κ)) (s : TimerState κ W) : Prop where
  wellFormed : WellFormed s hand
  timely : ∀ w i t, w ≠ 0 → t ∈ s.slot w i → Timely s.vCurrentFrameIdx next w i t.expires

/-- Whether the cascades of the frame are still to come or done. -/
inductive Phase where
  | fresh
  | opened

def Phase.next (frame : Nat) : Phase → Fin 4 → Nat
  | .fresh => fun _ => max frame 1
  | .opened => fun _ => frame + 1

def Phase.index (frame : Nat) : Phase → Fin 4 → Nat
  | .fresh => startIndex frame
  | .opened => frameIndex frame

theorem Phase.next_le (phase : Phase) (frame : Nat) (w : Fin 4) : phase.next frame w ≤ frame + 1 := by
  cases phase with
  | fresh =>
      change max frame 1 ≤ frame + 1
      omega
  | opened => exact Nat.le_refl _

/-- Outside of the functions that move timers about. -/
structure Rests (phase : Phase) (s : TimerState κ W) : Prop where
  sound : Sound (phase.next s.vCurrentFrameIdx) [] s
  index : ∀ w, (s.vWheels w).index = phase.index s.vCurrentFrameIdx w

/-- Soundness looks at slots, map and bounds alone. -/
theorem Sound.congr {next : Fin 4 → Nat} {hand : List (TimerInfo κ)} {s t : TimerState κ W} (sound : Sound next hand s)
    (slots : ∀ w i, t.slot w i = s.slot w i) (bounds : ∀ w, (t.vWheels w).bound = (s.vWheels w).bound)
    (map : t.vIndexSlotMap = s.vIndexSlotMap) (counter : s.timerCounter ≤ t.timerCounter)
    (frame : t.vCurrentFrameIdx = s.vCurrentFrameIdx) : Sound next hand t := by
  refine ⟨sound.wellFormed.congr slots bounds map counter, fun w i x higher member => ?_⟩
  rw [frame]
  exact sound.timely w i x higher (slots w i ▸ member)

theorem Sound.setIndex {next : Fin 4 → Nat} {hand : List (TimerInfo κ)} {s : TimerState κ W}
    (sound : Sound next hand s) (w : Fin 4) (index : Nat) : Sound next hand (s.setIndex w index) := by
  refine sound.congr (slot_setIndex s w · index ·) (fun w' => ?_) rfl (Nat.le_refl _) rfl
  by_cases wheel : w' = w
  · subst wheel
    simp [TimerState.setIndex, TimerState.setWheel]
  · simp [TimerState.setIndex, TimerState.setWheel, wheel]

/-- A state that differs in its time, its barrier, its world and its history alone. -/
theorem Rests.congr {phase : Phase} {s t : TimerState κ W} (rests : Rests phase s) (wheels : t.vWheels = s.vWheels)
    (map : t.vIndexSlotMap = s.vIndexSlotMap) (counter : s.timerCounter ≤ t.timerCounter)
    (frame : t.vCurrentFrameIdx = s.vCurrentFrameIdx) : Rests phase t := by
  refine ⟨?_, fun w => ?_⟩
  · rw [frame]
    exact rests.sound.congr (fun w i => by rw [TimerState.slot, wheels]; rfl) (fun w => by rw [wheels]) map counter
      frame
  · rw [wheels, frame]
    exact rests.index w

/-- New wheels are at rest. -/
theorem rests_init (world : W) : Rests .fresh (TimerState.init world : TimerState κ W) := by
  have empty : ∀ w i, (TimerState.init world : TimerState κ W).slot w i = [] := by
    intro w i
    match w with
    | 0 => rfl
    | 1 => rfl
    | 2 => rfl
    | 3 => rfl
  refine ⟨⟨WellFormed.init world, fun w i t _ member => ?_⟩, (standing_init world).clock.index⟩
  simp [empty] at member

/-! ## Cascades

A cascade takes the timers of a slot into finer wheels. Where a timer went, it will be started in the frame in which
it was to be started before.
-/

/-- The timers of `s` are those of `t`, where some are in hand instead.  Those of the first wheel have stayed; with the
barrier down each will be fired in the frame it was to be fired in. -/
structure Moved (s : TimerState κ W) (hand : List (TimerInfo κ)) (t : TimerState κ W) : Prop where
  clock : t.vCurrentFrameIdx = s.vCurrentFrameIdx ∧ t.innerBarrier = s.innerBarrier ∧
    t.vElapseTime = s.vElapseTime
  history : t.trace = s.trace ∧ t.timerCounter = s.timerCounter
  back : ∀ x, x ∈ hand ∨ InWheels t x → InWheels s x
  stays : ∀ w i x, x ∈ s.slot w i → (w ≠ 0 ∧ x ∈ hand) ∨ ∃ w' i', x ∈ t.slot w' i' ∧ (w = 0 → w' = 0 ∧ i' = i) ∧
    (s.innerBarrier = false → ∀ goal, FiresAt s.vCurrentFrameIdx w i x.expires goal →
      FiresAt s.vCurrentFrameIdx w' i' x.expires goal)

namespace Moved

variable {s t u : TimerState κ W} {hand : List (TimerInfo κ)}

theorem refl (s : TimerState κ W) : Moved s [] s where
  clock := ⟨rfl, rfl, rfl⟩
  history := ⟨rfl, rfl⟩
  back x there := there.resolve_left (by simp)
  stays w i x member := Or.inr ⟨w, i, member, fun first => ⟨first, rfl⟩, fun _ _ fires => fires⟩

/-- Moves of timers one after the other. -/
theorem trans (first : Moved s [] t) (second : Moved t [] u) : Moved s [] u where
  clock := ⟨second.clock.1.trans first.clock.1, second.clock.2.1.trans first.clock.2.1,
    second.clock.2.2.trans first.clock.2.2⟩
  history := ⟨second.history.1.trans first.history.1, second.history.2.trans first.history.2⟩
  back x there := first.back x (Or.inr (second.back x there))
  stays w i x member := by
    obtain ⟨w', i', there, stays, fires⟩ := (first.stays w i x member).resolve_left (by simp)
    obtain ⟨w'', i'', there', stays', fires'⟩ := (second.stays w' i' x there).resolve_left (by simp)
    refine Or.inr ⟨w'', i'', there', fun zero => ?_, fun down goal fire => ?_⟩
    · obtain ⟨zero', same⟩ := stays zero
      obtain ⟨zero'', same'⟩ := stays' zero'
      exact ⟨zero'', same'.trans same⟩
    · rw [first.clock.1, first.clock.2.1] at fires'
      exact fires' down goal (fires down goal fire)

/-- The slots matter, and what the relation names. -/
theorem congr (moved : Moved s hand t) (slots : ∀ w i, u.slot w i = t.slot w i)
    (frame : u.vCurrentFrameIdx = t.vCurrentFrameIdx) (barrier : u.innerBarrier = t.innerBarrier)
    (elapse : u.vElapseTime = t.vElapseTime) (trace : u.trace = t.trace)
    (counter : u.timerCounter = t.timerCounter) : Moved s hand u where
  clock := ⟨frame.trans moved.clock.1, barrier.trans moved.clock.2.1, elapse.trans moved.clock.2.2⟩
  history := ⟨trace.trans moved.history.1, counter.trans moved.history.2⟩
  back x there := by
    apply moved.back x
    rcases there with inHand | ⟨w, i, member⟩
    · exact Or.inl inHand
    · exact Or.inr ⟨w, i, slots w i ▸ member⟩
  stays w i x member := by
    simp only [slots]
    exact moved.stays w i x member

/-- The timers of a slot that is emptied are in hand. -/
theorem take {w : Fin 4} (higher : w ≠ 0) (i : Nat) (perm : hand.Perm (s.slot w i)) :
    Moved s hand (s.setSlot w i []) where
  clock := ⟨rfl, rfl, rfl⟩
  history := ⟨rfl, rfl⟩
  back x there := by
    rcases there with inHand | ⟨w', i', member⟩
    · exact ⟨w, i, perm.mem_iff.mp inHand⟩
    · rw [slot_setSlot] at member
      split at member
      · simp at member
      · exact ⟨w', i', member⟩
  stays w' i' x member := by
    by_cases place : w' = w ∧ i' = i
    · obtain ⟨rfl, rfl⟩ := place
      exact Or.inl ⟨higher, perm.mem_iff.mpr member⟩
    · right
      refine ⟨w', i', ?_, fun first => ⟨first, rfl⟩, fun _ _ fires => fires⟩
      rw [slot_setSlot, if_neg place]
      exact member

/-- A timer in hand is put into a slot. -/
theorem store {timer : TimerInfo κ} (moved : Moved s (timer :: hand) t) (wf : WellFormed t (timer :: hand)) {w : Fin 4}
    {i : Nat} (fires : s.innerBarrier = false → ∀ goal : Nat, timer.expires = goal →
      FiresAt s.vCurrentFrameIdx w i timer.expires goal) : Moved s hand (t.store w i timer) where
  clock := moved.clock
  history := moved.history
  back x there := by
    apply moved.back x
    rw [wf.inWheels_store w i] at there
    rcases there with inHand | before | rfl
    · exact Or.inl (List.mem_cons_of_mem _ inHand)
    · exact Or.inr before
    · exact Or.inl (List.mem_cons_self ..)
  stays w' i' x member := by
    rcases moved.stays w' i' x member with ⟨higher, inHand⟩ | ⟨v, j, there, rest⟩
    · rcases List.mem_cons.mp inHand with rfl | later
      · refine Or.inr ⟨w, i, (wf.mem_store w i).mpr (Or.inr ⟨rfl, rfl, rfl⟩), fun first => absurd first higher, ?_⟩
        intro down goal fire
        exact fires down goal ((firesAt_higher higher).mp fire)
      · exact Or.inl ⟨higher, later⟩
    · exact Or.inr ⟨v, j, (wf.mem_store w i).mpr (Or.inl there), rest⟩

end Moved

/-- A timer in hand goes to a timely slot. -/
theorem Sound.store {next : Fin 4 → Nat} {hand : List (TimerInfo κ)} {s : TimerState κ W} {timer : TimerInfo κ}
    (sound : Sound next (timer :: hand) s) {w : Fin 4} {i : Nat} (bounded : i < wheelBound w)
    (timely : w ≠ 0 → Timely s.vCurrentFrameIdx next w i timer.expires) : Sound next hand (s.store w i timer) := by
  refine ⟨sound.wellFormed.store bounded, fun w' i' x higher member => ?_⟩
  rcases (sound.wellFormed.mem_store w i).mp member with before | ⟨rfl, rfl, rfl⟩
  · exact sound.timely w' i' x higher before
  · exact timely higher

/-- The slot that is due in a frame is taken in hand. -/
theorem Sound.takeSlot {frame : Nat} {next : Fin 4 → Nat} {s : TimerState κ W} (sound : Sound next [] s)
    (here : s.vCurrentFrameIdx = frame) {w : Fin 4} (higher : w ≠ 0) (positive : 0 < frame)
    (aligned : frame % slotSpan w = 0) (fresh : next w = frame) {hand : List (TimerInfo κ)}
    (perm : hand.Perm (s.slot w ((frame / slotSpan w - 1) % 60))) :
    Sound (Function.update next w (frame + 1)) hand (s.setSlot w ((frame / slotSpan w - 1) % 60) []) ∧
      ∀ x ∈ hand, (frame : Int) ≤ x.expires ∧ x.expires < frame + slotSpan w := by
  refine ⟨⟨sound.wellFormed.take_slot w _ perm, fun w' i' x notFirst member => ?_⟩, fun x inHand => ?_⟩
  · rw [slot_setSlot] at member
    split at member
    · simp at member
    · rename_i elsewhere
      have timely := sound.timely w' i' x notFirst member
      change Timely s.vCurrentFrameIdx _ w' i' x.expires
      rw [here] at timely ⊢
      by_cases wheel : w' = w
      · subst wheel
        exact timely.after_cascade higher positive aligned fresh (Function.update_self ..) fun index =>
          elsewhere ⟨rfl, index⟩
      · exact timely.mono (by rw [Function.update_of_ne wheel])
  · have timely := sound.timely w _ x higher (perm.mem_iff.mp inHand)
    rw [here] at timely
    exact timely.due_of_cascade higher positive aligned fresh

/-- A timer that is taken out of a slot in a cascade goes to a lower wheel. -/
theorem slotFor_lower {s : TimerState κ W} {frame : Nat} (here : s.vCurrentFrameIdx = frame)
    (first : (s.vWheels 0).index = 0) {next : Fin 4 → Nat} {w : Fin 4} {e : Int} (higher : w ≠ 0)
    (aligned : frame % slotSpan w = 0) (lower : ∀ v, v < w → next v ≤ frame + 1) (due : (frame : Int) ≤ e)
    (span : e < frame + slotSpan w) :
    ∃ w' i', s.slotFor e = some (w', i') ∧ w' < w ∧ i' < wheelBound w' ∧ (w' ≠ 0 → Timely frame next w' i' e) ∧
      (s.innerBarrier = false → ∀ goal : Nat, e = goal → FiresAt frame w' i' e goal) := by
  rcases lt_or_eq_of_le due with later | now
  · have reach : slotSpan w ≤ 720000 := slotSpan_le (Fin.le_last w)
    obtain ⟨w', i', choice, timely, far⟩ :=
      slotFor_spec s (by rw [here]; exact later) (by rw [here]; omega)
    have below : w' < w := by
      by_contra notBelow
      have spans := slotSpan_le (not_lt.mp notBelow)
      rw [here] at far
      omega
    rw [here] at timely
    exact ⟨w', i', choice, below, timely.inside, fun _ => timely.mono (lower w' below),
      fun _ _ same => timely.firesAt same⟩
  · have zero := aligned_first higher aligned
    have choice : s.slotFor e = some (0, if s.innerBarrier then 1 else 0) := by
      unfold slotFor
      simp only [here, first]
      exact if_pos (by omega)
    refine ⟨0, _, choice, Fin.pos_iff_ne_zero.mpr higher, ?_, fun notFirst => absurd rfl notFirst, ?_⟩
    · change _ < 200
      split <;> omega
    · intro down goal same
      simp only [down, FiresAt, Bool.false_eq_true, if_false]
      omega

section Cascade

variable {env : TimerEnv κ W} {s : TimerState κ W} {frame : Nat}

/-- `cascade_timers` of a wheel whose cascade is due. -/
theorem cascadeTimers_moves {index next : Fin 4 → Nat} {w : Fin 4} (higher : w ≠ 0) (positive : 0 < frame)
    (aligned : frame % slotSpan w = 0) (first : index 0 = 0) (position : index w = (frame / slotSpan w - 1) % 60)
    (fresh : next w = frame) (lower : ∀ v, v < w → next v ≤ frame + 1) (sound : Sound next [] s)
    (here : s.vCurrentFrameIdx = frame) (indices : ∀ v, (s.vWheels v).index = index v) :
    wp (cascadeTimers env w)
      (fun _ t => Sound (Function.update next w (frame + 1)) [] t ∧ Moved s [] t ∧
        ∀ v, (t.vWheels v).index = Function.update index w (index w + 1) v)
      (fun _ => False) s := by
  have inside : (s.vWheels w).index < (s.vWheels w).bound := by
    rw [sound.wellFormed.bounds, indices, position]
    have sixty : wheelBound w = 60 := by
      match w with
      | 0 => exact absurd rfl higher
      | 1 => rfl
      | 2 => rfl
      | 3 => rfl
    rw [sixty]
    exact Nat.mod_lt _ (by norm_num)
  simp only [cascadeTimers, wp_bind, wp_get]
  rw [if_pos inside, indices, position]
  have perm := env.pairs_perm s (s.slot w ((frame / slotSpan w - 1) % 60))
  obtain ⟨soundHand, due⟩ := sound.takeSlot here higher positive aligned fresh perm
  have taken := Moved.take higher _ perm
  generalize (frame / slotSpan w - 1) % 60 = i at soundHand due position taken
  generalize env.pairs s (s.slot w i) = hand at soundHand due taken
  -- the timers still in hand, and the state in which the slot is already empty
  let I : List (TimerInfo κ) → TimerState κ W → Prop := fun todo a =>
    (∀ x ∈ todo, (frame : Int) ≤ x.expires ∧ x.expires < frame + slotSpan w) ∧
      Sound (Function.update next w (frame + 1)) todo (a.setSlot w i []) ∧ Moved s todo (a.setSlot w i []) ∧
      ∀ v, (a.vWheels v).index = index v
  have turn : ∀ timer todo a, I (timer :: todo) a →
      wp (internalAddTimer timer) (fun _ b => I todo b) (fun _ => False) a := by
    rintro timer todo a ⟨dueAll, soundAll, moved, indicesA⟩
    obtain ⟨from', until'⟩ := dueAll timer (List.mem_cons_self ..)
    have lower' : ∀ v, v < w → Function.update next w (frame + 1) v ≤ frame + 1 := by
      intro v below
      rw [Function.update_of_ne (ne_of_lt below)]
      exact lower v below
    have hereA : a.vCurrentFrameIdx = frame := moved.clock.1.trans here
    obtain ⟨w', i', choice, below, bounded, timely, fires⟩ :=
      slotFor_lower hereA ((indicesA 0).trans first) higher aligned lower' from' until'
    have bound : (a.vWheels w').bound = wheelBound w' := by
      rw [← (sameClock_setSlot a w i []).bound w', soundAll.wellFormed.bounds]
    simp only [internalAddTimer, wp_bind, wp_get, choice, bound, if_pos bounded, wp_modify]
    refine ⟨fun x member => dueAll x (List.mem_cons_of_mem _ member), ?_, ?_, fun v => ?_⟩
    · rw [setSlot_store_comm a (ne_of_lt below)]
      refine soundAll.store bounded fun notFirst => ?_
      change Timely a.vCurrentFrameIdx _ w' i' _
      rw [hereA]
      exact timely notFirst
    · rw [setSlot_store_comm a (ne_of_lt below)]
      refine moved.store soundAll.wellFormed fun down => ?_
      rw [here]
      exact fires (moved.clock.2.1.trans down)
    · rw [(sameClock_store a w' i' timer).index]
      exact indicesA v
  simp only [wp_bind, wp_modify]
  refine wp_mono (wp_forEach turn ⟨due, soundHand, taken, indices⟩) ?_ fun _ never => never
  rintro _ a ⟨-, soundA, movedA, indicesA⟩
  have emptied : ∀ v, ((a.setSlot w i []).vWheels v).index = index v := fun v =>
    ((sameClock_setSlot a w i []).index v).trans (indicesA v)
  rw [emptied]
  refine ⟨soundA.setIndex w _, movedA.congr (slot_setIndex _ w · _ ·) rfl rfl rfl rfl rfl, fun v => ?_⟩
  by_cases wheel : v = w
  · subst wheel
    simpa [TimerState.setIndex, TimerState.setWheel] using position
  · simpa [TimerState.setIndex, TimerState.setWheel, wheel] using emptied v

/-- Between two cascades of a frame that was begun in the state `s₀`. -/
structure Between (s₀ : TimerState κ W) (w : Fin 4) (s : TimerState κ W) : Prop where
  sound : Sound (nextCascade s₀.vCurrentFrameIdx w) [] s
  index : ∀ v, (s.vWheels v).index = indexAfter s₀.vCurrentFrameIdx w v
  moved : Moved s₀ [] s

theorem index_setIndex (s : TimerState κ W) (w v : Fin 4) (value : Nat) :
    ((s.setIndex w value).vWheels v).index = Function.update (fun v => (s.vWheels v).index) w value v := by
  by_cases wheel : v = w
  · subst wheel
    simp [TimerState.setIndex, TimerState.setWheel]
  · simp [TimerState.setIndex, TimerState.setWheel, wheel]

/-- Turning a wheel moves no timer. -/
theorem Moved.setIndex {s t : TimerState κ W} (moved : Moved s [] t) (w : Fin 4) (value : Nat) :
    Moved s [] (t.setIndex w value) :=
  moved.congr (slot_setIndex t w · value ·) rfl rfl rfl rfl rfl

/-- When no more wheel is due, the cascades of the frame are done. -/
theorem Between.done {s₀ : TimerState κ W} {w : Fin 3}
    (due : w.castSucc ≠ 0 → 0 < s₀.vCurrentFrameIdx ∧ s₀.vCurrentFrameIdx % slotSpan w.castSucc = 0)
    (quiet : ¬ (0 < s₀.vCurrentFrameIdx ∧ s₀.vCurrentFrameIdx % slotSpan w.succ = 0))
    (between : Between s₀ w.castSucc s) : Rests .opened s := by
  have here := between.moved.clock.1
  refine ⟨⟨between.sound.wellFormed, fun v i x higher member => ?_⟩, fun v => ?_⟩
  · have timely := between.sound.timely v i x higher member
    change Timely s.vCurrentFrameIdx (fun _ => s.vCurrentFrameIdx + 1) v i x.expires
    rw [here] at timely ⊢
    by_cases before : v ≤ w.castSucc
    · exact timely.mono (by rw [nextCascade, if_pos before])
    · refine timely.not_due (quiet_behind w quiet (not_le.mp before)) ?_ _ rfl
      rw [nextCascade, if_neg before]
  · rw [between.index, indexAfter_eq w due quiet, here]
    rfl

/-- The step from wheel `w` to the next one. -/
theorem cascade_step {s₀ : TimerState κ W} {Q : Unit → TimerState κ W → Prop} {R : TimerState κ W → Prop} (w : Fin 3)
    {behind : List (Fin 4)}
    (due : w.castSucc ≠ 0 → 0 < s₀.vCurrentFrameIdx ∧ s₀.vCurrentFrameIdx % slotSpan w.castSucc = 0)
    (rest : 0 < s₀.vCurrentFrameIdx ∧ s₀.vCurrentFrameIdx % slotSpan w.succ = 0 → ∀ t, Between s₀ w.succ t →
      wp (cascade env behind w.succ) Q R t)
    (done : ∀ t, Rests .opened t → Moved s₀ [] t → Q () t) (between : Between s₀ w.castSucc s) :
    wp (cascade env (w.succ :: behind) w.castSucc) Q R s := by
  simp only [cascade, wp_bind, wp_get]
  rw [between.index, between.sound.wellFormed.bounds]
  by_cases isDue : 0 < s₀.vCurrentFrameIdx ∧ s₀.vCurrentFrameIdx % slotSpan w.succ = 0
  · obtain ⟨positive, aligned⟩ := isDue
    rw [if_pos ((atBound_iff w due).mpr ⟨positive, aligned⟩)]
    simp only [wp_bind, wp_modify]
    have reset : ∀ v, ((s.setIndex w.castSucc 0).vWheels v).index =
        Function.update (indexAfter s₀.vCurrentFrameIdx w.castSucc) w.castSucc 0 v := by
      intro v
      rw [index_setIndex, funext between.index]
    refine wp_mono (cascadeTimers_moves (Fin.succ_ne_zero w) positive aligned (update_indexAfter_first _ w)
      (update_indexAfter_next w aligned) (nextCascade_next w positive) (fun v _ => nextCascade_le _ w.castSucc v)
      (between.sound.setIndex w.castSucc 0) between.moved.clock.1 reset) ?_ fun _ never => never.elim
    rintro _ t ⟨sound, moved, index⟩
    rw [update_nextCascade] at sound
    rw [update_indexAfter] at index
    exact rest ⟨positive, aligned⟩ t ⟨sound, index, (between.moved.setIndex w.castSucc 0).trans moved⟩
  · rw [if_neg fun atBound => isDue ((atBound_iff w due).mp atBound)]
    exact done s (between.done due isDue) between.moved

/-- The fourth wheel is at its bound only in every 43200000th frame; that is an error, behind which the cascades of the
frame are done too. -/
theorem cascade_last_rests {s₀ : TimerState κ W}
    (due : 0 < s₀.vCurrentFrameIdx ∧ s₀.vCurrentFrameIdx % slotSpan 3 = 0) (between : Between s₀ 3 s) :
    wp (cascade env [] 3) (fun _ t => Rests .opened t ∧ Moved s₀ [] t)
      (fun t => Rests .opened t ∧ Moved s₀ [] t ∧ 0 < s₀.vCurrentFrameIdx ∧
        s₀.vCurrentFrameIdx % wheelSizeMul1234 = 0) s := by
  obtain ⟨positive, aligned⟩ := due
  change s₀.vCurrentFrameIdx % 720000 = 0 at aligned
  have here := between.moved.clock.1
  have sound : Sound (Phase.opened.next s.vCurrentFrameIdx) [] s := by
    refine ⟨between.sound.wellFormed, fun v i x higher member => ?_⟩
    refine (between.sound.timely v i x higher member).mono ?_
    rw [nextCascade, if_pos (show v ≤ 3 from Fin.le_last v), here]
    exact Nat.le_refl _
  have lower : ∀ v, v ≠ 3 → indexAfter s₀.vCurrentFrameIdx 3 v = frameIndex s₀.vCurrentFrameIdx v := by
    intro v notLast
    fin_cases v
    · change 0 = s₀.vCurrentFrameIdx % 200
      omega
    · change 0 = s₀.vCurrentFrameIdx / 200 % 60
      omega
    · change 0 = s₀.vCurrentFrameIdx / 12000 % 60
      omega
    · exact absurd rfl notLast
  have last : indexAfter s₀.vCurrentFrameIdx 3 3 = (s₀.vCurrentFrameIdx - 1) / 720000 % 60 + 1 := rfl
  simp only [cascade, wp_bind, wp_get]
  rw [between.index, between.sound.wellFormed.bounds, last]
  change wp (if 60 ≤ (s₀.vCurrentFrameIdx - 1) / 720000 % 60 + 1 then _ else _) _ _ s
  rw [wp_ite]
  refine ⟨fun atBound => ?_, fun below => ?_⟩
  · simp only [wp_bind, wp_modify, wp_raise]
    refine ⟨⟨sound.setIndex 3 0, fun v => ?_⟩, between.moved.setIndex 3 0, positive, ?_⟩
    · rw [index_setIndex]
      change _ = frameIndex s.vCurrentFrameIdx v
      rw [here]
      by_cases isLast : v = 3
      · subst isLast
        rw [Function.update_self]
        change 0 = s₀.vCurrentFrameIdx / 720000 % 60
        omega
      · rw [Function.update_of_ne isLast, between.index, lower v isLast]
    · change s₀.vCurrentFrameIdx % 43200000 = 0
      omega
  · refine ⟨⟨sound, fun v => ?_⟩, between.moved⟩
    change _ = frameIndex s.vCurrentFrameIdx v
    rw [here, between.index]
    by_cases isLast : v = 3
    · subst isLast
      rw [last]
      change _ = s₀.vCurrentFrameIdx / 720000 % 60
      omega
    · exact lower v isLast

/-- The cascades of a frame.  Done once they are not done again. -/
theorem cascade_rests {phase : Phase} (rests : Rests phase s) :
    wp (cascade env [1, 2, 3] 0) (fun _ t => Rests .opened t ∧ Moved s [] t)
      (fun t => Rests .opened t ∧ Moved s [] t ∧ 0 < s.vCurrentFrameIdx ∧
        s.vCurrentFrameIdx % wheelSizeMul1234 = 0) s := by
  cases phase with
  | opened =>
      have below : ¬ (s.vWheels 0).index ≥ (s.vWheels 0).bound := by
        rw [rests.index, rests.sound.wellFormed.bounds, ge_iff_le, not_le]
        exact Nat.mod_lt _ (by decide)
      simp only [cascade, wp_bind, wp_get]
      rw [if_neg below]
      exact ⟨rests, Moved.refl s⟩
  | fresh =>
      have start : Between s 0 s := by
        refine ⟨⟨rests.sound.wellFormed, fun v i x higher member => ?_⟩, fun v => ?_, Moved.refl s⟩
        · refine (rests.sound.timely v i x higher member).mono ?_
          rw [nextCascade, if_neg fun first => higher (Fin.le_zero_iff.mp first)]
          exact Nat.le_refl _
        · rw [rests.index]
          simp [indexAfter, Phase.index]
      refine cascade_step 0 (fun higher => absurd rfl higher) (fun dueOne t second => ?_)
        (fun t done moved => ⟨done, moved⟩) start
      refine cascade_step 1 (fun _ => dueOne) (fun dueTwo t third => ?_) (fun t done moved => ⟨done, moved⟩) second
      refine cascade_step 2 (fun _ => dueTwo) (fun dueThree t last => ?_) (fun t done moved => ⟨done, moved⟩) third
      exact cascade_last_rests dueThree last

end Cascade

end GameServer.Timer
