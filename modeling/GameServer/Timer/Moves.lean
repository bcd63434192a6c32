/-
Module: GameServer.Timer.Moves
Purpose: What each step of a run makes of the timers: adding and removing them, putting them in again behind their
  callback, the beginning and the end of a frame; and that every run keeps the wheels in order.
Trusted boundary: none
Main exports: NoSlot, Adds, Removes, Finishes, Orderly, Moves, Step.moves, Runs.orderly, Runs.keeps, update_ends,
  Runs.foldl, runs_of_calls
-/
import GameServer.Timer.EveryRun

namespace GameServer.Timer

open Lib Lib.LuaM TimerState
open Arithmetic (rounding)

variable {κ W : Type} [Arithmetic]

/-! ## Adding and removing

What calls of the timer object do to the wheels at rest, as relations between the states before and after.
-/

/-- The slot of an expiry is none of its wheel. -/
def NoSlot (s : TimerState κ W) (e : Int) : Prop := ∃ w i, s.slotFor e = some (w, i) ∧ ¬ i < wheelBound w

/-- `t` is `s` with the timer in the slot of its expiry, if there is one. -/
structure Puts (s : TimerState κ W) (timer : TimerInfo κ) (t : TimerState κ W) : Prop where
  clock : SameClock s t
  history : t.trace = s.trace ∧ t.timerCounter = s.timerCounter ∧ t.world = s.world
  members : ∀ w i x, x ∈ t.slot w i ↔
    x ∈ s.slot w i ∨ (x = timer ∧ s.slotFor timer.expires = some (w, i) ∧ i < wheelBound w)

section Operations

variable {phase : Phase} {s : TimerState κ W}

omit [Arithmetic] in
/-- The slot of an expiry depends on the clock alone. -/
theorem slotFor_congr {t : TimerState κ W} (same : SameClock s t) (e : Int) : t.slotFor e = s.slotFor e := by
  unfold slotFor
  rw [same.frame, same.index, same.barrier]

omit [Arithmetic] in
theorem Rests.of_same {t : TimerState κ W} (rests : Rests phase s) (same : SameClock s t)
    (sound : Sound (phase.next s.vCurrentFrameIdx) [] t) : Rests phase t := by
  refine ⟨?_, fun w => ?_⟩
  · rw [same.frame]
    exact sound
  · rw [same.index, same.frame]
    exact rests.index w

omit [Arithmetic] in
/-- A timer is put into a higher wheel only to stand well there. -/
theorem timely_of_slotFor {e : Int} {w : Fin 4} {i : Nat} (choice : s.slotFor e = some (w, i)) (higher : w ≠ 0) :
    Timely s.vCurrentFrameIdx (phase.next s.vCurrentFrameIdx) w i e := by
  rcases slotFor_cases s e with ⟨-, due⟩ | ⟨-, -, w', i', later, timely⟩ | ⟨-, none⟩
  · rw [due] at choice
    exact absurd (Prod.mk.inj (Option.some.inj choice)).1.symm higher
  · rw [later] at choice
    obtain ⟨rfl, rfl⟩ := Prod.mk.inj (Option.some.inj choice)
    exact timely.mono (phase.next_le _ _)
  · rw [none] at choice
    exact absurd choice (by simp)

omit [Arithmetic] in
/-- `_internal_add_timer` of a timer that is in no slot. -/
theorem internalAddTimer_puts (rests : Rests phase s) {timer : TimerInfo κ} (known : timer.id ≤ s.timerCounter)
    (new : ∀ t, InWheels s t → t.id ≠ timer.id) :
    wp (internalAddTimer timer) (fun _ t => Rests phase t ∧ Puts s timer t ∧ ¬ NoSlot s timer.expires)
      (fun t => Rests phase t ∧ Puts s timer t ∧ NoSlot s timer.expires) s := by
  have away : ∀ t, t ∈ ([] : List (TimerInfo κ)) ∨ InWheels s t → t.id ≠ timer.id := by
    rintro t (none | there)
    · simp at none
    · exact new t there
  have inHand := rests.sound.wellFormed.take_new known away
  simp only [internalAddTimer, wp_bind, wp_get]
  cases choice : s.slotFor timer.expires with
  | none =>
      refine ⟨rests, ⟨SameClock.refl s, ⟨rfl, rfl, rfl⟩, fun w i x => ?_⟩, ?_⟩
      · simp [choice]
      · rintro ⟨w, i, some, -⟩
        rw [choice] at some
        exact absurd some (by simp)
  | some place =>
      obtain ⟨w, i⟩ := place
      simp only [rests.sound.wellFormed.bounds]
      rw [wp_ite]
      refine ⟨fun bounded => ?_, fun outside => ?_⟩
      · have sound : Sound (phase.next s.vCurrentFrameIdx) [] (s.store w i timer) :=
          Sound.store ⟨inHand, rests.sound.timely⟩ bounded fun higher => timely_of_slotFor choice higher
        refine ⟨rests.of_same (sameClock_store s w i timer) sound,
          ⟨sameClock_store s w i timer, ⟨rfl, rfl, rfl⟩, fun w' i' x => ?_⟩, ?_⟩
        · rw [inHand.mem_store w i, choice, Option.some.injEq, Prod.mk.injEq]
          constructor
          · rintro (before | ⟨rfl, rfl, rfl⟩)
            · exact Or.inl before
            · exact Or.inr ⟨rfl, ⟨rfl, rfl⟩, bounded⟩
          · rintro (before | ⟨rfl, ⟨rfl, rfl⟩, -⟩)
            · exact Or.inl before
            · exact Or.inr ⟨rfl, rfl, rfl⟩
        · rintro ⟨w', i', some, outside⟩
          rw [choice] at some
          obtain ⟨rfl, rfl⟩ := Prod.mk.inj (Option.some.inj some)
          exact outside bounded
      · refine ⟨rests, ⟨SameClock.refl s, ⟨rfl, rfl, rfl⟩, fun w' i' x => ?_⟩, w, i, choice, outside⟩
        constructor
        · intro before
          exact Or.inl before
        · rintro (before | ⟨-, some, bounded⟩)
          · exact before
          · rw [choice] at some
            obtain ⟨rfl, rfl⟩ := Prod.mk.inj (Option.some.inj some)
            exact absurd bounded outside

omit [Arithmetic] in
theorem removeTimer_rests (rests : Rests phase s) (id : Nat) :
    wp (removeTimer id) (fun _ t => Rests phase t ∧ Without s id t) (fun _ => False) s := by
  refine wp_mono (removeTimer_spec rests.sound.wellFormed id) (fun _ t without => ⟨?_, without⟩) fun _ never => never
  refine rests.of_same without.clock ⟨without.wellFormed, fun w i x higher member => ?_⟩
  rw [without.clock.frame]
  exact rests.sound.timely w i x higher ((without.members w i x).mp member).1

/-- The timer that `add_timer` makes. -/
def infoFor (s : TimerState κ W) (expires : ℚ) (cb : κ) (cycle : Int) : TimerInfo κ :=
  newInfo { s with timerCounter := s.timerCounter + 1 } expires cb cycle

/-- What a call of the timer object does. -/
structure Does (s : TimerState κ W) (event : TimerEvent) (counter : Nat)
    (members : Fin 4 → Nat → TimerInfo κ → Prop) (t : TimerState κ W) : Prop where
  clock : SameClock s t
  world : t.world = s.world
  trace : t.trace = s.trace ++ [event]
  counter : t.timerCounter = counter
  members : ∀ w i x, x ∈ t.slot w i ↔ members w i x

/-- `add_timer` gives out the next id, and puts the new timer into the slot of its expiry. -/
abbrev Adds (s : TimerState κ W) (info : TimerInfo κ) : TimerState κ W → Prop :=
  Does s (.added info.id info.expires s.vCurrentFrameIdx info.cycle) (s.timerCounter + 1) fun w i x =>
    x ∈ s.slot w i ∨ (x = info ∧ s.slotFor info.expires = some (w, i) ∧ i < wheelBound w)

/-- `remove_timer` takes the timer with that id out. -/
abbrev Removes (s : TimerState κ W) (id : Nat) : TimerState κ W → Prop :=
  Does s (.removed id) s.timerCounter fun w i x => x ∈ s.slot w i ∧ x.id ≠ id

/-- `add_timer` puts the timer in, and raises when its slot is none of the first wheel. -/
theorem addTimer_adds (rests : Rests phase s) (expires : ℚ) (cb : κ) (cycle : Int) :
    wp (addTimer expires cb cycle)
      (fun id t => id = (infoFor s expires cb cycle).id ∧ Rests phase t ∧ Adds s (infoFor s expires cb cycle) t ∧
        ¬ NoSlot s (infoFor s expires cb cycle).expires)
      (fun t => Rests phase t ∧ Adds s (infoFor s expires cb cycle) t ∧
        NoSlot s (infoFor s expires cb cycle).expires) s := by
  simp only [addTimer, wp_bind, wp_modify, wp_get, wp_pure]
  change wp (internalAddTimer (infoFor s expires cb cycle)) _ _ _
  generalize infoEq : infoFor s expires cb cycle = info
  have idEq : info.id = s.timerCounter + 1 := by
    rw [← infoEq]
    rfl
  generalize stateEq : TimerState.record { s with timerCounter := s.timerCounter + 1 } _ = s'
  have trace : s'.trace = s.trace ++ [.added info.id info.expires s.vCurrentFrameIdx info.cycle] := by
    rw [← stateEq, ← infoEq]
    rfl
  have counter : s'.timerCounter = s.timerCounter + 1 := by
    rw [← stateEq]
    rfl
  have same : SameClock s s' := by
    rw [← stateEq]
    exact ⟨rfl, rfl, fun _ => rfl, fun _ => rfl, rfl⟩
  have slots : ∀ w i, s'.slot w i = s.slot w i := by
    intro w i
    rw [← stateEq]
    rfl
  have world : s'.world = s.world := by
    rw [← stateEq]
    rfl
  have rests' : Rests phase s' := by
    rw [← stateEq]
    exact rests.congr rfl rfl (Nat.le_succ _) rfl
  have new : ∀ t, InWheels s' t → t.id ≠ info.id := by
    rintro t ⟨w, i, member⟩
    have known := rests.sound.wellFormed.known t (Or.inr ⟨w, i, slots w i ▸ member⟩)
    omega
  have adds : ∀ t, Puts s' info t → Adds s info t := by
    intro t puts
    refine ⟨same.trans puts.clock, puts.history.2.2.trans world, puts.history.1.trans trace,
      puts.history.2.1.trans counter, fun w i x => ?_⟩
    rw [puts.members, slots, slotFor_congr same]
  have stuck : NoSlot s' info.expires ↔ NoSlot s info.expires := by
    simp only [NoSlot, slotFor_congr same]
  refine wp_mono (internalAddTimer_puts rests' (by omega) new) (fun _ t stored => ?_) fun t raised => ?_
  · obtain ⟨restsT, puts, slot⟩ := stored
    exact ⟨idEq.symm, restsT, adds t puts, fun noSlot => slot (stuck.mpr noSlot)⟩
  · obtain ⟨restsT, puts, noSlot⟩ := raised
    exact ⟨restsT, adds t puts, stuck.mp noSlot⟩

/-- The same for the operation of a callback. -/
theorem applyAdd_adds (rests : Rests phase s) (expires : ℚ) (cb : κ) (cycle : Int) :
    wp (applyOp (.add expires cb cycle))
      (fun _ t => Rests phase t ∧ Adds s (infoFor s expires cb cycle) t ∧
        ¬ NoSlot s (infoFor s expires cb cycle).expires)
      (fun t => Rests phase t ∧ Adds s (infoFor s expires cb cycle) t ∧
        NoSlot s (infoFor s expires cb cycle).expires) s := by
  simp only [applyOp, wp_bind, wp_pure]
  exact wp_mono (addTimer_adds rests expires cb cycle) (fun _ _ added => added.2) fun _ raised => raised

/-- `remove_timer` never raises. -/
theorem applyRemove_removes (rests : Rests phase s) (id : Nat) :
    wp (applyOp (.remove id)) (fun _ t => Rests phase t ∧ Removes s id t) (fun _ => False) s := by
  simp only [applyOp, wp_bind, wp_modify, wp_pure]
  have recorded : Rests phase (s.record (.removed id)) := rests.congr rfl rfl (Nat.le_refl _) rfl
  refine wp_mono (removeTimer_rests recorded id) (fun _ t removed => ?_) fun _ never => never
  obtain ⟨restsT, without⟩ := removed
  have clock := without.clock
  exact ⟨restsT, ⟨clock.elapse, clock.frame, clock.index, clock.bound, clock.barrier⟩, without.world, without.trace,
    without.counter, without.members⟩

omit [Arithmetic] in
/-- A slot is missing only for a timer that is due, with the barrier down and the first wheel at its bound. -/
theorem NoSlot.due {e : Int} (noSlot : NoSlot s e) :
    e ≤ s.vCurrentFrameIdx ∧ s.innerBarrier = false ∧ ¬ (s.vWheels 0).index < wheelSize1 := by
  obtain ⟨w, i, choice, outside⟩ := noSlot
  by_contra fine
  refine outside (slotFor_inside choice fun due => ?_)
  by_contra neither
  rw [not_or] at neither
  exact fine ⟨due, Bool.eq_false_iff.mpr neither.1, neither.2⟩

omit [Arithmetic] in
/-- In a callback every timer gets a slot of its wheel, and so it does while the slot of a frame is gone through. -/
theorem not_noSlot (rests : Rests phase s) (ready : s.innerBarrier = true ∨ phase = .opened) (e : Int) :
    ¬ NoSlot s e := by
  intro noSlot
  obtain ⟨-, down, atBound⟩ := noSlot.due
  rcases ready with up | rfl
  · exact absurd (up.symm.trans down) (by simp)
  · rw [rests.index] at atBound
    exact atBound (Nat.mod_lt _ (by decide))

end Operations

/-! ## Callbacks and frames

The parts of a turn of `update` around a callback: the cascades in front, and what is done with the timer behind it.
-/

/-- The timer of the next period. -/
def again (timer : TimerInfo κ) : TimerInfo κ := { timer with expires := timer.expires + timer.cycle }

/-- The state with the barrier down. -/
def barrierDown (s : TimerState κ W) : TimerState κ W := { s with innerBarrier := false }

/-- A callback has returned: its timer is taken out, and a cyclic one put in again for its next period. -/
structure Finishes (s : TimerState κ W) (timer : TimerInfo κ) (result : Bool) (t : TimerState κ W) : Prop where
  clock : SameClock (barrierDown s) t
  history : t.trace = s.trace ∧ t.timerCounter = s.timerCounter
  members : ∀ w i x, x ∈ t.slot w i ↔ (x ∈ s.slot w i ∧ x.id ≠ timer.id) ∨
    (0 < timer.cycle ∧ result = true ∧ x = again timer ∧ (barrierDown s).slotFor (again timer).expires = some (w, i))

section Frames

variable {env : TimerEnv κ W} {s : TimerState κ W}

omit [Arithmetic] in
/-- What happens to the timer behind its callback. -/
theorem finishCall_finishes (rests : Rests .opened s) {timer : TimerInfo κ} (known : timer.id ≤ s.timerCounter)
    (result : Bool) :
    wp (finishCall timer result) (fun _ t => Rests .opened t ∧ Finishes s timer result t) (fun _ => False) s := by
  simp only [finishCall, wp_bind, wp_modify]
  have down : Rests .opened (barrierDown s) := rests.congr rfl rfl (Nat.le_refl _) rfl
  refine wp_mono (removeTimer_rests down timer.id) (fun _ t removed => ?_) fun _ never => never
  obtain ⟨restsT, without⟩ := removed
  rw [wp_ite]
  refine ⟨fun again => ?_, fun once => ?_⟩
  · have gone : ∀ x, InWheels t x → x.id ≠ timer.id := fun x there => (without.inWheels.mp there).2
    have counter : timer.id ≤ t.timerCounter := by
      rw [without.counter]
      exact known
    have stored : wp (internalAddTimer (GameServer.Timer.again timer)) _ _ t :=
      internalAddTimer_puts restsT counter gone
    refine wp_mono stored (fun _ u put => ?_) fun u raised => ?_
    · obtain ⟨restsU, puts, slot⟩ := put
      refine ⟨restsU, without.clock.trans puts.clock,
        ⟨puts.history.1.trans without.trace, puts.history.2.1.trans without.counter⟩, fun w i x => ?_⟩
      rw [puts.members, without.members, slotFor_congr without.clock]
      constructor
      · rintro (before | ⟨same, choice, -⟩)
        · exact Or.inl before
        · exact Or.inr ⟨again.1, again.2, same, choice⟩
      · rintro (before | ⟨-, -, same, choice⟩)
        · exact Or.inl before
        · refine Or.inr ⟨same, choice, ?_⟩
          by_contra outside
          rw [← slotFor_congr without.clock] at choice
          exact slot ⟨w, i, choice, outside⟩
    · exact absurd raised.2.2 (not_noSlot restsT (Or.inr rfl) _)
  · refine ⟨restsT, without.clock, ⟨without.trace, without.counter⟩, fun w i x => ?_⟩
    rw [without.members]
    constructor
    · intro before
      exact Or.inl before
    · rintro (before | ⟨cyclic, returned, -⟩)
      · exact before
      · exact absurd ⟨cyclic, returned⟩ once

omit [Arithmetic] in
/-- The end of a frame. -/
theorem endFrame_rests (rests : Rests .opened s) : Rests .fresh (endFrame s) := by
  have sound : Sound (Phase.fresh.next (s.vCurrentFrameIdx + 1)) []
      ({ s.record (.frameDone s.vCurrentFrameIdx) with vCurrentFrameIdx := s.vCurrentFrameIdx + 1 }
        : TimerState κ W) := by
    refine ⟨rests.sound.wellFormed.congr (fun _ _ => rfl) (fun _ => rfl) rfl (Nat.le_refl _), ?_⟩
    intro w i x higher member
    exact (Timely.later (rests.sound.timely w i x higher member) fun first => higher first.1).2
  refine ⟨sound.setIndex 0 _, fun w => ?_⟩
  change (((_ : TimerState κ W).setIndex 0 _).vWheels w).index = startIndex (s.vCurrentFrameIdx + 1) w
  rw [index_setIndex]
  change Function.update (fun v => (s.vWheels v).index) 0 ((s.vWheels 0).index + 1) w = _
  rw [rests.index 0, funext rests.index]
  match w with
  | 0 => rfl
  | 1 => rfl
  | 2 => rfl
  | 3 => rfl

/-- The state when the cascades of a frame begin. -/
def frameBegun (s : TimerState κ W) : TimerState κ W :=
  { s with vElapseTime := rounding.sub s.vElapseTime secondPerFrame }.record (.frame s.vCurrentFrameIdx)

/-- The cascades of a frame move timers, and raise only in multiples of frame 43200000. -/
theorem beginFrame_opens {phase : Phase} (rests : Rests phase s) :
    wp (beginFrame env) (fun _ t => Rests .opened t ∧ Moved (frameBegun s) [] t)
      (fun t => Rests .opened t ∧ Moved (frameBegun s) [] t ∧ 0 < s.vCurrentFrameIdx ∧
        s.vCurrentFrameIdx % wheelSizeMul1234 = 0) s := by
  simp only [beginFrame, wp_bind, wp_modify]
  have begun : Rests phase (frameBegun s) := rests.congr rfl rfl (Nat.le_refl _) rfl
  exact cascade_rests begun

end Frames

/-! ## Points

What one step of a run does. Later modules reason by cases on `Moves` and never look into the functions again.
-/

/-- What holds at every point. -/
def Orderly : Point κ W → Prop
  | ⟨.outside, s⟩ => ∃ phase, Rests phase s
  | ⟨.turning, s⟩ => ∃ phase, Rests phase s
  | ⟨.visiting w _, s⟩ => Rests .opened s ∧ w = s.vCurrentFrameIdx % 200
  | ⟨.calling w timer _ _ _, s⟩ =>
      Rests .opened s ∧ w = s.vCurrentFrameIdx % 200 ∧ s.innerBarrier = true ∧ timer.id ≤ s.timerCounter

/-- The steps again, with what each makes of the timers.  The errors of adding a timer in a callback, and of putting it
in again, are not among them. -/
inductive Moves (env : TimerEnv κ W) : Point κ W → Point κ W → Prop
  | stop {s : TimerState κ W} (less : ¬ s.vElapseTime > secondPerFrame) : Moves env ⟨.turning, s⟩ ⟨.outside, s⟩
  | begin {s t : TimerState κ W} (more : s.vElapseTime > secondPerFrame) (moved : Moved (frameBegun s) [] t)
      (ids : List Nat) (visited : ∀ x, x ∈ t.slot 0 (t.vCurrentFrameIdx % 200) → x.id ∈ ids) :
      Moves env ⟨.turning, s⟩ ⟨.visiting (t.vCurrentFrameIdx % 200) ids, t⟩
  | beginRaised {s t : TimerState κ W} (more : s.vElapseTime > secondPerFrame) (moved : Moved (frameBegun s) [] t)
      (fifty : 0 < s.vCurrentFrameIdx ∧ s.vCurrentFrameIdx % wheelSizeMul1234 = 0) :
      Moves env ⟨.turning, s⟩ ⟨.outside, t⟩
  | gone {s : TimerState κ W} {w idx : Nat} {todo : List Nat} (none : ∀ x ∈ s.slot 0 w, x.id ≠ idx) :
      Moves env ⟨.visiting w (idx :: todo), s⟩ ⟨.visiting w todo, s⟩
  | start {s : TimerState κ W} {w : Nat} {todo : List Nat} {timer : TimerInfo κ} {run : CallbackRun κ W}
      (there : timer ∈ s.slot 0 w) (called : env.callback timer.callback timer.id (atCall timer s) = run) :
      Moves env ⟨.visiting w (timer.id :: todo), s⟩
        ⟨.calling w timer run.ops run.result todo, { atCall timer s with world := run.world }⟩
  | add {s t : TimerState κ W} {w : Nat} {timer : TimerInfo κ} {expires : ℚ} {cb : κ} {cycle : Int}
      {ops : List (TimerOp κ)} {result : Option Bool} {todo : List Nat} (adds : Adds s (infoFor s expires cb cycle) t)
      (slot : ¬ NoSlot s (infoFor s expires cb cycle).expires) :
      Moves env ⟨.calling w timer (.add expires cb cycle :: ops) result todo, s⟩ ⟨.calling w timer ops result todo, t⟩
  | remove {s t : TimerState κ W} {w : Nat} {timer : TimerInfo κ} {id : Nat} {ops : List (TimerOp κ)}
      {result : Option Bool} {todo : List Nat} (removes : Removes s id t) :
      Moves env ⟨.calling w timer (.remove id :: ops) result todo, s⟩ ⟨.calling w timer ops result todo, t⟩
  | raised {s : TimerState κ W} {w : Nat} {timer : TimerInfo κ} {todo : List Nat} :
      Moves env ⟨.calling w timer [] none todo, s⟩ ⟨.outside, s.record (.raised timer.id)⟩
  | returned {s t : TimerState κ W} {w : Nat} {timer : TimerInfo κ} {result : Bool} {todo : List Nat}
      (finishes : Finishes s timer result t) :
      Moves env ⟨.calling w timer [] (some result) todo, s⟩ ⟨.visiting w todo, t⟩
  | frameDone {s : TimerState κ W} {w : Nat} : Moves env ⟨.visiting w [], s⟩ ⟨.turning, endFrame s⟩

section Points

variable {env : TimerEnv κ W} {p q : Point κ W}

/-- Every step is one of these, and keeps order. -/
theorem Step.moves (step : Step env p q) (orderly : Orderly p) : Orderly q ∧ Moves env p q := by
  cases step with
  | stop less => exact ⟨orderly, .stop less⟩
  | begin more begun inside =>
      obtain ⟨phase, rests⟩ := orderly
      obtain ⟨restsT, moved⟩ := of_exec (beginFrame_opens rests) begun
      have index := restsT.index 0
      change _ = _ % 200 at index
      simp only [currentSlot, index]
      refine ⟨⟨restsT, rfl⟩, .begin more moved _ fun x member => ?_⟩
      exact List.mem_map_of_mem ((env.pairs_perm _ _).mem_iff.mpr member)
  | beginRaised more raised =>
      obtain ⟨phase, rests⟩ := orderly
      obtain ⟨restsT, moved, fifty⟩ := of_exec_error (beginFrame_opens rests) raised
      exact ⟨⟨.opened, restsT⟩, .beginRaised more moved fifty⟩
  | noSlot more begun beyond =>
      obtain ⟨phase, rests⟩ := orderly
      obtain ⟨restsT, -⟩ := of_exec (beginFrame_opens rests) begun
      refine absurd ?_ beyond
      rw [restsT.index, restsT.sound.wellFormed.bounds]
      exact Nat.mod_lt _ (by decide)
  | gone none =>
      refine ⟨orderly, .gone fun x member same => ?_⟩
      exact absurd same (by simpa using List.find?_eq_none.mp none x member)
  | @start s w idx todo timer run found called =>
      obtain ⟨rests, here⟩ := orderly
      have idEq : timer.id = idx := by simpa using List.find?_some found
      have there := List.mem_of_find?_eq_some found
      subst idEq
      refine ⟨⟨rests.congr rfl rfl (Nat.le_refl _) rfl, here, rfl, ?_⟩, .start there called⟩
      exact rests.sound.wellFormed.known timer (Or.inr ⟨0, w, there⟩)
  | @op s t w timer op ops result todo done =>
      obtain ⟨rests, here, up, known⟩ := orderly
      cases op with
      | add expires cb cycle =>
          obtain ⟨restsT, adds, slot⟩ := of_exec (applyAdd_adds rests expires cb cycle) done
          refine ⟨⟨restsT, ?_, adds.clock.barrier.trans up, ?_⟩, .add adds slot⟩
          · rw [adds.clock.frame]
            exact here
          · rw [adds.counter]
            exact Nat.le_succ_of_le known
      | remove id =>
          obtain ⟨restsT, removes⟩ := of_exec (applyRemove_removes rests id) done
          refine ⟨⟨restsT, ?_, removes.clock.barrier.trans up, ?_⟩, .remove removes⟩
          · rw [removes.clock.frame]
            exact here
          · rw [removes.counter]
            exact known
  | @opRaised s t w timer op ops result todo raised =>
      obtain ⟨rests, here, up, known⟩ := orderly
      cases op with
      | add expires cb cycle =>
          obtain ⟨-, -, noSlot⟩ := of_exec_error (applyAdd_adds rests expires cb cycle) raised
          exact absurd noSlot (not_noSlot rests (Or.inl up) _)
      | remove id => exact (of_exec_error (applyRemove_removes rests id) raised).elim
  | raised =>
      obtain ⟨rests, -⟩ := orderly
      exact ⟨⟨.opened, rests.congr rfl rfl (Nat.le_refl _) rfl⟩, .raised⟩
  | returned done =>
      obtain ⟨rests, here, up, known⟩ := orderly
      obtain ⟨restsT, finishes⟩ := of_exec (finishCall_finishes rests known _) done
      refine ⟨⟨restsT, ?_⟩, .returned finishes⟩
      rw [finishes.clock.frame]
      exact here
  | notStored raised =>
      obtain ⟨rests, -, -, known⟩ := orderly
      exact (of_exec_error (finishCall_finishes rests known _) raised).elim
  | frameDone => exact ⟨⟨.fresh, endFrame_rests orderly.1⟩, .frameDone⟩

omit [Arithmetic] in
/-- At every point the wheels are at rest. -/
theorem Orderly.rests (orderly : Orderly p) : ∃ phase, Rests phase p.state := by
  obtain ⟨mode, s⟩ := p
  cases mode with
  | outside => exact orderly
  | turning => exact orderly
  | visiting w todo => exact ⟨.opened, orderly.1⟩
  | calling w timer ops result todo => exact ⟨.opened, orderly.1⟩

theorem applyAdd_rests {s : TimerState κ W} {phase : Phase} (rests : Rests phase s) (expires : ℚ) (cb : κ)
    (cycle : Int) : Rests phase (exec (applyOp (.add expires cb cycle)) s).2 :=
  wp_same.mp (wp_mono (applyAdd_adds rests expires cb cycle) (fun _ _ added => added.1) fun _ raised => raised.1)

/-- A call from outside keeps order. -/
theorem callPoint_orderly {s : TimerState κ W} {phase : Phase} (rests : Rests phase s) (call : TimerCall κ) :
    Orderly (callPoint s call) := by
  cases call with
  | update elapse => exact ⟨phase, rests.congr rfl rfl (Nat.le_refl _) rfl⟩
  | op op =>
      cases op with
      | add expires cb cycle => exact ⟨phase, applyAdd_rests rests expires cb cycle⟩
      | remove id =>
          exact ⟨phase, wp_same.mp (wp_mono (applyRemove_removes rests id) (fun _ _ removed => removed.1)
            fun _ never => never.elim)⟩

/-- What a call of `add_timer` or `remove_timer` from outside does. -/
theorem applyAdd_exec {s : TimerState κ W} {phase : Phase} (rests : Rests phase s) (expires : ℚ) (cb : κ)
    (cycle : Int) : Adds s (infoFor s expires cb cycle) (exec (applyOp (.add expires cb cycle)) s).2 :=
  wp_same.mp (wp_mono (applyAdd_adds rests expires cb cycle) (fun _ _ added => added.2.1) fun _ raised => raised.2.1)

theorem applyRemove_exec {s : TimerState κ W} {phase : Phase} (rests : Rests phase s) (id : Nat) :
    Removes s id (exec (applyOp (.remove id)) s).2 :=
  wp_same.mp (wp_mono (applyRemove_removes rests id) (fun _ _ removed => removed.2) fun _ never => never.elim)

/-- Order at every point of every run. -/
theorem Runs.orderly {calls : List (TimerCall κ)} (start : Orderly p) (runs : Runs env p calls q) : Orderly q := by
  refine runs.invariant start (fun s call orderly => ?_) fun _ _ _ _ _ orderly step => (step.moves orderly).1
  obtain ⟨phase, rests⟩ := orderly
  exact callPoint_orderly rests call

/-- What holds at the start, and is kept by calls and steps at points in order, holds at every point of a run. -/
theorem Runs.keeps {calls : List (TimerCall κ)} {I : Point κ W → Prop} (orderly : Orderly p) (start : I p)
    (onCall : ∀ s phase call, Rests phase s → I ⟨.outside, s⟩ → I (callPoint s call))
    (onStep : ∀ before q r, before <+: calls → Runs env p before q → Orderly q → Orderly r → I q → Moves env q r → I r)
    (runs : Runs env p calls q) : I q := by
  have both : Orderly q ∧ I q := by
    refine runs.invariant (I := fun q => Orderly q ∧ I q) ⟨orderly, start⟩ ?_ ?_
    · rintro s call ⟨⟨phase, rests⟩, inv⟩
      exact ⟨callPoint_orderly rests call, onCall s phase call rests inv⟩
    · rintro before q r isPrefix runs ⟨orderlyQ, inv⟩ step
      obtain ⟨orderlyR, moves⟩ := step.moves orderlyQ
      exact ⟨orderlyR, onStep before q r isPrefix runs orderlyQ orderlyR inv moves⟩
  exact both.2

end Points

/-! ## Calls end

A frame whose number is a multiple of 43200000 does not begin with its cascades still to come.  So a call of `update`
works off 43200000 frames at most, whatever the arithmetic makes of the time, and the turns of the model are enough.
-/

section Ends

variable {env : TimerEnv κ W} {phase : Phase} {start : Nat} {p q : Point κ W} {s t : TimerState κ W}

/-- A frame begins only if its cascades do not raise. -/
theorem Step.not_turned (rests : Rests .fresh s) {w : Nat} {ids : List Nat}
    (step : Step env ⟨.turning, s⟩ ⟨.visiting w ids, t⟩) :
    ¬ (0 < s.vCurrentFrameIdx ∧ s.vCurrentFrameIdx % wheelSizeMul1234 = 0) := by
  intro turned
  have standing : Standing s.vCurrentFrameIdx (startIndex s.vCurrentFrameIdx) s.innerBarrier _ (frameBegun s) :=
    ⟨⟨rfl, rests.index, rfl⟩, rests.sound.wellFormed.bounds, rfl⟩
  have raises : wp (beginFrame env) (fun _ _ => False) (fun _ => True) s := by
    simp only [beginFrame, wp_bind, wp_modify]
    exact cascade_raises env turned standing
  cases step with
  | begin more begun inside => exact of_exec raises begun

/-- A call that was made in frame `start` has not come past a multiple of 43200000, and the cascades of a frame behind
`start` are still to come when it has not begun. -/
def Reaches (start : Nat) (p : Point κ W) : Prop :=
  p.mode = .outside ∨
    (p.mode.inFrame = 0 → start < p.state.vCurrentFrameIdx → Rests .fresh p.state) ∧
      ∀ f, start < f → f < p.state.vCurrentFrameIdx + p.mode.inFrame → f % wheelSizeMul1234 ≠ 0

omit [Arithmetic] in
/-- Within a frame nothing is counted. -/
theorem Reaches.within (reaches : Reaches start p) (insideP : p.mode.inFrame = 1) (insideQ : q.mode.inFrame = 1)
    (frame : q.state.vCurrentFrameIdx = p.state.vCurrentFrameIdx) : Reaches start q := by
  rcases reaches with outside | ⟨-, none⟩
  · rw [outside] at insideP
    exact absurd insideP Nat.zero_ne_one
  · rw [insideP] at none
    refine Or.inr ⟨fun never => absurd (insideQ.symm.trans never) (by decide), ?_⟩
    rw [insideQ, frame]
    exact none

/-- One step keeps the bound on the frames to come. -/
theorem Reaches.step (orderly : Orderly p) (reaches : Reaches start p) (step : Step env p q) : Reaches start q := by
  have moves := (step.moves orderly).2
  cases moves with
  | stop less => exact Or.inl rfl
  | @begin s t more moved ids visited =>
      obtain ⟨fresh, none⟩ := reaches.resolve_left (by simp)
      have frame : t.vCurrentFrameIdx = s.vCurrentFrameIdx := moved.clock.1
      refine Or.inr ⟨fun never => absurd never (by simp [Mode.inFrame]), fun f later before turned => ?_⟩
      change f < t.vCurrentFrameIdx + 1 at before
      by_cases earlier : f < s.vCurrentFrameIdx
      · exact none f later earlier turned
      · obtain rfl : f = s.vCurrentFrameIdx := by omega
        exact step.not_turned (fresh rfl later) ⟨Nat.zero_lt_of_lt later, turned⟩
  | beginRaised more moved fifty => exact Or.inl rfl
  | gone none => exact reaches.within rfl rfl rfl
  | start there called => exact reaches.within rfl rfl rfl
  | add adds slot => exact reaches.within rfl rfl adds.clock.frame
  | remove removes => exact reaches.within rfl rfl removes.clock.frame
  | raised => exact Or.inl rfl
  | returned finishes => exact reaches.within rfl rfl finishes.clock.frame
  | frameDone =>
      obtain ⟨-, none⟩ := reaches.resolve_left (by simp)
      exact Or.inr ⟨fun _ _ => endFrame_rests orderly.1, none⟩

/-- So do many. -/
theorem Reaches.steps (orderly : Orderly p) (reaches : Reaches start p) (steps : Steps env p q) :
    Orderly q ∧ Reaches start q := by
  induction steps with
  | refl => exact ⟨orderly, reaches⟩
  | tail _ last ih => exact ⟨(last.moves ih.1).1, ih.2.step ih.1 last⟩

/-- `update` takes its steps, and ends outside. -/
theorem update_ends (rests : Rests phase s) (elapse : ℚ) :
    Steps env ⟨.turning, elapsed elapse s⟩ ⟨.outside, stateAfter env s (.update elapse)⟩ := by
  have orderly : Orderly (⟨.turning, elapsed elapse s⟩ : Point κ W) :=
    ⟨phase, rests.congr rfl rfl (Nat.le_refl _) rfl⟩
  have atStart : Reaches s.vCurrentFrameIdx (⟨.turning, elapsed elapse s⟩ : Point κ W) :=
    Or.inr ⟨fun _ later => absurd later (Nat.lt_irrefl _),
      fun f later before => absurd (later.trans before) (Nat.lt_irrefl _)⟩
  have turns := lt_turnsFor (rounding.add s.vElapseTime elapse)
  have all : wp (applyCall env (.update elapse))
      (fun _ t => Steps env ⟨.turning, elapsed elapse s⟩ ⟨.outside, t⟩)
      (fun t => Steps env ⟨.turning, elapsed elapse s⟩ ⟨.outside, t⟩) s := by
    change wp (updateLoop env (turnsFor (rounding.add s.vElapseTime elapse))) _ _ (elapsed elapse s)
    refine wp_mono (updateLoop_steps _) (fun _ t taken => ?_) fun _ ended => ended
    refine taken.resolve_right ?_
    rintro ⟨turning, frames⟩
    obtain ⟨-, none⟩ := (atStart.steps orderly turning).2.resolve_left (by simp)
    change s.vCurrentFrameIdx + turnsFor (rounding.add s.vElapseTime elapse) ≤ t.vCurrentFrameIdx at frames
    -- one of 43200000 frames in turn is a multiple of it
    have below := Nat.mul_div_le s.vCurrentFrameIdx wheelSizeMul1234
    refine none (wheelSizeMul1234 * (s.vCurrentFrameIdx / wheelSizeMul1234 + 1)) ?_ ?_ (Nat.mul_mod_right _ _)
    · exact Nat.lt_mul_div_succ _ (by decide)
    · change _ < t.vCurrentFrameIdx + 0
      rw [Nat.mul_add_one]
      omega
  exact wp_same.mp all

/-- A call from outside takes its steps, and ends outside. -/
theorem applyCall_steps (rests : Rests phase s) (call : TimerCall κ) :
    Steps env (callPoint s call) ⟨.outside, stateAfter env s call⟩ := by
  cases call with
  | op op => exact .refl
  | update elapse => exact update_ends rests elapse

variable {calls : List (TimerCall κ)}

/-- A call more in a run that is outside of calls. -/
theorem Runs.stateAfter (orderly : Orderly p) (runs : Runs env p calls ⟨.outside, s⟩) (call : TimerCall κ) :
    Runs env p (calls ++ [call]) ⟨.outside, stateAfter env s call⟩ := by
  obtain ⟨phase, rests⟩ := runs.orderly orderly
  exact (runs.call call).steps (applyCall_steps rests call)

/-- Every run of calls goes through such points. -/
theorem Runs.foldl (orderly : Orderly p) (runs : Runs env p calls ⟨.outside, s⟩) (more : List (TimerCall κ)) :
    Runs env p (calls ++ more) ⟨.outside, more.foldl (GameServer.Timer.stateAfter env) s⟩ := by
  induction more generalizing calls s with
  | nil =>
      rw [List.append_nil]
      exact runs
  | cons call more ih =>
      have rest := ih (runs.stateAfter orderly call)
      rw [List.append_assoc] at rest
      exact rest

/-- Every list of calls is a run. -/
theorem runs_of_calls (rests : Rests phase s) (calls : List (TimerCall κ)) :
    Runs env ⟨.outside, s⟩ calls ⟨.outside, calls.foldl (stateAfter env) s⟩ := by
  have orderly : Orderly (⟨.outside, s⟩ : Point κ W) := ⟨phase, rests⟩
  have runs := (Runs.nil : Runs env ⟨.outside, s⟩ [] ⟨.outside, s⟩).foldl orderly calls
  rw [List.nil_append] at runs
  exact runs

end Ends

end GameServer.Timer
