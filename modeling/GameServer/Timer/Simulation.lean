/-
Module: GameServer.Timer.Simulation
Purpose: The wheel follows the map of expiries: the relation between the two, and that adding and
  removing timers, cascades and whole frames keep it.
Trusted boundary: none
Main exports: OkTrace, Matches, Inv, applyOp_triple, cascadeTimers_triple, updateFrame_triple
-/
import GameServer.Timer.ExpiryMap
import GameServer.Timer.Placement

namespace GameServer.Timer

open Lib Lib.LuaM TimerState

variable {κ W : Type}

/-! ## The runs the wheel is made for

The map of the abstract model keeps expiry frames alone, so it can stand for the wheels only in runs of one-shot
timers, inside the range of the wheels, in which nothing raises.
-/

/-- What is asked of a run: timers are one-shot and expire after the frame they are added in, less than
50 days ahead; less than 50 days are run; callbacks return. -/
def TimerEvent.Ok : TimerEvent → Prop
  | .added _ expires now cycle =>
      cycle ≤ 0 ∧ (now : Int) < expires ∧ expires < now + wheelSizeMul1234
  | .frame idx => idx < wheelSizeMul1234
  | .raised _ => False
  | _ => True

instance : (event : TimerEvent) → Decidable event.Ok
  | .added _ _ _ _ => inferInstanceAs (Decidable (_ ∧ _))
  | .frame _ => inferInstanceAs (Decidable (_ < _))
  | .raised _ => inferInstanceAs (Decidable False)
  | .removed _ => inferInstanceAs (Decidable True)
  | .started _ _ => inferInstanceAs (Decidable True)
  | .frameDone _ => inferInstanceAs (Decidable True)

def OkTrace (trace : List TimerEvent) : Prop := ∀ event ∈ trace, event.Ok

instance (trace : List TimerEvent) : Decidable (OkTrace trace) :=
  inferInstanceAs (Decidable (∀ event ∈ trace, event.Ok))

/-- The history of the state is one the wheel is made for. -/
def FineSoFar (s : TimerState κ W) : Prop := OkTrace s.trace

/-- A history is fine when its events are. -/
theorem fineSoFar_record {s : TimerState κ W} {event : TimerEvent} :
    FineSoFar (s.record event) ↔ FineSoFar s ∧ event.Ok := by
  simp [FineSoFar, OkTrace, TimerState.record, or_imp, forall_and]

/-- What all of the wheel's functions do with the history, with the frame counter and, up to the loop of `update`, with
the elapsed time. -/
def Grows (s t : TimerState κ W) : Prop :=
  s.trace <+: t.trace ∧ t.vElapseTime = s.vElapseTime ∧ s.vCurrentFrameIdx ≤ t.vCurrentFrameIdx

instance : IsPreorder (TimerState κ W) Grows where
  refl s := ⟨List.prefix_refl s.trace, rfl, Nat.le_refl _⟩
  trans _ _ _ first second :=
    ⟨first.1.trans second.1, second.2.1.trans first.2.1, Nat.le_trans first.2.2 second.2.2⟩

/-- A longer history has all that was in the shorter one. -/
theorem remembers_of_grows {α : Type} {m : LuaM (TimerState κ W) α} (grows : Keeps Grows m) :
    Remembers FineSoFar m :=
  grows.mono fun _ _ longer fine event member => fine event (longer.1.subset member)

section History

theorem grows_record (event : TimerState κ W → TimerEvent) :
    Keeps Grows (modify fun s : TimerState κ W => s.record (event s)) :=
  Keeps.modify fun s => ⟨List.prefix_append s.trace _, rfl, Nat.le_refl _⟩

/-- A change that records nothing, and keeps the time, lets the history grow by nothing. -/
theorem grows_silent {f : TimerState κ W → TimerState κ W} (silent : ∀ s, (f s).trace = s.trace)
    (elapse : ∀ s, (f s).vElapseTime = s.vElapseTime) (frame : ∀ s, s.vCurrentFrameIdx ≤ (f s).vCurrentFrameIdx) :
    Keeps Grows (modify f) :=
  Keeps.modify fun s => ⟨silent s ▸ List.prefix_refl s.trace, elapse s, frame s⟩

theorem internalAddTimer_grows (timer : TimerInfo κ) :
    Keeps Grows (internalAddTimer timer : LuaM (TimerState κ W) Unit) := by
  refine Keeps.get.bind fun s => ?_
  split
  · exact Keeps.pure ()
  · exact Keeps.ite (grows_silent (fun _ => rfl) (fun _ => rfl) fun _ => Nat.le_refl _) Keeps.raise

theorem removeTimer_grows (index : Nat) :
    Keeps Grows (removeTimer index : LuaM (TimerState κ W) Bool) := by
  refine Keeps.get.bind fun s => ?_
  split
  · exact (grows_silent (fun _ => rfl) (fun _ => rfl) fun _ => Nat.le_refl _).bind fun _ => Keeps.pure true
  · exact Keeps.pure false

theorem applyOp_grows [Arithmetic] (op : TimerOp κ) : Keeps Grows (applyOp op : LuaM (TimerState κ W) Unit) := by
  cases op with
  | add expires cb cycle =>
      refine Keeps.bind ?_ fun _ => Keeps.pure ()
      unfold addTimer
      refine Keeps.bind (grows_silent (fun _ => rfl) (fun _ => rfl) fun _ => Nat.le_refl _) fun _ => Keeps.get.bind fun s => ?_
      refine Keeps.bind (grows_record _) fun _ => ?_
      exact (internalAddTimer_grows _).bind fun _ => Keeps.pure _
  | remove index =>
      refine Keeps.bind (grows_record _) fun _ => ?_
      exact (removeTimer_grows index).bind fun _ => Keeps.pure ()

end History

/-! ## The relation

The wheels stand for a map when each waiting id is a timer with that expiry, in a slot that reaches it in time.
-/

/-- The wheel and the map `m` agree.  The timer `cur`, whose callback is running, no longer waits but
still has its place in the wheels. -/
structure Matches (s : TimerState κ W) (hand : List (TimerInfo κ)) (cur : Option Nat)
    (m : ExpiryMap) : Prop where
  frame : m.frame = s.vCurrentFrameIdx
  waiting : ∀ id e, m.waiting id = some e ↔
    cur ≠ some id ∧ ∃ t, (t ∈ hand ∨ InWheels s t) ∧ t.id = id ∧ t.expires = e
  issued : ∀ id, m.issued id → id ≤ s.timerCounter
  running : ∀ id, cur = some id → id ≤ s.timerCounter
  replays : Replays s.trace m

/-- Every timer stands well, is one-shot, and the wheel agrees with some map. -/
structure Inv (next : Fin 4 → Nat) (hand : List (TimerInfo κ)) (cur : Option Nat)
    (s : TimerState κ W) : Prop where
  wellFormed : WellFormed s hand
  timely : ∀ w i t, t ∈ s.slot w i → Timely s.vCurrentFrameIdx next w i t.expires
  oneShot : ∀ t, t ∈ hand ∨ InWheels s t → t.cycle ≤ 0
  matched : ∃ m, Matches s hand cur m

/-- The frame, the indices of the wheels and the barrier. -/
structure Clock (frame : Nat) (index : Fin 4 → Nat) (barrier : Bool) (s : TimerState κ W) : Prop where
  frame : s.vCurrentFrameIdx = frame
  index : ∀ w, (s.vWheels w).index = index w
  barrier : s.innerBarrier = barrier

/-- Changes of slots leave the clock. -/
theorem Clock.of_same {frame : Nat} {index : Fin 4 → Nat} {barrier : Bool} {s t : TimerState κ W}
    (clock : Clock frame index barrier s) (same : SameClock s t) : Clock frame index barrier t :=
  ⟨same.frame.trans clock.frame, fun w => (same.index w).trans (clock.index w),
    same.barrier.trans clock.barrier⟩

/-- The invariant looks only at the slots, the bounds, the map, the counter, the frame and the
history. -/
theorem Inv.congr {next : Fin 4 → Nat} {hand : List (TimerInfo κ)} {cur : Option Nat}
    {s t : TimerState κ W} (inv : Inv next hand cur s) (slots : ∀ w i, t.slot w i = s.slot w i)
    (bounds : ∀ w, (t.vWheels w).bound = (s.vWheels w).bound)
    (map : t.vIndexSlotMap = s.vIndexSlotMap) (counter : t.timerCounter = s.timerCounter)
    (frame : t.vCurrentFrameIdx = s.vCurrentFrameIdx) (trace : t.trace = s.trace) :
    Inv next hand cur t := by
  have members : ∀ x, InWheels t x ↔ InWheels s x := by simp [InWheels, slots]
  refine ⟨inv.wellFormed.congr slots bounds map (Nat.le_of_eq counter.symm), ?_, ?_, ?_⟩
  · intro w i x member
    rw [frame]
    exact inv.timely w i x (slots w i ▸ member)
  · intro x member
    rw [members] at member
    exact inv.oneShot x member
  · obtain ⟨m, matched⟩ := inv.matched
    refine ⟨m, matched.frame.trans frame.symm, ?_, ?_, ?_, trace ▸ matched.replays⟩
    · simpa only [members] using matched.waiting
    · rw [counter]
      exact matched.issued
    · rw [counter]
      exact matched.running

/-- New wheels stand for the empty map. -/
theorem inv_init (world : W) :
    Inv (fun _ => 1) [] none (TimerState.init world : TimerState κ W) := by
  have empty : ∀ w i, (TimerState.init world : TimerState κ W).slot w i = [] := by
    intro w i
    match w with
    | 0 => rfl
    | 1 => rfl
    | 2 => rfl
    | 3 => rfl
  refine ⟨WellFormed.init world, ?_, ?_, .init, ⟨rfl, ?_, ?_, ?_, .nil _⟩⟩
  · intro w i t member
    simp [empty] at member
  · rintro t (member | ⟨w, i, member⟩)
    · simp at member
    · simp [empty] at member
  · intro id e
    constructor
    · intro waits
      exact absurd waits (by simp [ExpiryMap.init])
    · rintro ⟨-, t, member | ⟨w, i, member⟩, -⟩
      · simp at member
      · simp [empty] at member
  · intro id issued
    exact issued.elim
  · intro id running
    exact absurd running (by simp)

/-! ## Adding and removing

Both operations keep the relation, with the map changed alike.
-/

/-- A timer with a new id, stored well, follows the `added` step of the map. -/
private theorem Inv.add {next : Fin 4 → Nat} {cur : Option Nat} {s s' t : TimerState κ W}
    (inv : Inv next [] cur s) {timer : TimerInfo κ} {w : Fin 4} {i : Nat}
    (id_eq : timer.id = s.timerCounter + 1) (oneShot : timer.cycle ≤ 0)
    (timely : Timely s.vCurrentFrameIdx next w i timer.expires)
    (slots : ∀ w i, s'.slot w i = s.slot w i) (frame : s'.vCurrentFrameIdx = s.vCurrentFrameIdx)
    (counter : s'.timerCounter = s.timerCounter + 1)
    (trace : s'.trace =
      s.trace ++ [.added timer.id timer.expires s.vCurrentFrameIdx timer.cycle])
    (stored : Stored s' [] timer w i t) : Inv next [] cur t := by
  have members : ∀ w' i' x, x ∈ t.slot w' i' ↔ x ∈ s.slot w' i' ∨ (w' = w ∧ i' = i ∧ x = timer) := by
    intro w' i' x
    rw [stored.members, slots]
  have inWheels : ∀ x, InWheels t x ↔ InWheels s x ∨ x = timer := by
    intro x
    rw [stored.inWheels]
    simp [InWheels, slots]
  obtain ⟨m, matched⟩ := inv.matched
  have unused : ¬ m.issued timer.id := by
    intro issued
    have known := matched.issued timer.id issued
    omega
  have tFrame : t.vCurrentFrameIdx = s.vCurrentFrameIdx := stored.clock.frame.trans frame
  have tCounter : t.timerCounter = s.timerCounter + 1 := stored.counter.trans counter
  let m' : ExpiryMap :=
    { m with
      waiting := Function.update m.waiting timer.id (some timer.expires)
      issued := fun k => k = timer.id ∨ m.issued k }
  refine ⟨stored.wellFormed, ?_, ?_, m', ⟨?_, ?_, ?_, ?_, ?_⟩⟩
  · intro w' i' x member
    rw [tFrame]
    rcases (members w' i' x).mp member with before | ⟨rfl, rfl, rfl⟩
    · exact inv.timely w' i' x before
    · exact timely
  · rintro x (none | member)
    · simp at none
    · rcases (inWheels x).mp member with before | rfl
      · exact inv.oneShot x (Or.inr before)
      · exact oneShot
  · exact matched.frame.trans tFrame.symm
  · intro id e
    by_cases same : id = timer.id
    · subst same
      have notRunning : cur ≠ some timer.id := by
        intro running
        have known := matched.running timer.id running
        omega
      have onlyNew : ∀ x, (x ∈ [] ∨ InWheels t x) ∧ x.id = timer.id ↔ x = timer := by
        intro x
        rw [inWheels]
        constructor
        · rintro ⟨none | before | new, sameId⟩
          · simp at none
          · have known := inv.wellFormed.known x (Or.inr before)
            omega
          · exact new
        · rintro rfl
          exact ⟨Or.inr (Or.inr rfl), rfl⟩
      simp only [m', Function.update_self, Option.some.injEq]
      constructor
      · intro expires
        exact ⟨notRunning, timer, ((onlyNew timer).mpr rfl).1, rfl, expires⟩
      · rintro ⟨-, x, member, sameId, expires⟩
        obtain rfl := (onlyNew x).mp ⟨member, sameId⟩
        exact expires
    · simp only [m', Function.update_of_ne same]
      rw [matched.waiting id e]
      refine and_congr_right fun _ => exists_congr fun x => ?_
      rw [inWheels]
      constructor
      · rintro ⟨none | before, sameId, expires⟩
        · simp at none
        · exact ⟨Or.inr (Or.inl before), sameId, expires⟩
      · rintro ⟨none | before | rfl, sameId, expires⟩
        · simp at none
        · exact ⟨Or.inr before, sameId, expires⟩
        · exact absurd sameId.symm same
  · rintro id (rfl | before)
    · omega
    · have known := matched.issued id before
      omega
  · intro id running
    have known := matched.running id running
    omega
  · rw [stored.trace, trace, ← matched.frame]
    exact matched.replays.snoc (.added timer.expires timer.cycle unused)

/-- A timer that is taken out of the wheels and ended in the map.  `s'` differs from `s` at most in its
history. -/
theorem Inv.without {next : Fin 4 → Nat} {cur cur' : Option Nat} {s s' t : TimerState κ W}
    (inv : Inv next [] cur s) {id : Nat} (without : Without s' id t)
    (slots : ∀ w i, s'.slot w i = s.slot w i) (frame : s'.vCurrentFrameIdx = s.vCurrentFrameIdx)
    (counter : s'.timerCounter = s.timerCounter)
    (others : ∀ k, cur' = some k → cur = some k) (running : ∀ k, k ≠ id → cur = some k → cur' = some k)
    {m : ExpiryMap} (matched : Matches s [] cur m) (m' : ExpiryMap) (sameFrame : m'.frame = m.frame)
    (issued : ∀ k, m'.issued k → m.issued k) (ended : m'.waiting id = none)
    (replays : Replays t.trace m') (same : ∀ k, k ≠ id → m'.waiting k = m.waiting k) :
    Inv next [] cur' t := by
  have inWheels : ∀ x, InWheels t x ↔ InWheels s x ∧ x.id ≠ id := by
    intro x
    rw [without.inWheels]
    simp [InWheels, slots]
  have tFrame : t.vCurrentFrameIdx = s.vCurrentFrameIdx := without.clock.frame.trans frame
  have tCounter : t.timerCounter = s.timerCounter := without.counter.trans counter
  refine ⟨without.wellFormed, ?_, ?_, m', ⟨?_, ?_, ?_, ?_, replays⟩⟩
  · intro w i x member
    rw [tFrame]
    exact inv.timely w i x (slots w i ▸ ((without.members w i x).mp member).1)
  · rintro x (none | member)
    · simp at none
    · exact inv.oneShot x (Or.inr ((inWheels x).mp member).1)
  · exact sameFrame.trans (matched.frame.trans tFrame.symm)
  · intro k e
    by_cases isId : k = id
    · subst isId
      rw [ended]
      constructor
      · intro waits
        exact absurd waits (by simp)
      · rintro ⟨-, x, none | member, sameId, -⟩
        · simp at none
        · exact absurd sameId ((inWheels x).mp member).2
    · rw [same k isId, matched.waiting k e]
      refine and_congr (not_congr ⟨running k isId, others k⟩) (exists_congr fun x => ?_)
      rw [inWheels]
      constructor
      · rintro ⟨none | before, sameId, expires⟩
        · simp at none
        · exact ⟨Or.inr ⟨before, sameId ▸ isId⟩, sameId, expires⟩
      · rintro ⟨none | before, sameId, expires⟩
        · simp at none
        · exact ⟨Or.inr before.1, sameId, expires⟩
  · intro k isIssued
    rw [tCounter]
    exact matched.issued k (issued k isIssued)
  · intro k isRunning
    rw [tCounter]
    exact matched.running k (others k isRunning)

/-- Adding or removing a timer, between two updates or from a callback, keeps the invariant and the
clock.  It puts nothing into the slot of the current frame. -/
theorem applyOp_triple [Arithmetic] {next : Fin 4 → Nat} {cur : Option Nat} {frame : Nat} {index : Fin 4 → Nat}
    {barrier : Bool} (nextLe : ∀ w, next w ≤ frame + 1) (D : TimerInfo κ → Prop) (op : TimerOp κ) :
    Triple (σ := TimerState κ W) FineSoFar
      (fun s => Inv next [] cur s ∧ Clock frame index barrier s ∧
        ∀ x ∈ s.slot 0 (frame % 200), D x)
      (applyOp op)
      (fun _ s => Inv next [] cur s ∧ Clock frame index barrier s ∧
        ∀ x ∈ s.slot 0 (frame % 200), D x) := by
  refine Triple.of_wp (remembers_of_grows (applyOp_grows op)) ?_
  rintro s ⟨inv, clock, current⟩
  cases op with
  | add expires cb cycle =>
      simp only [applyOp, addTimer, wp_bind, wp_modify, wp_get, wp_pure]
      generalize infoEq : newInfo { s with timerCounter := s.timerCounter + 1 } expires cb cycle = info
      generalize stateEq : TimerState.record { s with timerCounter := s.timerCounter + 1 }
        (.added info.id info.expires s.vCurrentFrameIdx info.cycle) = s'
      have idEq : info.id = s.timerCounter + 1 := by rw [← infoEq]; rfl
      have frame' : s'.vCurrentFrameIdx = s.vCurrentFrameIdx := by rw [← stateEq]; rfl
      have slots : ∀ w i, s'.slot w i = s.slot w i := by
        intro w i
        rw [← stateEq]
        rfl
      have counter : s'.timerCounter = s.timerCounter + 1 := by rw [← stateEq]; rfl
      have trace : s'.trace =
          s.trace ++ [.added info.id info.expires s.vCurrentFrameIdx info.cycle] := by
        rw [← stateEq]; rfl
      by_cases fine : FineSoFar s'
      · have okAdd : TimerEvent.Ok (.added info.id info.expires s.vCurrentFrameIdx info.cycle) :=
          fine _ (by simp [trace])
        obtain ⟨oneShot, later, reach⟩ := okAdd
        obtain ⟨w, i, choice, timely, -⟩ := slotFor_spec s' (frame' ▸ later) (frame' ▸ reach)
        have wf : WellFormed s' [info] := by
          have base : WellFormed s' [] := inv.wellFormed.congr slots (fun w => by rw [← stateEq]; rfl)
            (by rw [← stateEq]; rfl) (by omega)
          refine base.take_new (by omega) ?_
          rintro t (none | ⟨w, i, member⟩)
          · simp at none
          · have known := inv.wellFormed.known t (Or.inr ⟨w, i, slots w i ▸ member⟩)
            omega
        refine wp_mono (internalAddTimer_spec wf choice timely.inside) ?_ (fun _ => False.elim)
        intro _ t stored _
        have timelyHere : Timely s.vCurrentFrameIdx next w i info.expires := by
          rw [← frame']
          refine timely.mono ?_
          rw [frame', clock.frame]
          exact nextLe w
        refine ⟨inv.add idEq oneShot timelyHere slots frame' counter trace stored, ?_, ?_⟩
        · have same : SameClock s s' := by
            rw [← stateEq]
            exact ⟨rfl, rfl, fun _ => rfl, fun _ => rfl, rfl⟩
          exact clock.of_same (same.trans stored.clock)
        · intro x member
          rcases (stored.members 0 _ x).mp member with before | ⟨rfl, rfl, rfl⟩
          · exact current x (slots 0 _ ▸ before)
          · -- the slot of the current frame is the one of the current frame's expiries
            rw [clock.frame] at timelyHere later
            simp only [Timely] at timelyHere
            omega
      · refine wp_mono (remembers_of_grows (internalAddTimer_grows info) s') ?_ ?_
        · intro _ t back fineLater
          exact absurd (back fineLater) fine
        · intro t back fineLater
          exact fine (back fineLater)
  | remove id =>
      simp only [applyOp, wp_bind, wp_modify, wp_pure]
      have recorded : WellFormed (s.record (.removed id)) [] :=
        inv.wellFormed.congr (fun _ _ => rfl) (fun _ => rfl) rfl (Nat.le_refl _)
      refine wp_mono (removeTimer_spec recorded id) ?_ (fun _ => False.elim)
      intro _ t without _
      obtain ⟨m, matched⟩ := inv.matched
      have replays : Replays t.trace (m.drop id) := by
        rw [without.trace]
        exact matched.replays.snoc (.removed m id)
      refine ⟨?_, ?_, ?_⟩
      · exact inv.without without (fun _ _ => rfl) rfl rfl (fun _ h => h) (fun _ _ h => h) matched
          (m.drop id) rfl (fun _ h => h) (m.drop_waiting_self id) replays
          (fun k other => m.drop_waiting_other other)
      · exact clock.of_same
          ⟨without.clock.elapse, without.clock.frame, without.clock.index, without.clock.bound,
            without.clock.barrier⟩
      · intro x member
        exact current x ((without.members 0 _ x).mp member).1

end GameServer.Timer
