/-
Module: GameServer.Timer.Placement
Purpose: Where timers stand in the wheels: the table of timers and `v_index_slot_map` agree, and the
  slot a timer is put into is the one from which it comes out in time.
Trusted boundary: none
Main exports: wheelBound, slotSpan, Timely, slotFor_spec, WellFormed, WellFormed.store,
  removeTimer_spec, internalAddTimer_spec
-/
import Mathlib.Data.List.Nodup
import GameServer.Timer.Wheel

namespace GameServer.Timer

open Lib Lib.LuaM

variable {κ W : Type}

/-- The number of slots of a wheel. -/
def wheelBound : Fin 4 → Nat
  | 0 => wheelSize1
  | 1 => wheelSize2
  | 2 => wheelSize3
  | 3 => wheelSize4

/-- The frames between two uses of one slot after the other. -/
def slotSpan : Fin 4 → Nat
  | 0 => 1
  | 1 => wheelSize1
  | 2 => wheelSizeMul12
  | 3 => wheelSizeMul123

/-! ## Reading a state after an update

What a slot holds after each of the operations on slots, and that the operations leave the clock alone.
-/

namespace TimerState

variable (s : TimerState κ W)

/-- What the update of a slot or of the map leaves alone. -/
structure SameClock (s t : TimerState κ W) : Prop where
  elapse : t.vElapseTime = s.vElapseTime
  frame : t.vCurrentFrameIdx = s.vCurrentFrameIdx
  index : ∀ w, (t.vWheels w).index = (s.vWheels w).index
  bound : ∀ w, (t.vWheels w).bound = (s.vWheels w).bound
  barrier : t.innerBarrier = s.innerBarrier

theorem SameClock.refl : SameClock s s := ⟨rfl, rfl, fun _ => rfl, fun _ => rfl, rfl⟩

variable {s} in
theorem SameClock.trans {t u : TimerState κ W} (first : SameClock s t) (second : SameClock t u) :
    SameClock s u :=
  ⟨second.elapse.trans first.elapse, second.frame.trans first.frame,
    fun w => (second.index w).trans (first.index w),
    fun w => (second.bound w).trans (first.bound w), second.barrier.trans first.barrier⟩

/-- Setting a slot changes this slot alone. -/
theorem slot_setSlot (w w' : Fin 4) (i i' : Nat) (slot : List (TimerInfo κ)) :
    (s.setSlot w i slot).slot w' i' = if w' = w ∧ i' = i then slot else s.slot w' i' := by
  by_cases wheel : w' = w
  · subst wheel
    by_cases place : i' = i <;> simp [TimerState.slot, setSlot, setWheel, place]
  · simp [TimerState.slot, setSlot, setWheel, wheel]

theorem sameClock_setSlot (w : Fin 4) (i : Nat) (slot : List (TimerInfo κ)) :
    SameClock s (s.setSlot w i slot) := by
  refine ⟨rfl, rfl, fun w' => ?_, fun w' => ?_, rfl⟩ <;>
    by_cases wheel : w' = w <;> simp [setSlot, setWheel, wheel]

/-- Storing a timer puts it behind the others of its slot. -/
theorem slot_store (w w' : Fin 4) (i i' : Nat) (timer : TimerInfo κ) :
    (s.store w i timer).slot w' i' =
      if w' = w ∧ i' = i then (s.slot w i).filter (fun t => t.id ≠ timer.id) ++ [timer]
      else s.slot w' i' :=
  slot_setSlot s w w' i i' _

/-- Erasing a timer takes it out of one slot. -/
theorem slot_erase (w w' : Fin 4) (i i' : Nat) (id : Nat) :
    (s.erase w i id).slot w' i' =
      if w' = w ∧ i' = i then (s.slot w i).filter (fun t => t.id ≠ id) else s.slot w' i' :=
  slot_setSlot s w w' i i' _

theorem sameClock_store (w : Fin 4) (i : Nat) (timer : TimerInfo κ) :
    SameClock s (s.store w i timer) :=
  let same := sameClock_setSlot s w i _
  ⟨same.elapse, same.frame, same.index, same.bound, same.barrier⟩

theorem sameClock_erase (w : Fin 4) (i : Nat) (id : Nat) : SameClock s (s.erase w i id) :=
  let same := sameClock_setSlot s w i _
  ⟨same.elapse, same.frame, same.index, same.bound, same.barrier⟩

@[simp] theorem map_store (w : Fin 4) (i : Nat) (timer : TimerInfo κ) :
    (s.store w i timer).vIndexSlotMap =
      Function.update s.vIndexSlotMap timer.id (some (w, i)) := rfl

@[simp] theorem map_erase (w : Fin 4) (i : Nat) (id : Nat) :
    (s.erase w i id).vIndexSlotMap = Function.update s.vIndexSlotMap id none := rfl

@[simp] theorem trace_store (w : Fin 4) (i : Nat) (timer : TimerInfo κ) :
    (s.store w i timer).trace = s.trace := rfl

@[simp] theorem trace_erase (w : Fin 4) (i : Nat) (id : Nat) :
    (s.erase w i id).trace = s.trace := rfl

@[simp] theorem counter_store (w : Fin 4) (i : Nat) (timer : TimerInfo κ) :
    (s.store w i timer).timerCounter = s.timerCounter := rfl

@[simp] theorem counter_erase (w : Fin 4) (i : Nat) (id : Nat) :
    (s.erase w i id).timerCounter = s.timerCounter := rfl

end TimerState

open TimerState

/-! ## The slot of an expiry

A timer is well placed when its slot is gone through, or cascaded into a finer wheel, in time for its expiry.
-/

/-- A timer that expires in frame `e` stands well in slot `i` of wheel `w` at frame `frame`.  In the
first wheel that is the slot of the frame `e` itself, at most one revolution ahead.  In a higher wheel
it is the slot that is cascaded in the first frame of the span of `e`; that frame is not before
`next w`, the first frame in which the wheel can still be cascaded, and at most one revolution ahead. -/
def Timely (frame : Nat) (next : Fin 4 → Nat) : Fin 4 → Nat → Int → Prop
  | 0, i, e => (i : Int) = e % 200 ∧ frame ≤ e ∧ e < frame + 200
  | 1, i, e => (i : Int) = (e / 200 - 1) % 60 ∧ next 1 ≤ 200 * (e / 200) ∧
      200 * (e / 200) < frame + 12000
  | 2, i, e => (i : Int) = (e / 12000 - 1) % 60 ∧ next 2 ≤ 12000 * (e / 12000) ∧
      12000 * (e / 12000) < frame + 720000
  | 3, i, e => (i : Int) = (e / 720000 - 1) % 60 ∧ next 3 ≤ 720000 * (e / 720000) ∧
      720000 * (e / 720000) < frame + 43200000

/-- A timely slot is a slot of its wheel. -/
theorem Timely.inside {frame : Nat} {next : Fin 4 → Nat} {w : Fin 4} {i : Nat} {e : Int}
    (timely : Timely frame next w i e) : i < wheelBound w := by
  match w with
  | 0 => simp only [Timely] at timely; simp only [wheelBound, wheelSize1]; omega
  | 1 => simp only [Timely] at timely; simp only [wheelBound, wheelSize2]; omega
  | 2 => simp only [Timely] at timely; simp only [wheelBound, wheelSize3]; omega
  | 3 => simp only [Timely] at timely; simp only [wheelBound, wheelSize4]; omega

/-- Standing well does not depend on the wheels that a timer is not in, and less is asked when the
next cascade may come earlier. -/
theorem Timely.mono {frame : Nat} {next next' : Fin 4 → Nat} {w : Fin 4} {i : Nat} {e : Int}
    (timely : Timely frame next w i e) (earlier : next' w ≤ next w) : Timely frame next' w i e := by
  match w with
  | 0 => exact timely
  | 1 => simp only [Timely] at timely ⊢; omega
  | 2 => simp only [Timely] at timely ⊢; omega
  | 3 => simp only [Timely] at timely ⊢; omega

/-- A timer that expires after the current frame, within the reach of the wheels, gets a slot in which
it stands well, whatever the indices of the wheels are. -/
theorem slotFor_spec (s : TimerState κ W) {e : Int} (later : (s.vCurrentFrameIdx : Int) < e)
    (reach : e < s.vCurrentFrameIdx + 43200000) :
    ∃ w i, s.slotFor e = some (w, i) ∧
      Timely s.vCurrentFrameIdx (fun _ => s.vCurrentFrameIdx + 1) w i e ∧
      (slotSpan w : Int) ≤ e - s.vCurrentFrameIdx := by
  have sizes : (wheelSize1 : Int) = 200 ∧ (wheelSize2 : Int) = 60 ∧ (wheelSize3 : Int) = 60 ∧
      (wheelSize4 : Int) = 60 ∧ (wheelSizeMul12 : Int) = 12000 ∧ (wheelSizeMul123 : Int) = 720000 ∧
      (wheelSizeMul1234 : Int) = 43200000 := by
    decide
  obtain ⟨one, two, three, four, mul12, mul123, mul1234⟩ := sizes
  simp only [slotFor, one, two, three, four, mul12, mul123, mul1234]
  rw [if_neg (by omega)]
  by_cases first : e - s.vCurrentFrameIdx < 200
  · refine ⟨0, (e % 200).toNat, if_pos first, ?_, ?_⟩
    · simp only [Timely]
      omega
    · simp only [slotSpan]
      omega
  rw [if_neg first]
  by_cases second : e - s.vCurrentFrameIdx < 12000
  · refine ⟨1, ((e / 200 - 1) % 60).toNat, if_pos second, ?_, ?_⟩
    · simp only [Timely]
      omega
    · simp only [slotSpan, one]
      omega
  rw [if_neg second]
  by_cases third : e - s.vCurrentFrameIdx < 720000
  · refine ⟨2, ((e / 12000 - 1) % 60).toNat, if_pos third, ?_, ?_⟩
    · simp only [Timely]
      omega
    · simp only [slotSpan, mul12]
      omega
  rw [if_neg third, if_pos (by omega)]
  refine ⟨3, ((e / 720000 - 1) % 60).toNat, rfl, ?_, ?_⟩
  · simp only [Timely]
    omega
  · simp only [slotSpan, mul123]
    omega

/-! ## Slots and map agree

Each timer stands in one slot, the one `v_index_slot_map` names. While a slot is cascaded its timers are in hand: the
map still names the slot that they were taken from.
-/

/-- A timer stands in some slot. -/
def InWheels (s : TimerState κ W) (t : TimerInfo κ) : Prop := ∃ w i, t ∈ s.slot w i

/-- The slots and `v_index_slot_map` agree.  The timers in `hand` have been taken out of their slot
and are about to be stored again. -/
structure WellFormed (s : TimerState κ W) (hand : List (TimerInfo κ)) : Prop where
  bounds : ∀ w, (s.vWheels w).bound = wheelBound w
  inside : ∀ w i t, t ∈ s.slot w i → i < wheelBound w
  mapped : ∀ w i t, t ∈ s.slot w i → s.vIndexSlotMap t.id = some (w, i)
  distinct : ∀ w i, ((s.slot w i).map TimerInfo.id).Nodup
  found : ∀ id w i, s.vIndexSlotMap id = some (w, i) →
    (∃ t ∈ s.slot w i, t.id = id) ∨ ∃ t ∈ hand, t.id = id
  handDistinct : (hand.map TimerInfo.id).Nodup
  handAway : ∀ t ∈ hand, ∀ t', InWheels s t' → t'.id ≠ t.id
  known : ∀ t, t ∈ hand ∨ InWheels s t → t.id ≤ s.timerCounter

namespace WellFormed

variable {s : TimerState κ W} {hand : List (TimerInfo κ)}

/-- Two timers in the wheels with one id are one timer in one slot. -/
theorem same_place (wf : WellFormed s hand) {w w' : Fin 4} {i i' : Nat} {t t' : TimerInfo κ}
    (here : t ∈ s.slot w i) (there : t' ∈ s.slot w' i') (sameId : t'.id = t.id) :
    w' = w ∧ i' = i ∧ t' = t := by
  have place := (wf.mapped w' i' t' there).symm.trans (sameId ▸ wf.mapped w i t here)
  obtain ⟨rfl, rfl⟩ := Prod.mk.injEq _ _ _ _ ▸ Option.some.inj place
  exact ⟨rfl, rfl, List.inj_on_of_nodup_map (wf.distinct w' i') there here sameId⟩

/-- Empty wheels are well formed. -/
theorem init (world : W) : WellFormed (TimerState.init world : TimerState κ W) [] := by
  have empty : ∀ w i, (TimerState.init world : TimerState κ W).slot w i = [] := by
    intro w i
    match w with
    | 0 => rfl
    | 1 => rfl
    | 2 => rfl
    | 3 => rfl
  constructor
  · intro w
    match w with
    | 0 => rfl
    | 1 => rfl
    | 2 => rfl
    | 3 => rfl
  · intro w i t member
    simp [empty] at member
  · intro w i t member
    simp [empty] at member
  · intro w i
    simp [empty]
  · intro id w i there
    exact absurd there (by simp [TimerState.init])
  · simp
  · simp
  · rintro t (none | ⟨w, i, member⟩)
    · simp at none
    · simp [empty] at member

/-- Only the slots, the bounds, the map and the counter matter. -/
theorem congr {t : TimerState κ W} (wf : WellFormed s hand) (slots : ∀ w i, t.slot w i = s.slot w i)
    (bounds : ∀ w, (t.vWheels w).bound = (s.vWheels w).bound)
    (map : t.vIndexSlotMap = s.vIndexSlotMap) (counter : s.timerCounter ≤ t.timerCounter) :
    WellFormed t hand := by
  constructor
  · intro w
    rw [bounds]
    exact wf.bounds w
  · intro w i x member
    exact wf.inside w i x (slots w i ▸ member)
  · intro w i x member
    rw [map]
    exact wf.mapped w i x (slots w i ▸ member)
  · intro w i
    rw [slots]
    exact wf.distinct w i
  · intro id w i there
    rw [slots]
    exact wf.found id w i (map ▸ there)
  · exact wf.handDistinct
  · rintro x member x' ⟨w, i, there⟩
    exact wf.handAway x member x' ⟨w, i, slots w i ▸ there⟩
  · rintro x (inHand | ⟨w, i, there⟩)
    · exact Nat.le_trans (wf.known x (Or.inl inHand)) counter
    · exact Nat.le_trans (wf.known x (Or.inr ⟨w, i, slots w i ▸ there⟩)) counter

/-- A timer in hand is in no slot, so storing it only adds it. -/
theorem mem_store {timer : TimerInfo κ} (wf : WellFormed s (timer :: hand)) (w : Fin 4) (i : Nat)
    {w' : Fin 4} {i' : Nat} {x : TimerInfo κ} :
    x ∈ (s.store w i timer).slot w' i' ↔
      x ∈ s.slot w' i' ∨ (w' = w ∧ i' = i ∧ x = timer) := by
  rw [slot_store]
  by_cases place : w' = w ∧ i' = i
  · obtain ⟨rfl, rfl⟩ := place
    have stays : ∀ x ∈ s.slot w' i', x.id ≠ timer.id := fun x member =>
      wf.handAway timer (List.mem_cons_self ..) x ⟨w', i', member⟩
    simp only [and_self, if_true, List.mem_append, List.mem_filter, List.mem_singleton,
      decide_not, Bool.not_eq_true', decide_eq_false_iff_not, true_and]
    constructor
    · rintro (⟨member, -⟩ | same)
      · exact Or.inl member
      · exact Or.inr same
    · rintro (member | same)
      · exact Or.inl ⟨member, stays x member⟩
      · exact Or.inr same
  · rw [if_neg place]
    constructor
    · intro member
      exact Or.inl member
    · rintro (member | ⟨wheel, index, -⟩)
      · exact member
      · exact absurd ⟨wheel, index⟩ place

/-- A stored timer is in the wheels, with those that were. -/
theorem inWheels_store {timer : TimerInfo κ} (wf : WellFormed s (timer :: hand)) (w : Fin 4) (i : Nat)
    {x : TimerInfo κ} : InWheels (s.store w i timer) x ↔ InWheels s x ∨ x = timer := by
  constructor
  · rintro ⟨w', i', member⟩
    rcases (wf.mem_store w i).mp member with before | ⟨-, -, same⟩
    · exact Or.inl ⟨w', i', before⟩
    · exact Or.inr same
  · rintro (⟨w', i', before⟩ | same)
    · exact ⟨w', i', (wf.mem_store w i).mpr (Or.inl before)⟩
    · exact ⟨w, i, (wf.mem_store w i).mpr (Or.inr ⟨rfl, rfl, same⟩)⟩

/-- Storing a timer that is in hand. -/
theorem store {timer : TimerInfo κ} (wf : WellFormed s (timer :: hand)) {w : Fin 4} {i : Nat}
    (bounded : i < wheelBound w) : WellFormed (s.store w i timer) hand := by
  have handNodup := List.nodup_cons.mp (List.map_cons (f := TimerInfo.id) ▸ wf.handDistinct)
  have otherHand : ∀ t ∈ hand, t.id ≠ timer.id := by
    intro t member same
    exact handNodup.1 (same ▸ List.mem_map_of_mem member)
  constructor
  · intro w'
    rw [(sameClock_store s w i timer).bound]
    exact wf.bounds w'
  · intro w' i' x member
    rcases (wf.mem_store w i).mp member with before | ⟨rfl, rfl, -⟩
    · exact wf.inside w' i' x before
    · exact bounded
  · intro w' i' x member
    rw [map_store]
    rcases (wf.mem_store w i).mp member with before | ⟨rfl, rfl, rfl⟩
    · have other : x.id ≠ timer.id :=
        wf.handAway timer (List.mem_cons_self ..) x ⟨w', i', before⟩
      rw [Function.update_of_ne other]
      exact wf.mapped w' i' x before
    · exact Function.update_self ..
  · intro w' i'
    rw [slot_store]
    split
    · rw [List.map_append, List.nodup_append]
      refine ⟨((List.filter_sublist).map _).nodup (wf.distinct w i), by simp, ?_⟩
      intro a member b isTimer
      obtain ⟨x, inside, rfl⟩ := List.mem_map.mp member
      simp only [List.map_cons, List.map_nil, List.mem_singleton] at isTimer
      subst isTimer
      simpa using (List.mem_filter.mp inside).2
    · exact wf.distinct w' i'
  · intro id w' i' there
    rw [map_store] at there
    by_cases same : id = timer.id
    · subst same
      rw [Function.update_self] at there
      obtain ⟨rfl, rfl⟩ := Prod.mk.injEq _ _ _ _ ▸ Option.some.inj there
      exact Or.inl ⟨timer, (wf.mem_store w i).mpr (Or.inr ⟨rfl, rfl, rfl⟩), rfl⟩
    · rw [Function.update_of_ne same] at there
      rcases wf.found id w' i' there with ⟨x, member, rfl⟩ | ⟨x, member, rfl⟩
      · exact Or.inl ⟨x, (wf.mem_store w i).mpr (Or.inl member), rfl⟩
      · rcases List.mem_cons.mp member with rfl | inHand
        · exact absurd rfl same
        · exact Or.inr ⟨x, inHand, rfl⟩
  · exact handNodup.2
  · intro t member x there
    rcases (wf.inWheels_store w i).mp there with before | rfl
    · exact wf.handAway t (List.mem_cons_of_mem _ member) x before
    · exact (otherHand t member).symm
  · rintro x (inHand | there)
    · exact wf.known x (Or.inl (List.mem_cons_of_mem _ inHand))
    · rcases (wf.inWheels_store w i).mp there with before | rfl
      · exact wf.known x (Or.inr before)
      · exact wf.known x (Or.inl (List.mem_cons_self ..))

/-- Erasing a timer where the map says it is takes exactly that timer out of the wheels. -/
theorem mem_erase (wf : WellFormed s hand) {id : Nat} {w : Fin 4} {i : Nat}
    (there : s.vIndexSlotMap id = some (w, i)) {w' : Fin 4} {i' : Nat} {x : TimerInfo κ} :
    x ∈ (s.erase w i id).slot w' i' ↔ x ∈ s.slot w' i' ∧ x.id ≠ id := by
  rw [slot_erase]
  by_cases place : w' = w ∧ i' = i
  · obtain ⟨rfl, rfl⟩ := place
    simp
  · rw [if_neg place]
    constructor
    · intro member
      refine ⟨member, fun same => place ?_⟩
      have mapped := wf.mapped w' i' x member
      rw [same, there] at mapped
      obtain ⟨rfl, rfl⟩ := Prod.mk.injEq _ _ _ _ ▸ Option.some.inj mapped
      exact ⟨rfl, rfl⟩
    · exact fun member => member.1

/-- Taking a timer out keeps slots and map in agreement. -/
theorem erase (wf : WellFormed s []) {id : Nat} {w : Fin 4} {i : Nat}
    (there : s.vIndexSlotMap id = some (w, i)) : WellFormed (s.erase w i id) [] := by
  constructor
  · intro w'
    rw [(sameClock_erase s w i id).bound]
    exact wf.bounds w'
  · intro w' i' x member
    exact wf.inside w' i' x ((wf.mem_erase there).mp member).1
  · intro w' i' x member
    obtain ⟨before, other⟩ := (wf.mem_erase there).mp member
    rw [map_erase, Function.update_of_ne other]
    exact wf.mapped w' i' x before
  · intro w' i'
    rw [slot_erase]
    split
    · exact ((List.filter_sublist).map _).nodup (wf.distinct w i)
    · exact wf.distinct w' i'
  · intro k w' i' isThere
    rw [map_erase] at isThere
    by_cases same : k = id
    · subst same
      rw [Function.update_self] at isThere
      exact absurd isThere (by simp)
    · rw [Function.update_of_ne same] at isThere
      rcases wf.found k w' i' isThere with ⟨x, member, rfl⟩ | ⟨x, member, rfl⟩
      · exact Or.inl ⟨x, (wf.mem_erase there).mpr ⟨member, same⟩, rfl⟩
      · simp at member
  · simp
  · simp
  · rintro x (inHand | ⟨w', i', member⟩)
    · simp at inHand
    · exact wf.known x (Or.inr ⟨w', i', ((wf.mem_erase there).mp member).1⟩)

/-- A timer with an id that was never given out can be taken in hand. -/
theorem take_new (wf : WellFormed s hand) {timer : TimerInfo κ} (known : timer.id ≤ s.timerCounter)
    (new : ∀ t, t ∈ hand ∨ InWheels s t → t.id ≠ timer.id) : WellFormed s (timer :: hand) where
  bounds := wf.bounds
  inside := wf.inside
  mapped := wf.mapped
  distinct := wf.distinct
  found id w i there := (wf.found id w i there).imp_right fun ⟨t, member, same⟩ =>
    ⟨t, List.mem_cons_of_mem _ member, same⟩
  handDistinct := by
    rw [List.map_cons, List.nodup_cons]
    refine ⟨fun member => ?_, wf.handDistinct⟩
    obtain ⟨t, inHand, same⟩ := List.mem_map.mp member
    exact new t (Or.inl inHand) same
  handAway t member x there := by
    rcases List.mem_cons.mp member with rfl | inHand
    · exact new x (Or.inr there)
    · exact wf.handAway t inHand x there
  known t there := by
    rcases there with member | inWheels
    · rcases List.mem_cons.mp member with rfl | inHand
      · exact known
      · exact wf.known t (Or.inl inHand)
    · exact wf.known t (Or.inr inWheels)

/-- The timers of a slot can be taken in hand. -/
theorem take_slot (wf : WellFormed s []) (w : Fin 4) (i : Nat) (perm : hand.Perm (s.slot w i)) :
    WellFormed (s.setSlot w i []) hand := by
  have away : ∀ w' i' x, x ∈ (s.setSlot w i []).slot w' i' ↔
      x ∈ s.slot w' i' ∧ ¬ (w' = w ∧ i' = i) := by
    intro w' i' x
    rw [slot_setSlot]
    split <;> simp_all
  constructor
  · intro w'
    rw [(sameClock_setSlot s w i []).bound]
    exact wf.bounds w'
  · intro w' i' x member
    exact wf.inside w' i' x ((away w' i' x).mp member).1
  · intro w' i' x member
    exact wf.mapped w' i' x ((away w' i' x).mp member).1
  · intro w' i'
    rw [slot_setSlot]
    split
    · simp
    · exact wf.distinct w' i'
  · intro id w' i' there
    obtain ⟨x, member, sameId⟩ := (wf.found id w' i' there).resolve_right (by simp)
    by_cases place : w' = w ∧ i' = i
    · obtain ⟨rfl, rfl⟩ := place
      exact Or.inr ⟨x, perm.mem_iff.mpr member, sameId⟩
    · exact Or.inl ⟨x, (away w' i' x).mpr ⟨member, place⟩, sameId⟩
  · exact (perm.map TimerInfo.id).nodup_iff.mpr (wf.distinct w i)
  · rintro x member x' ⟨w', i', there⟩ same
    obtain ⟨before, other⟩ := (away w' i' x').mp there
    obtain ⟨wheel, index, -⟩ := wf.same_place (perm.mem_iff.mp member) before same
    exact other ⟨wheel, index⟩
  · rintro x (inHand | ⟨w', i', there⟩)
    · exact wf.known x (Or.inr ⟨w, i, perm.mem_iff.mp inHand⟩)
    · exact wf.known x (Or.inr ⟨w', i', ((away w' i' x).mp there).1⟩)

end WellFormed

/-! ## The operations

What `_internal_add_timer` and `remove_timer` do to the slots.
-/

/-- `t` is `s` without the timer `id`. -/
structure Without (s : TimerState κ W) (id : Nat) (t : TimerState κ W) : Prop where
  wellFormed : WellFormed t []
  clock : SameClock s t
  members : ∀ w i x, x ∈ t.slot w i ↔ x ∈ s.slot w i ∧ x.id ≠ id
  trace : t.trace = s.trace
  counter : t.timerCounter = s.timerCounter
  world : t.world = s.world

theorem Without.inWheels {s t : TimerState κ W} {id : Nat} (without : Without s id t)
    {x : TimerInfo κ} : InWheels t x ↔ InWheels s x ∧ x.id ≠ id := by
  constructor
  · rintro ⟨w, i, member⟩
    obtain ⟨before, other⟩ := (without.members w i x).mp member
    exact ⟨⟨w, i, before⟩, other⟩
  · rintro ⟨⟨w, i, before⟩, other⟩
    exact ⟨w, i, (without.members w i x).mpr ⟨before, other⟩⟩

/-- `remove_timer` takes the timer with that id out, and nothing else; it never raises. -/
theorem removeTimer_spec {s : TimerState κ W} (wf : WellFormed s []) (id : Nat) :
    wp (removeTimer id) (fun _ t => Without s id t) (fun _ => False) s := by
  simp only [removeTimer, wp_bind, wp_get]
  cases there : s.vIndexSlotMap id with
  | none =>
      refine ⟨wf, SameClock.refl s, fun w i x => ⟨fun member => ⟨member, ?_⟩, And.left⟩, rfl, rfl, rfl⟩
      rintro rfl
      exact absurd ((wf.mapped w i x member).symm.trans there) (by simp)
  | some place =>
      obtain ⟨w, i⟩ := place
      simp only [wp_bind, wp_modify, wp_pure]
      exact ⟨wf.erase there, sameClock_erase s w i id, fun _ _ _ => wf.mem_erase there, rfl, rfl, rfl⟩

/-- `t` is `s` with the timer put into slot `i` of wheel `w`. -/
structure Stored (s : TimerState κ W) (hand : List (TimerInfo κ)) (timer : TimerInfo κ) (w : Fin 4)
    (i : Nat) (t : TimerState κ W) : Prop where
  wellFormed : WellFormed t hand
  clock : SameClock s t
  members : ∀ w' i' x, x ∈ t.slot w' i' ↔ x ∈ s.slot w' i' ∨ (w' = w ∧ i' = i ∧ x = timer)
  trace : t.trace = s.trace
  counter : t.timerCounter = s.timerCounter
  state : t = s.store w i timer

theorem Stored.inWheels {s t : TimerState κ W} {hand : List (TimerInfo κ)} {timer : TimerInfo κ}
    {w : Fin 4} {i : Nat} (stored : Stored s hand timer w i t) {x : TimerInfo κ} :
    InWheels t x ↔ InWheels s x ∨ x = timer := by
  constructor
  · rintro ⟨w', i', member⟩
    rcases (stored.members w' i' x).mp member with before | ⟨-, -, same⟩
    · exact Or.inl ⟨w', i', before⟩
    · exact Or.inr same
  · rintro (⟨w', i', before⟩ | same)
    · exact ⟨w', i', (stored.members w' i' x).mpr (Or.inl before)⟩
    · exact ⟨w, i, (stored.members w i x).mpr (Or.inr ⟨rfl, rfl, same⟩)⟩

/-- `_internal_add_timer` puts a timer in hand into the slot chosen for it. -/
theorem internalAddTimer_spec {s : TimerState κ W} {hand : List (TimerInfo κ)}
    {timer : TimerInfo κ} (wf : WellFormed s (timer :: hand)) {w : Fin 4} {i : Nat}
    (choice : s.slotFor timer.expires = some (w, i)) (bounded : i < wheelBound w) :
    wp (internalAddTimer timer) (fun _ t => Stored s hand timer w i t) (fun _ => False) s := by
  simp only [internalAddTimer, wp_bind, wp_get, choice, wf.bounds, if_pos bounded, wp_modify]
  exact ⟨wf.store bounded, sameClock_store s w i timer, fun _ _ _ => wf.mem_store w i, rfl, rfl, rfl⟩

end GameServer.Timer
