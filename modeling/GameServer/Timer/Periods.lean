/-
Module: GameServer.Timer.Periods
Purpose: The timing wheel with periods that need not be whole frames, as `add_timer` keeps them; and that with whole
  periods it does, call by call, what the wheel of `Timer.Wheel` does.
Trusted boundary: as in `Timer.Wheel`; an expiry between two frames is divided by the size of a wheel exactly
Main exports: AnyPeriod.TimerState, AnyPeriod.internalAddTimer, AnyPeriod.update, TimerState.ofWhole, TimerEnv.Whole,
  applyCall_ofWhole, foldl_ofWhole
-/
import Mathlib.Data.Rat.Floor
import GameServer.Timer.UpdateLoop

namespace GameServer.Timer.AnyPeriod

open Lib Lib.LuaM
open Arithmetic (rounding)

/-! ## State

`add_timer` rounds the time to the expiry down to whole frames, but not the period: a timer that is put in again behind
its callback can expire within a frame.
-/

/-- A timer.  `expires` and `cycle` count frames. -/
structure TimerInfo (κ : Type) where
  id : Nat
  expires : ℚ
  callback : κ
  cycle : ℚ

structure Wheel (κ : Type) where
  slots : Nat → List (TimerInfo κ)
  index : Nat
  bound : Nat

/-- `_create_wheel`. -/
def createWheel (κ : Type) (scale : Nat) : Wheel κ where
  slots _ := []
  index := 0
  bound := scale

/-- The timer object; the history, which no function reads, has expiries and periods in whole frames. -/
structure TimerState (κ W : Type) where
  vElapseTime : ℚ
  vCurrentFrameIdx : Nat
  vWheels : Fin 4 → Wheel κ
  vIndexSlotMap : Nat → Option (Fin 4 × Nat)
  timerCounter : Nat
  innerBarrier : Bool
  world : W
  trace : List TimerEvent

variable {κ W : Type}

/-- `_init`, with the locals as the file sets them. -/
def TimerState.init (world : W) : TimerState κ W where
  vElapseTime := 0
  vCurrentFrameIdx := 0
  vWheels := fun
    | 0 => createWheel κ wheelSize1
    | 1 => createWheel κ wheelSize2
    | 2 => createWheel κ wheelSize3
    | 3 => createWheel κ wheelSize4
  vIndexSlotMap _ := none
  timerCounter := 1
  innerBarrier := false
  world := world
  trace := []

/-- `a % b`. -/
def luaMod (a b : ℚ) : ℚ := a - ⌊a / b⌋ * b

namespace TimerState

/-- The slot `v_wheels[w + 1][i]`. -/
def slot (s : TimerState κ W) (w : Fin 4) (i : Nat) : List (TimerInfo κ) := (s.vWheels w).slots i

def setWheel (s : TimerState κ W) (w : Fin 4) (wheel : Wheel κ) : TimerState κ W :=
  { s with vWheels := Function.update s.vWheels w wheel }

def setSlot (s : TimerState κ W) (w : Fin 4) (i : Nat) (slot : List (TimerInfo κ)) : TimerState κ W :=
  s.setWheel w { s.vWheels w with slots := Function.update (s.vWheels w).slots i slot }

def setIndex (s : TimerState κ W) (w : Fin 4) (index : Nat) : TimerState κ W :=
  s.setWheel w { s.vWheels w with index := index }

def setMap (s : TimerState κ W) (id : Nat) (place : Option (Fin 4 × Nat)) : TimerState κ W :=
  { s with vIndexSlotMap := Function.update s.vIndexSlotMap id place }

def record (s : TimerState κ W) (event : TimerEvent) : TimerState κ W :=
  { s with trace := s.trace ++ [event] }

/-- `slot[timer.id] = timer` and `self.v_index_slot_map[timer.id] = slot`. -/
def store (s : TimerState κ W) (w : Fin 4) (i : Nat) (timer : TimerInfo κ) : TimerState κ W :=
  (s.setSlot w i ((s.slot w i).filter (fun t => t.id ≠ timer.id) ++ [timer])).setMap timer.id (some (w, i))

/-- `slot[index] = nil` and `self.v_index_slot_map[index] = nil`. -/
def erase (s : TimerState κ W) (w : Fin 4) (i : Nat) (id : Nat) : TimerState κ W :=
  (s.setSlot w i ((s.slot w i).filter fun t => t.id ≠ id)).setMap id none

/-- The key by which `_internal_add_timer` looks a slot up, or none for a timer that is too long.  In the first wheel it
is whole only if the expiry is; in the others the expiry is rounded down. -/
def slotFor (s : TimerState κ W) (expires : ℚ) : Option (Fin 4 × ℚ) :=
  let idx := expires - s.vCurrentFrameIdx
  if idx ≤ 0 then
    let wheelIdx := (s.vWheels 0).index
    some (0, if s.innerBarrier then ((wheelIdx + 1) % wheelSize1 : Nat) else wheelIdx)
  else if idx < wheelSize1 then
    some (0, luaMod expires wheelSize1)
  else if idx < wheelSizeMul12 then
    some (1, luaMod (⌊expires / wheelSize1⌋ - 1) wheelSize2)
  else if idx < wheelSizeMul123 then
    some (2, luaMod (⌊expires / wheelSizeMul12⌋ - 1) wheelSize3)
  else if idx < wheelSizeMul1234 then
    some (3, luaMod (⌊expires / wheelSizeMul123⌋ - 1) wheelSize4)
  else
    none

end TimerState

/-! ## Functions

As in `Timer.Wheel`, with rational expiries and periods.
-/

/-- `_internal_add_timer`.  A key that is no index of the wheel gives no slot, and writing to it raises. -/
def internalAddTimer (timer : TimerInfo κ) : LuaM (TimerState κ W) Unit := do
  let s ← get
  match s.slotFor timer.expires with
  | none => pure ()
  | some (w, key) =>
      if key = ⌊key⌋₊ ∧ ⌊key⌋₊ < (s.vWheels w).bound then modify fun s => s.store w ⌊key⌋₊ timer else raise

/-- `remove_timer`. -/
def removeTimer (index : Nat) : LuaM (TimerState κ W) Bool := do
  let s ← get
  match s.vIndexSlotMap index with
  | some (w, i) => do
      modify fun s => s.erase w i index
      return true
  | none => return false

/-- What code outside `timer.lua` does to the wheel; `cycle` is a time, as `expires` is. -/
inductive TimerOp (κ : Type) where
  | add (expires : ℚ) (cb : κ) (cycle : ℚ)
  | remove (index : Nat)

/-- One call of a callback. -/
structure CallbackRun (κ W : Type) where
  world : W
  ops : List (TimerOp κ)
  result : Option Bool

/-- The callbacks, and the order in which `pairs` goes through a table. -/
structure TimerEnv (κ W : Type) where
  callback : κ → Nat → TimerState κ W → CallbackRun κ W
  pairs : TimerState κ W → List (TimerInfo κ) → List (TimerInfo κ)
  pairs_perm : ∀ s slot, (pairs s slot).Perm slot

/-- A call from outside. -/
inductive TimerCall (κ : Type) where
  | update (elapse : ℚ)
  | op (op : TimerOp κ)

section Functions

variable [Arithmetic]

/-- `timer.expires + timer.cycle`.  Whole numbers of frames have fewer than 53 bits, so that their sum is not rounded. -/
def TimerInfo.next (timer : TimerInfo κ) : ℚ :=
  if timer.expires = ⌊timer.expires⌋ ∧ timer.cycle = ⌊timer.cycle⌋ then timer.expires + timer.cycle
  else rounding.add timer.expires timer.cycle

/-- The table `info` of `add_timer`. -/
def newInfo (s : TimerState κ W) (expires : ℚ) (cb : κ) (cycle : ℚ) : TimerInfo κ where
  id := s.timerCounter
  expires := framesUntil expires s.vElapseTime + s.vCurrentFrameIdx
  callback := cb
  cycle := rounding.mul cycle frameRate

/-- `add_timer`. -/
def addTimer (expires : ℚ) (cb : κ) (cycle : ℚ) : LuaM (TimerState κ W) Nat := do
  modify fun s => { s with timerCounter := s.timerCounter + 1 }
  let s ← get
  let info := newInfo s expires cb cycle
  modify fun s => s.record (.added info.id ⌊info.expires⌋ s.vCurrentFrameIdx ⌊info.cycle⌋)
  internalAddTimer info
  return s.timerCounter

def applyOp : TimerOp κ → LuaM (TimerState κ W) Unit
  | .add expires cb cycle => do
      let _ ← addTimer expires cb cycle
  | .remove index => do
      modify fun s => s.record (.removed index)
      let _ ← removeTimer index

variable (env : TimerEnv κ W)

/-- `timer.callback(timer.arg1, timer.arg2, timer.id)` between the two settings of `INNER_BARRIER`. -/
def callTimer (timer : TimerInfo κ) : LuaM (TimerState κ W) Bool := do
  modify fun s => { s with innerBarrier := true }
  modify fun s => s.record (.started timer.id s.vCurrentFrameIdx)
  let s ← get
  let run := env.callback timer.callback timer.id s
  modify fun s => { s with world := run.world }
  forEach applyOp run.ops
  match run.result with
  | none => do
      modify fun s => s.record (.raised timer.id)
      raise
  | some result => do
      modify fun s => { s with innerBarrier := false }
      return result

/-- `cascade_timers` of wheel `w`. -/
def cascadeTimers (w : Fin 4) : LuaM (TimerState κ W) Unit := do
  let s ← get
  let index := (s.vWheels w).index
  if index < (s.vWheels w).bound then do
    forEach internalAddTimer (env.pairs s (s.slot w index))
    modify fun s => s.setSlot w index []
    modify fun s => s.setIndex w ((s.vWheels w).index + 1)
  else
    raise

/-- The inner `while` of `update`, at wheel `w` with the wheels behind it. -/
def cascade : List (Fin 4) → Fin 4 → LuaM (TimerState κ W) Unit
  | [], w => do
      let s ← get
      if (s.vWheels w).index ≥ (s.vWheels w).bound then do
        modify fun s => s.setIndex w 0
        raise
      else
        pure ()
  | next :: behind, w => do
      let s ← get
      if (s.vWheels w).index ≥ (s.vWheels w).bound then do
        modify fun s => s.setIndex w 0
        cascadeTimers env next
        cascade behind next
      else
        pure ()

/-- The body of the `for` loop of `update` for the timer id `idx`. -/
def fireTimer (wheelIndex : Nat) (idx : Nat) : LuaM (TimerState κ W) Unit := do
  let s ← get
  match (s.slot 0 wheelIndex).find? fun t => t.id = idx with
  | none => pure ()
  | some timer => do
      let result ← callTimer env timer
      let _ ← removeTimer idx
      if timer.cycle > 0 ∧ result then
        internalAddTimer { timer with expires := timer.next }
      else
        pure ()

/-- The `for` loop over the slot, and the end of the frame. -/
def fireSlot : LuaM (TimerState κ W) Unit := do
  let s ← get
  let wheelIndex := (s.vWheels 0).index
  if wheelIndex < (s.vWheels 0).bound then do
    forEach (fireTimer env wheelIndex) ((env.pairs s (s.slot 0 wheelIndex)).map TimerInfo.id)
    modify fun s => s.record (.frameDone s.vCurrentFrameIdx)
    modify fun s => { s with vCurrentFrameIdx := s.vCurrentFrameIdx + 1 }
    modify fun s => s.setIndex 0 ((s.vWheels 0).index + 1)
  else
    raise

/-- One turn of the outer `while` of `update`. -/
def updateFrame : LuaM (TimerState κ W) Unit := do
  modify fun s => { s with vElapseTime := rounding.sub s.vElapseTime secondPerFrame }
  modify fun s => s.record (.frame s.vCurrentFrameIdx)
  cascade env [1, 2, 3] 0
  fireSlot env

/-- The outer `while` of `update`, for at most the given number of turns. -/
def updateLoop : Nat → LuaM (TimerState κ W) Unit
  | 0 => pure ()
  | turns + 1 => do
      let s ← get
      if s.vElapseTime > secondPerFrame then do
        updateFrame env
        updateLoop turns
      else
        pure ()

/-- `update`. -/
def update (elapse : ℚ) : LuaM (TimerState κ W) Unit := do
  modify fun s => { s with vElapseTime := rounding.add s.vElapseTime elapse }
  let s ← get
  updateLoop env (turnsFor s.vElapseTime)

def applyCall : TimerCall κ → LuaM (TimerState κ W) Unit
  | .update elapse => update env elapse
  | .op op => applyOp op

/-- A call may raise; the next one starts in the state that is left. -/
def stateAfter (s : TimerState κ W) (call : TimerCall κ) : TimerState κ W := (exec (applyCall env call) s).2

end Functions

/-! ## States with whole periods

A state of `Timer.Wheel` is a state of this wheel in which every expiry and every period is whole.
-/

def TimerInfo.ofWhole (timer : Timer.TimerInfo κ) : TimerInfo κ where
  id := timer.id
  expires := timer.expires
  callback := timer.callback
  cycle := timer.cycle

/-- The timer with its expiry and its period rounded down. -/
def TimerInfo.floor (timer : TimerInfo κ) : Timer.TimerInfo κ where
  id := timer.id
  expires := ⌊timer.expires⌋
  callback := timer.callback
  cycle := ⌊timer.cycle⌋

@[simp]
theorem TimerInfo.floor_ofWhole (timer : Timer.TimerInfo κ) : (ofWhole timer).floor = timer := by
  simp only [floor, ofWhole, Int.floor_intCast]

@[simp]
theorem TimerInfo.map_floor_map_ofWhole (slot : List (Timer.TimerInfo κ)) :
    (slot.map ofWhole).map floor = slot := by
  have inverse : floor ∘ ofWhole = fun timer : Timer.TimerInfo κ => timer := funext floor_ofWhole
  rw [List.map_map, inverse, List.map_id']

def Wheel.ofWhole (wheel : Timer.Wheel κ) : Wheel κ where
  slots i := (wheel.slots i).map TimerInfo.ofWhole
  index := wheel.index
  bound := wheel.bound

namespace TimerState

def ofWhole (s : Timer.TimerState κ W) : TimerState κ W where
  vElapseTime := s.vElapseTime
  vCurrentFrameIdx := s.vCurrentFrameIdx
  vWheels w := Wheel.ofWhole (s.vWheels w)
  vIndexSlotMap := s.vIndexSlotMap
  timerCounter := s.timerCounter
  innerBarrier := s.innerBarrier
  world := s.world
  trace := s.trace

/-- New wheels are the image of new wheels. -/
theorem ofWhole_init (world : W) : ofWhole (Timer.TimerState.init world : Timer.TimerState κ W) = init world := by
  unfold ofWhole init Timer.TimerState.init
  congr 1
  funext w
  fin_cases w <;> rfl

variable (s : Timer.TimerState κ W)

theorem slot_ofWhole (w : Fin 4) (i : Nat) : (ofWhole s).slot w i = (s.slot w i).map TimerInfo.ofWhole := rfl

theorem setWheel_ofWhole (w : Fin 4) (wheel : Timer.Wheel κ) :
    (ofWhole s).setWheel w (Wheel.ofWhole wheel) = ofWhole (s.setWheel w wheel) := by
  have wheels : Function.update (ofWhole s).vWheels w (Wheel.ofWhole wheel) =
      fun v => Wheel.ofWhole (Function.update s.vWheels w wheel v) :=
    (Function.comp_update Wheel.ofWhole s.vWheels w wheel).symm
  unfold setWheel
  rw [wheels]
  rfl

theorem setSlot_ofWhole (w : Fin 4) (i : Nat) (slot : List (Timer.TimerInfo κ)) :
    (ofWhole s).setSlot w i (slot.map TimerInfo.ofWhole) = ofWhole (s.setSlot w i slot) := by
  have slots : Function.update ((ofWhole s).vWheels w).slots i (slot.map TimerInfo.ofWhole) =
      fun j => (Function.update (s.vWheels w).slots i slot j).map TimerInfo.ofWhole :=
    (Function.comp_update (List.map TimerInfo.ofWhole) (s.vWheels w).slots i slot).symm
  unfold setSlot
  rw [slots]
  exact setWheel_ofWhole s w { s.vWheels w with slots := Function.update (s.vWheels w).slots i slot }

theorem setIndex_ofWhole (w : Fin 4) (index : Nat) : (ofWhole s).setIndex w index = ofWhole (s.setIndex w index) :=
  setWheel_ofWhole s w { s.vWheels w with index := index }

theorem filter_id_ofWhole (slot : List (Timer.TimerInfo κ)) (id : Nat) :
    (slot.map TimerInfo.ofWhole).filter (fun t => t.id ≠ id) = (slot.filter fun t => t.id ≠ id).map TimerInfo.ofWhole :=
  List.filter_map ..

theorem store_ofWhole (w : Fin 4) (i : Nat) (timer : Timer.TimerInfo κ) :
    (ofWhole s).store w i (TimerInfo.ofWhole timer) = ofWhole (s.store w i timer) := by
  have slot := setSlot_ofWhole s w i ((s.slot w i).filter (fun t => t.id ≠ timer.id) ++ [timer])
  rw [List.map_append, ← filter_id_ofWhole] at slot
  unfold store Timer.TimerState.store
  rw [slot_ofWhole]
  exact congrArg (fun t => setMap t timer.id (some (w, i))) slot

theorem erase_ofWhole (w : Fin 4) (i id : Nat) : (ofWhole s).erase w i id = ofWhole (s.erase w i id) := by
  have slot := setSlot_ofWhole s w i ((s.slot w i).filter fun t => t.id ≠ id)
  rw [← filter_id_ofWhole] at slot
  unfold erase Timer.TimerState.erase
  rw [slot_ofWhole]
  exact congrArg (fun t => setMap t id none) slot

end TimerState

/-- For whole numbers `%` is the remainder. -/
theorem luaMod_natCast (a : ℤ) {b : ℕ} (positive : 0 < b) : luaMod a b = ((a % b).toNat : ℕ) := by
  have rest : ((a % b).toNat : ℤ) = a % b := Int.toNat_of_nonneg (Int.emod_nonneg a (by omega))
  have split : a % b = a - a / b * b := by rw [Int.emod_def, mul_comm]
  rw [luaMod, Rat.floor_intCast_div_natCast, ← Int.cast_natCast (a % b).toNat, rest, split]
  push_cast
  rfl

/-- The key is that of the slot which `Timer.Wheel` chooses. -/
theorem slotFor_ofWhole (s : Timer.TimerState κ W) (expires : Int) :
    (TimerState.ofWhole s).slotFor expires = (s.slotFor expires).map fun place => (place.1, (place.2 : ℚ)) := by
  have idx : (expires : ℚ) - (s.vCurrentFrameIdx : ℕ) = ((expires - s.vCurrentFrameIdx : ℤ) : ℚ) := by push_cast; rfl
  have nonpos : ((expires - s.vCurrentFrameIdx : ℤ) : ℚ) ≤ 0 ↔ expires - s.vCurrentFrameIdx ≤ 0 := by norm_cast
  have below : ∀ n : ℕ, ((expires - s.vCurrentFrameIdx : ℤ) : ℚ) < n ↔ expires - s.vCurrentFrameIdx < n :=
    fun n => by norm_cast
  have floored : ∀ n : ℕ, (⌊(expires : ℚ) / n⌋ : ℚ) - 1 = ((expires / n - 1 : ℤ) : ℚ) := fun n => by
    rw [Rat.floor_intCast_div_natCast]; push_cast; rfl
  have barrier : (TimerState.ofWhole s).innerBarrier = s.innerBarrier := rfl
  have index : ((TimerState.ofWhole s).vWheels 0).index = (s.vWheels 0).index := rfl
  have frame : (TimerState.ofWhole s).vCurrentFrameIdx = s.vCurrentFrameIdx := rfl
  unfold TimerState.slotFor Timer.TimerState.slotFor
  simp only [frame, barrier, index, idx, nonpos, below, floored, luaMod_natCast _ (by decide : 0 < wheelSize1),
    luaMod_natCast _ (by decide : 0 < wheelSize2), luaMod_natCast _ (by decide : 0 < wheelSize3),
    luaMod_natCast _ (by decide : 0 < wheelSize4)]
  simp only [apply_ite (Option.map _), Option.map_some, Option.map_none, Nat.cast_ite]

/-! ## Calls with whole periods

An operation is that of `Timer.Wheel` with the period counted in frames.
-/

section WholePeriods

variable [Arithmetic]

/-- The period of an added timer is whole, counted in frames. -/
def TimerOp.Whole : TimerOp κ → Prop
  | .add _ _ cycle => rounding.mul cycle frameRate = ⌊rounding.mul cycle frameRate⌋
  | .remove _ => True

/-- The operation for `Timer.Wheel`, which takes the period in frames. -/
def TimerOp.inFrames : TimerOp κ → Timer.TimerOp κ
  | .add expires cb cycle => .add expires cb ⌊rounding.mul cycle frameRate⌋
  | .remove index => .remove index

def TimerCall.Whole : TimerCall κ → Prop
  | .update _ => True
  | .op called => called.Whole

def TimerCall.inFrames : TimerCall κ → Timer.TimerCall κ
  | .update elapse => .update elapse
  | .op called => .op called.inFrames

/-- Callbacks add timers with whole periods only. -/
def TimerEnv.Whole (env : TimerEnv κ W) : Prop := ∀ cb id s, ∀ op ∈ (env.callback cb id s).ops, op.Whole

/-- The same callbacks and the same order, read off a state of `Timer.Wheel`. -/
def TimerEnv.inFrames (env : TimerEnv κ W) : Timer.TimerEnv κ W where
  callback cb id s :=
    let run := env.callback cb id (TimerState.ofWhole s)
    { world := run.world, ops := run.ops.map TimerOp.inFrames, result := run.result }
  pairs s slot := (env.pairs (TimerState.ofWhole s) (slot.map TimerInfo.ofWhole)).map TimerInfo.floor
  pairs_perm s slot := by
    have perm := (env.pairs_perm (TimerState.ofWhole s) (slot.map TimerInfo.ofWhole)).map TimerInfo.floor
    rwa [TimerInfo.map_floor_map_ofWhole] at perm

/-- Tables are gone through in the same order. -/
theorem pairs_ofWhole (env : TimerEnv κ W) (s : Timer.TimerState κ W) (slot : List (Timer.TimerInfo κ)) :
    env.pairs (TimerState.ofWhole s) (slot.map TimerInfo.ofWhole) = (env.inFrames.pairs s slot).map TimerInfo.ofWhole := by
  have whole : ∀ timer ∈ env.pairs (TimerState.ofWhole s) (slot.map TimerInfo.ofWhole),
      TimerInfo.ofWhole timer.floor = timer := by
    intro timer member
    obtain ⟨there, -, rfl⟩ := List.mem_map.mp ((env.pairs_perm _ _).mem_iff.mp member)
    rw [TimerInfo.floor_ofWhole]
  change _ = (List.map TimerInfo.floor _).map TimerInfo.ofWhole
  rw [List.map_map]
  exact ((List.map_congr_left whole).trans (List.map_id' _)).symm

theorem newInfo_ofWhole (s : Timer.TimerState κ W) (expires : ℚ) (cb : κ) {cycle : ℚ}
    (whole : rounding.mul cycle frameRate = ⌊rounding.mul cycle frameRate⌋) :
    newInfo (TimerState.ofWhole s) expires cb cycle =
      TimerInfo.ofWhole (Timer.newInfo s expires cb ⌊rounding.mul cycle frameRate⌋) := by
  unfold newInfo Timer.newInfo TimerInfo.ofWhole
  congr 1
  push_cast
  rfl

/-- The next expiry is whole, too. -/
theorem next_ofWhole (timer : Timer.TimerInfo κ) : (TimerInfo.ofWhole timer).next = (timer.expires + timer.cycle : ℤ) := by
  have whole : (TimerInfo.ofWhole timer).expires = ⌊(TimerInfo.ofWhole timer).expires⌋ ∧
      (TimerInfo.ofWhole timer).cycle = ⌊(TimerInfo.ofWhole timer).cycle⌋ := by
    simp only [TimerInfo.ofWhole, Int.floor_intCast, and_self]
  rw [TimerInfo.next, if_pos whole, Int.cast_add]
  rfl

/-! ## Each function does the same

From the image of a state a function returns what its counterpart returns, and leaves the image of what it leaves.
-/

omit [Arithmetic] in
theorem internalAddTimer_ofWhole (timer : Timer.TimerInfo κ) :
    Simulates (TimerState.ofWhole (W := W)) (internalAddTimer (TimerInfo.ofWhole timer)) (Timer.internalAddTimer timer) := by
  refine Simulates.get_bind fun s => ?_
  have slot := slotFor_ofWhole s timer.expires
  change (TimerState.ofWhole s).slotFor (TimerInfo.ofWhole timer).expires = _ at slot
  rw [slot]
  cases s.slotFor timer.expires with
  | none => exact Simulates.pure ()
  | some place =>
      refine Simulates.ite ?_ (Simulates.modify fun s => ?_) Simulates.raise
      · simp only [Nat.floor_natCast, true_and]
        rfl
      · rw [Nat.floor_natCast]
        exact TimerState.store_ofWhole s place.1 place.2 timer

omit [Arithmetic] in
theorem removeTimer_ofWhole (index : Nat) :
    Simulates (TimerState.ofWhole (κ := κ) (W := W)) (removeTimer index) (Timer.removeTimer index) := by
  refine Simulates.get_bind fun s => ?_
  change Simulates TimerState.ofWhole (match s.vIndexSlotMap index with | some (w, i) => _ | none => _) _
  cases s.vIndexSlotMap index with
  | none => exact Simulates.pure false
  | some place =>
      exact (Simulates.modify fun s => TimerState.erase_ofWhole s place.1 place.2 index).bind fun _ => Simulates.pure true

theorem addTimer_ofWhole (expires : ℚ) (cb : κ) {cycle : ℚ}
    (whole : rounding.mul cycle frameRate = ⌊rounding.mul cycle frameRate⌋) :
    Simulates (TimerState.ofWhole (W := W)) (addTimer expires cb cycle)
      (Timer.addTimer expires cb ⌊rounding.mul cycle frameRate⌋) := by
  refine Simulates.bind (Simulates.modify fun _ => rfl) fun _ => Simulates.get_bind fun s => ?_
  have info := newInfo_ofWhole s expires cb whole
  refine Simulates.bind (Simulates.modify fun t => ?_) fun _ => ?_
  · rw [info]
    simp only [TimerInfo.ofWhole, Int.floor_intCast]
    rfl
  · rw [info]
    exact (internalAddTimer_ofWhole _).bind fun _ => Simulates.pure _

theorem applyOp_ofWhole {op : TimerOp κ} (whole : op.Whole) :
    Simulates (TimerState.ofWhole (W := W)) (applyOp op) (Timer.applyOp op.inFrames) := by
  cases op with
  | add expires cb cycle => exact (addTimer_ofWhole expires cb whole).bind fun _ => Simulates.pure _
  | remove index =>
      refine Simulates.bind (Simulates.modify fun _ => rfl) fun _ => ?_
      exact (removeTimer_ofWhole index).bind fun _ => Simulates.pure _

section Callbacks

variable {env : TimerEnv κ W} (whole : env.Whole)
include whole

theorem callTimer_ofWhole (timer : Timer.TimerInfo κ) :
    Simulates TimerState.ofWhole (callTimer env (TimerInfo.ofWhole timer)) (Timer.callTimer env.inFrames timer) := by
  refine Simulates.bind (Simulates.modify fun _ => rfl) fun _ => ?_
  refine Simulates.bind (Simulates.modify fun _ => rfl) fun _ => ?_
  refine Simulates.get_bind fun s => ?_
  refine Simulates.bind (Simulates.modify fun _ => rfl) fun _ => ?_
  have same : List.Forall₂ (fun op inFrames => Simulates (TimerState.ofWhole (W := W)) (applyOp op) (Timer.applyOp inFrames))
      (env.callback timer.callback timer.id (TimerState.ofWhole s)).ops
      ((env.callback timer.callback timer.id (TimerState.ofWhole s)).ops.map TimerOp.inFrames) := by
    rw [List.forall₂_map_right_iff, List.forall₂_same]
    exact fun op member => applyOp_ofWhole (whole _ _ _ op member)
  refine (Simulates.forEach same).bind fun _ => ?_
  change Simulates TimerState.ofWhole (match (env.callback timer.callback timer.id (TimerState.ofWhole s)).result with
    | none => _ | some result => _) (match (env.callback timer.callback timer.id (TimerState.ofWhole s)).result with
    | none => _ | some result => _)
  cases (env.callback timer.callback timer.id (TimerState.ofWhole s)).result with
  | none => exact Simulates.bind (Simulates.modify fun _ => rfl) fun _ => Simulates.raise
  | some result => exact Simulates.bind (Simulates.modify fun _ => rfl) fun _ => Simulates.pure result

omit whole in
theorem cascadeTimers_ofWhole (w : Fin 4) :
    Simulates TimerState.ofWhole (cascadeTimers env w) (Timer.cascadeTimers env.inFrames w) := by
  refine Simulates.get_bind fun s => Simulates.ite Iff.rfl ?_ Simulates.raise
  have order := pairs_ofWhole env s (s.slot w (s.vWheels w).index)
  refine Simulates.bind ?_ fun _ => ?_
  · change Simulates _ (forEach internalAddTimer (env.pairs (TimerState.ofWhole s) ((s.slot w (s.vWheels w).index).map _))) _
    rw [order]
    refine Simulates.forEach ?_
    rw [List.forall₂_map_left_iff, List.forall₂_same]
    exact fun timer _ => internalAddTimer_ofWhole timer
  · refine Simulates.bind (Simulates.modify fun t => TimerState.setSlot_ofWhole t w _ []) fun _ => ?_
    exact Simulates.modify fun t => TimerState.setIndex_ofWhole t w _

omit whole in
theorem cascade_ofWhole (behind : List (Fin 4)) (w : Fin 4) :
    Simulates TimerState.ofWhole (cascade env behind w) (Timer.cascade env.inFrames behind w) := by
  induction behind generalizing w with
  | nil =>
      refine Simulates.get_bind fun s => Simulates.ite Iff.rfl ?_ (Simulates.pure ())
      exact Simulates.bind (Simulates.modify fun t => TimerState.setIndex_ofWhole t w 0) fun _ => Simulates.raise
  | cons next behind ih =>
      refine Simulates.get_bind fun s => Simulates.ite Iff.rfl ?_ (Simulates.pure ())
      refine Simulates.bind (Simulates.modify fun t => TimerState.setIndex_ofWhole t w 0) fun _ => ?_
      exact (cascadeTimers_ofWhole next).bind fun _ => ih next

theorem fireTimer_ofWhole (wheelIndex idx : Nat) :
    Simulates TimerState.ofWhole (fireTimer env wheelIndex idx) (Timer.fireTimer env.inFrames wheelIndex idx) := by
  refine Simulates.get_bind fun s => ?_
  rw [TimerState.slot_ofWhole, List.find?_map]
  change Simulates _ (match Option.map TimerInfo.ofWhole ((s.slot 0 wheelIndex).find? fun t => t.id = idx) with
    | none => _ | some timer => _) _
  cases (s.slot 0 wheelIndex).find? fun t => t.id = idx with
  | none => exact Simulates.pure ()
  | some timer =>
      refine (callTimer_ofWhole whole timer).bind fun result => ?_
      refine (removeTimer_ofWhole idx).bind fun _ => ?_
      refine Simulates.ite ?_ ?_ (Simulates.pure ())
      · simp only [TimerInfo.ofWhole, gt_iff_lt, Int.cast_pos]
      · rw [next_ofWhole]
        exact internalAddTimer_ofWhole { timer with expires := timer.expires + timer.cycle }

theorem fireSlot_ofWhole : Simulates TimerState.ofWhole (fireSlot env) (Timer.fireSlot env.inFrames) := by
  refine Simulates.get_bind fun s => Simulates.ite Iff.rfl ?_ Simulates.raise
  have order := pairs_ofWhole env s (s.slot 0 (s.vWheels 0).index)
  refine Simulates.bind ?_ fun _ => ?_
  · change Simulates _ (forEach (fireTimer env (s.vWheels 0).index)
      ((env.pairs (TimerState.ofWhole s) ((s.slot 0 (s.vWheels 0).index).map _)).map TimerInfo.id)) _
    rw [order, List.map_map]
    refine Simulates.forEach ?_
    rw [List.forall₂_map_left_iff, List.forall₂_map_right_iff, List.forall₂_same]
    exact fun timer _ => fireTimer_ofWhole whole _ timer.id
  · refine Simulates.bind (Simulates.modify fun _ => rfl) fun _ => ?_
    refine Simulates.bind (Simulates.modify fun _ => rfl) fun _ => ?_
    exact Simulates.modify fun t => TimerState.setIndex_ofWhole t 0 _

theorem updateFrame_ofWhole : Simulates TimerState.ofWhole (updateFrame env) (Timer.updateFrame env.inFrames) := by
  refine Simulates.bind (Simulates.modify fun _ => rfl) fun _ => ?_
  refine Simulates.bind (Simulates.modify fun _ => rfl) fun _ => ?_
  exact (cascade_ofWhole [1, 2, 3] 0).bind fun _ => fireSlot_ofWhole whole

theorem updateLoop_ofWhole (turns : Nat) :
    Simulates TimerState.ofWhole (updateLoop env turns) (Timer.updateLoop env.inFrames turns) := by
  induction turns with
  | zero => exact Simulates.pure ()
  | succ turns ih =>
      refine Simulates.get_bind fun s => Simulates.ite Iff.rfl ?_ (Simulates.pure ())
      exact (updateFrame_ofWhole whole).bind fun _ => ih

theorem update_ofWhole (elapse : ℚ) :
    Simulates TimerState.ofWhole (update env elapse) (Timer.update env.inFrames elapse) :=
  Simulates.bind (Simulates.modify fun _ => rfl) fun _ => Simulates.get_bind fun _ => updateLoop_ofWhole whole _

/-- A call returns or raises as the call in frames does on `Timer.Wheel`, and leaves what that one leaves. -/
theorem applyCall_ofWhole {call : TimerCall κ} (inWhole : call.Whole) :
    Simulates TimerState.ofWhole (applyCall env call) (Timer.applyCall env.inFrames call.inFrames) := by
  cases call with
  | update elapse => exact update_ofWhole whole elapse
  | op op => exact applyOp_ofWhole inWhole

/-- Run by run the two wheels are the same, as long as every period is whole. -/
theorem foldl_ofWhole {calls : List (TimerCall κ)} (inWhole : ∀ call ∈ calls, call.Whole) (s : Timer.TimerState κ W) :
    calls.foldl (stateAfter env) (TimerState.ofWhole s) =
      TimerState.ofWhole ((calls.map TimerCall.inFrames).foldl (Timer.stateAfter env.inFrames) s) := by
  induction calls generalizing s with
  | nil => rfl
  | cons call calls ih =>
      rw [List.forall_mem_cons] at inWhole
      have first : stateAfter env (TimerState.ofWhole s) call =
          TimerState.ofWhole (Timer.stateAfter env.inFrames s call.inFrames) :=
        congrArg Prod.snd (applyCall_ofWhole whole inWhole.1 s)
      rw [List.foldl_cons, first, List.map_cons, List.foldl_cons, ih inWhole.2]

end Callbacks

end WholePeriods

/-! ## A period between two frames

What the first wheel has no slot for is what makes `update` raise while every callback returns.
-/

/-- `%` gives an index for whole numbers only. -/
theorem luaMod_natCast_ne {q : ℚ} (between : ∀ n : ℤ, q ≠ n) (b n : ℕ) : luaMod q b ≠ n := by
  intro key
  refine between (⌊q / b⌋ * b + n) ?_
  push_cast
  rw [← key, luaMod]
  ring

/-- A timer that is to expire within the next 200 frames but between two of them is not put in. -/
theorem internalAddTimer_between (s : TimerState κ W) {timer : TimerInfo κ} (between : ∀ n : ℤ, timer.expires ≠ n)
    (ahead : s.vCurrentFrameIdx < timer.expires) (near : timer.expires - s.vCurrentFrameIdx < wheelSize1) :
    exec (internalAddTimer timer) s = (.error (), s) := by
  have key : s.slotFor timer.expires = some (0, luaMod timer.expires wheelSize1) := by
    rw [TimerState.slotFor]
    exact (if_neg (by linarith)).trans (if_pos near)
  have noSlot : ¬ (luaMod timer.expires wheelSize1 = ⌊luaMod timer.expires wheelSize1⌋₊ ∧
      ⌊luaMod timer.expires wheelSize1⌋₊ < (s.vWheels 0).bound) :=
    fun slot => luaMod_natCast_ne between _ _ slot.1
  rw [internalAddTimer, exec_bind, exec_get]
  change exec (match s.slotFor timer.expires with | none => _ | some (w, key) => _) s = _
  rw [key]
  change exec (if _ then _ else _) s = _
  rw [if_neg noSlot]
  rfl

section Doubles

open scoped DoubleArithmetic

/-- A callback that only asks to be called again. -/
def again : TimerEnv Unit Unit where
  callback _ _ _ := { world := (), ops := [], result := some true }
  pairs _ slot := slot
  pairs_perm _ slot := List.Perm.refl slot

/-- A period of 0.15 seconds: the timer is started in frame 1, and is to expire at 2.5 then. -/
example : ((exec (applyCall again (.update (2 / 5)))
    (stateAfter again (.init ()) (.op (.add (1 / 10) () (3 / 20))))).2.trace) =
      [.added 2 1 0 1, .frame 0, .frameDone 0, .frame 1, .started 2 1] := by
  decide +kernel

end Doubles

end GameServer.Timer.AnyPeriod
