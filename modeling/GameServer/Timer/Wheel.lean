/-
Module: GameServer.Timer.Wheel
Purpose: The four-level timing wheel of `script/common/timer.lua`, in any arithmetic: exact time, or doubles.
Trusted boundary: periods are whole frames (the wheel with any periods is in `Timer.Periods`); the order of `pairs` is
  any order, chosen anew at every traversal; the frame counter has fewer than 53 bits
Main exports: TimerInfo, Wheel, TimerState, TimerEnv, internalAddTimer, addTimer, removeTimer,
  cascadeTimers, update
-/
import GameServer.Lib.LuaM
import GameServer.Lib.Rounding

namespace GameServer.Timer

open Lib Lib.LuaM
open Arithmetic (rounding)

/-! ## Constants

A frame is a tenth of a second; the number that stands for it depends on the arithmetic.
-/

/-- `SECOND_PER_FRAME`, the number that the literal 0.1 is read as. -/
def secondPerFrame [Arithmetic] : ℚ := rounding.round (1 / 10)

/-- `FRAME_RATE`. -/
def frameRate [Arithmetic] : ℚ := rounding.div 1 secondPerFrame

theorem frameRate_nonneg [Arithmetic] : 0 ≤ frameRate := by
  have frame : 0 ≤ secondPerFrame := rounding.nonneg _ (by norm_num)
  exact rounding.nonneg _ (div_nonneg zero_le_one frame)

section ExactTime

open scoped ExactArithmetic

theorem secondPerFrame_eq : secondPerFrame = 1 / 10 := rfl

theorem frameRate_eq : frameRate = 10 := by norm_num [frameRate, secondPerFrame_eq]

end ExactTime

def wheelSize1 : Nat := 200

def wheelSize2 : Nat := 60

def wheelSize3 : Nat := 60

def wheelSize4 : Nat := 60

def wheelSizeMul12 : Nat := wheelSize1 * wheelSize2

def wheelSizeMul123 : Nat := wheelSize1 * wheelSize2 * wheelSize3

def wheelSizeMul1234 : Nat := wheelSize1 * wheelSize2 * wheelSize3 * wheelSize4

/-- There are four wheels. -/
scoped instance fourWheels : NeZero 4 := ⟨by decide⟩

/-! ## State

The timer object with its four wheels, and beside it the two locals of the file and the history.
-/

/-- A timer.  `callback` stands for the callback together with `arg1` and `arg2`; a `cycle` that is
not positive is that of a one-shot timer. -/
structure TimerInfo (κ : Type) where
  id : Nat
  expires : Int
  callback : κ
  cycle : Int
deriving Repr, DecidableEq

/-- A wheel: its slots, each a table keyed by timer id, and the two fields kept beside them. -/
structure Wheel (κ : Type) where
  slots : Nat → List (TimerInfo κ)
  index : Nat
  bound : Nat

/-- `_create_wheel`. -/
def createWheel (κ : Type) (scale : Nat) : Wheel κ where
  slots _ := []
  index := 0
  bound := scale

/-- What happened, in order: a timer was added (with its expiry, the frame it was added in and its
period), `remove_timer` was called, the processing of a frame began, a callback was started, a callback
raised, a frame was finished. -/
inductive TimerEvent where
  | added (id : Nat) (expires : Int) (frame : Nat) (cycle : Int)
  | removed (id : Nat)
  | frame (idx : Nat)
  | started (id : Nat) (frame : Nat)
  | raised (id : Nat)
  | frameDone (idx : Nat)
deriving Repr, DecidableEq

/-- The timer object, the two locals of its file, the world the callbacks work on, and a record of
what happened that no function reads. -/
structure TimerState (κ W : Type) where
  vElapseTime : ℚ
  vCurrentFrameIdx : Nat
  vWheels : Fin 4 → Wheel κ
  vIndexSlotMap : Nat → Option (Fin 4 × Nat)
  timerCounter : Nat
  innerBarrier : Bool
  world : W
  trace : List TimerEvent

variable {κ W : Type}

/-- `_init`, with the locals as the file sets them. -/
def TimerState.init (world : W) : TimerState κ W where
  vElapseTime := 0
  vCurrentFrameIdx := 0
  vWheels := fun
    | 0 => createWheel κ wheelSize1
    | 1 => createWheel κ wheelSize2
    | 2 => createWheel κ wheelSize3
    | 3 => createWheel κ wheelSize4
  vIndexSlotMap _ := none
  timerCounter := 1
  innerBarrier := false
  world := world
  trace := []

namespace TimerState

/-- The slot `v_wheels[w + 1][i]`. -/
def slot (s : TimerState κ W) (w : Fin 4) (i : Nat) : List (TimerInfo κ) := (s.vWheels w).slots i

def setWheel (s : TimerState κ W) (w : Fin 4) (wheel : Wheel κ) : TimerState κ W :=
  { s with vWheels := Function.update s.vWheels w wheel }

def setSlot (s : TimerState κ W) (w : Fin 4) (i : Nat) (slot : List (TimerInfo κ)) :
    TimerState κ W :=
  s.setWheel w { s.vWheels w with slots := Function.update (s.vWheels w).slots i slot }

def setIndex (s : TimerState κ W) (w : Fin 4) (index : Nat) : TimerState κ W :=
  s.setWheel w { s.vWheels w with index := index }

def setMap (s : TimerState κ W) (id : Nat) (place : Option (Fin 4 × Nat)) : TimerState κ W :=
  { s with vIndexSlotMap := Function.update s.vIndexSlotMap id place }

def record (s : TimerState κ W) (event : TimerEvent) : TimerState κ W :=
  { s with trace := s.trace ++ [event] }

/-- `slot[timer.id] = timer` and `self.v_index_slot_map[timer.id] = slot`. -/
def store (s : TimerState κ W) (w : Fin 4) (i : Nat) (timer : TimerInfo κ) : TimerState κ W :=
  (s.setSlot w i ((s.slot w i).filter (fun t => t.id ≠ timer.id) ++ [timer])).setMap timer.id
    (some (w, i))

/-- `slot[index] = nil` and `self.v_index_slot_map[index] = nil`. -/
def erase (s : TimerState κ W) (w : Fin 4) (i : Nat) (id : Nat) : TimerState κ W :=
  (s.setSlot w i ((s.slot w i).filter fun t => t.id ≠ id)).setMap id none

/-- The slot `_internal_add_timer` chooses, or none for a timer that is too long. -/
def slotFor (s : TimerState κ W) (expires : Int) : Option (Fin 4 × Nat) :=
  let idx := expires - s.vCurrentFrameIdx
  if idx ≤ 0 then
    let wheelIdx := (s.vWheels 0).index
    some (0, if s.innerBarrier then (wheelIdx + 1) % wheelSize1 else wheelIdx)
  else if idx < wheelSize1 then
    some (0, (expires % wheelSize1).toNat)
  else if idx < wheelSizeMul12 then
    some (1, ((expires / wheelSize1 - 1) % wheelSize2).toNat)
  else if idx < wheelSizeMul123 then
    some (2, ((expires / wheelSizeMul12 - 1) % wheelSize3).toNat)
  else if idx < wheelSizeMul1234 then
    some (3, ((expires / wheelSizeMul123 - 1) % wheelSize4).toNat)
  else
    none

end TimerState

/-! ## Adding and removing

A slot is chosen by the distance to the expiry: the further away it is, the coarser is the wheel.
-/

/-- `_internal_add_timer`.  A timer that is too long is logged and dropped; an index outside the wheel
gives no slot, and writing to it raises. -/
def internalAddTimer (timer : TimerInfo κ) : LuaM (TimerState κ W) Unit := do
  let s ← get
  match s.slotFor timer.expires with
  | none => pure ()
  | some (w, i) =>
      if i < (s.vWheels w).bound then modify fun s => s.store w i timer else raise

variable [Arithmetic]

/-- `math.floor((expires + self.v_elapse_time)*FRAME_RATE)`. -/
def framesUntil (expires vElapseTime : ℚ) : Int := ⌊rounding.mul (rounding.add expires vElapseTime) frameRate⌋

/-- The table `info` of `add_timer`. -/
def newInfo (s : TimerState κ W) (expires : ℚ) (cb : κ) (cycle : Int) : TimerInfo κ where
  id := s.timerCounter
  expires := framesUntil expires s.vElapseTime + s.vCurrentFrameIdx
  callback := cb
  cycle := cycle

/-- `add_timer`; `cycle` is the period in frames. -/
def addTimer (expires : ℚ) (cb : κ) (cycle : Int) : LuaM (TimerState κ W) Nat := do
  modify fun s => { s with timerCounter := s.timerCounter + 1 }
  let s ← get
  let info := newInfo s expires cb cycle
  modify fun s => s.record (.added info.id info.expires s.vCurrentFrameIdx info.cycle)
  internalAddTimer info
  return s.timerCounter

/-- `remove_timer`: whether it found the timer.  (The source returns `nil` when it did, and `false` when
it did not.) -/
def removeTimer (index : Nat) : LuaM (TimerState κ W) Bool := do
  let s ← get
  match s.vIndexSlotMap index with
  | some (w, i) => do
      modify fun s => s.erase w i index
      return true
  | none => return false

/-- What code outside `timer.lua` does to the wheel. -/
inductive TimerOp (κ : Type) where
  | add (expires : ℚ) (cb : κ) (cycle : Int)
  | remove (index : Nat)

def applyOp : TimerOp κ → LuaM (TimerState κ W) Unit
  | .add expires cb cycle => do
      let _ ← addTimer expires cb cycle
  | .remove index => do
      modify fun s => s.record (.removed index)
      let _ ← removeTimer index

/-! ## Callbacks

Callbacks may add and remove timers, and raise. They and the order of `pairs` are parameters of everything below.
-/

/-- One call of a callback: what it makes of the world, the timer calls it makes, and the value it
returns, or none when it raises after them. -/
structure CallbackRun (κ W : Type) where
  world : W
  ops : List (TimerOp κ)
  result : Option Bool

/-- What the wheel is run with: the callbacks, and the order in which `pairs` goes through a table.
Both see the whole state, its history included. -/
structure TimerEnv (κ W : Type) where
  callback : κ → Nat → TimerState κ W → CallbackRun κ W
  pairs : TimerState κ W → List (TimerInfo κ) → List (TimerInfo κ)
  pairs_perm : ∀ s slot, (pairs s slot).Perm slot

/-- Tables are gone through in the order in which the timers stand in them. -/
def TimerEnv.inOrder (callback : κ → Nat → TimerState κ W → CallbackRun κ W) : TimerEnv κ W where
  callback := callback
  pairs _ slot := slot
  pairs_perm _ slot := List.Perm.refl slot

variable (env : TimerEnv κ W)

/-- `timer.callback(timer.arg1, timer.arg2, timer.id)` between the two settings of `INNER_BARRIER`. -/
def callTimer (timer : TimerInfo κ) : LuaM (TimerState κ W) Bool := do
  modify fun s => { s with innerBarrier := true }
  modify fun s => s.record (.started timer.id s.vCurrentFrameIdx)
  let s ← get
  let run := env.callback timer.callback timer.id s
  modify fun s => { s with world := run.world }
  forEach applyOp run.ops
  match run.result with
  | none => do
      modify fun s => s.record (.raised timer.id)
      raise
  | some result => do
      modify fun s => { s with innerBarrier := false }
      return result

/-! ## Frames

`update` works off the frames that have elapsed. In each it first cascades the wheels whose turn it is, and then calls
what stands in the slot of the frame.
-/

/-- `cascade_timers` of wheel `w`. -/
def cascadeTimers (w : Fin 4) : LuaM (TimerState κ W) Unit := do
  let s ← get
  let index := (s.vWheels w).index
  if index < (s.vWheels w).bound then do
    forEach internalAddTimer (env.pairs s (s.slot w index))
    modify fun s => s.setSlot w index []
    modify fun s => s.setIndex w ((s.vWheels w).index + 1)
  else
    raise

/-- The inner `while` of `update`, at wheel `w` with the wheels behind it.  Behind the fourth wheel
there is none, and `cascade_timers` raises. -/
def cascade : List (Fin 4) → Fin 4 → LuaM (TimerState κ W) Unit
  | [], w => do
      let s ← get
      if (s.vWheels w).index ≥ (s.vWheels w).bound then do
        modify fun s => s.setIndex w 0
        raise
      else
        pure ()
  | next :: behind, w => do
      let s ← get
      if (s.vWheels w).index ≥ (s.vWheels w).bound then do
        modify fun s => s.setIndex w 0
        cascadeTimers env next
        cascade behind next
      else
        pure ()

/-- The body of the `for` loop of `update` for the timer id `idx`; an id that is no longer in the slot
is not visited. -/
def fireTimer (wheelIndex : Nat) (idx : Nat) : LuaM (TimerState κ W) Unit := do
  let s ← get
  match (s.slot 0 wheelIndex).find? fun t => t.id = idx with
  | none => pure ()
  | some timer => do
      let result ← callTimer env timer
      let _ ← removeTimer idx
      if timer.cycle > 0 ∧ result then
        internalAddTimer { timer with expires := timer.expires + timer.cycle }
      else
        pure ()

/-- The second half of a turn of the outer `while` of `update`: the `for` loop over the slot, and the
end of the frame. -/
def fireSlot : LuaM (TimerState κ W) Unit := do
  let s ← get
  let wheelIndex := (s.vWheels 0).index
  if wheelIndex < (s.vWheels 0).bound then do
    forEach (fireTimer env wheelIndex) ((env.pairs s (s.slot 0 wheelIndex)).map TimerInfo.id)
    modify fun s => s.record (.frameDone s.vCurrentFrameIdx)
    modify fun s => { s with vCurrentFrameIdx := s.vCurrentFrameIdx + 1 }
    modify fun s => s.setIndex 0 ((s.vWheels 0).index + 1)
  else
    raise

/-- One turn of the outer `while` of `update`. -/
def updateFrame : LuaM (TimerState κ W) Unit := do
  modify fun s => { s with vElapseTime := rounding.sub s.vElapseTime secondPerFrame }
  modify fun s => s.record (.frame s.vCurrentFrameIdx)
  cascade env [1, 2, 3] 0
  fireSlot env

/-- The outer `while` of `update`, for at most the given number of turns. -/
def updateLoop : Nat → LuaM (TimerState κ W) Unit
  | 0 => pure ()
  | turns + 1 => do
      let s ← get
      if s.vElapseTime > secondPerFrame then do
        updateFrame env
        updateLoop turns
      else
        pure ()

/-- Turns enough for the loop of `update`: in exact arithmetic each takes one frame out of `v_elapse_time`
(`update_elapse_le`), and in any arithmetic the frame counter meets a multiple of 43200000 before (`update_ends`). -/
def turnsFor (vElapseTime : ℚ) : Nat := max ⌈vElapseTime * frameRate⌉₊ (wheelSizeMul1234 + 2)

/-- The turns are enough for every frame in the time. -/
theorem ceil_le_turnsFor (vElapseTime : ℚ) : ⌈vElapseTime * frameRate⌉₊ ≤ turnsFor vElapseTime :=
  Nat.le_max_left _ _

/-- They are enough to meet a multiple of 43200000. -/
theorem lt_turnsFor (vElapseTime : ℚ) : wheelSizeMul1234 + 1 < turnsFor vElapseTime :=
  Nat.le_max_right _ _

/-- `update`. -/
def update (elapse : ℚ) : LuaM (TimerState κ W) Unit := do
  modify fun s => { s with vElapseTime := rounding.add s.vElapseTime elapse }
  let s ← get
  updateLoop env (turnsFor s.vElapseTime)

/-! ## Runs

What is called from outside, one call after the other.
-/

/-- A call from outside. -/
inductive TimerCall (κ : Type) where
  | update (elapse : ℚ)
  | op (op : TimerOp κ)

def applyCall : TimerCall κ → LuaM (TimerState κ W) Unit
  | .update elapse => update env elapse
  | .op op => applyOp op

end GameServer.Timer
