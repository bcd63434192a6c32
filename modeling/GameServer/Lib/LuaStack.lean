/-
Module: GameServer.Lib.LuaStack
Purpose: The stack between C and Lua: values are pushed, put into tables, passed to functions under `lua_pcall`, and
  cut off.
Trusted boundary: there is memory, and room on the stack; what a function does to the stack above its arguments is gone when it ends
Main exports: LuaSlot, LuaStack, push, settable, PcallOutcome, pcall, settop, pcall_pushAll, settop_cons
-/
import GameServer.Lib.LuaNumber

namespace GameServer.Lib

inductive LuaSlot where
  | nil
  | boolean (b : Bool)
  | number (n : LuaNumber)
  | string (s : List UInt8)
  | table (fields : List (LuaSlot × LuaSlot))
  | function (name : String)

/-- The values of the current C function, the top one first. -/
abbrev LuaStack := List LuaSlot

namespace LuaStack

/-- `lua_gettop`. -/
def gettop (s : LuaStack) : Nat := s.length

def push (value : LuaSlot) (s : LuaStack) : LuaStack := value :: s

/-- Values are pushed one after another. -/
def pushAll (values : List LuaSlot) (s : LuaStack) : LuaStack := values.foldl (fun s value => push value s) s

/-- `lua_settable(L, -3)`: the value and its key are taken off, and the table under them has the field. -/
def settable : LuaStack → LuaStack
  | value :: key :: .table fields :: s => .table (fields ++ [(key, value)]) :: s
  | s => s

/-- How a protected call ends: with its first result, nil when there was none, or with an error, here as
`lua_tostring` leaves it. -/
inductive PcallOutcome where
  | returned (result : LuaSlot)
  | failed (message : LuaSlot)

namespace PcallOutcome

def slot : PcallOutcome → LuaSlot
  | returned result => result
  | failed message => message

/-- What `lua_pcall` returns is 0. -/
def isOk : PcallOutcome → Bool
  | returned _ => true
  | failed _ => false

end PcallOutcome

/-- `lua_pcall(L, nargs, 1, 0)`: the arguments and the function are taken off, and one value is pushed either way. -/
def pcall (nargs : Nat) (outcome : PcallOutcome) (s : LuaStack) : LuaStack := push outcome.slot (s.drop (nargs + 1))

/-- `lua_settop`. -/
def settop (index : Nat) (s : LuaStack) : LuaStack :=
  if s.length < index then List.replicate (index - s.length) .nil ++ s else s.drop (s.length - index)

theorem pushAll_eq (values : List LuaSlot) (s : LuaStack) : pushAll values s = values.reverse ++ s := by
  induction values generalizing s with
  | nil => rfl
  | cons value values ih =>
      change pushAll values (push value s) = _
      rw [ih, List.reverse_cons, List.append_assoc]
      rfl

/-- A call leaves the stack below the function, and one value on it. -/
theorem pcall_pushAll (outcome : PcallOutcome) (f : LuaSlot) (values : List LuaSlot) (s : LuaStack) :
    pcall values.length outcome (pushAll values (push f s)) = push outcome.slot s := by
  have length : values.length = values.reverse.length := List.length_reverse.symm
  rw [pcall, pushAll_eq, push, List.drop_append, length, List.drop_of_length_le (Nat.le_succ _), List.nil_append,
    Nat.add_sub_cancel_left]
  rfl

/-- A value is cut off. -/
theorem settop_cons (value : LuaSlot) (s : LuaStack) : settop (gettop s) (push value s) = s := by
  have long : ¬ (push value s).length < gettop s := by
    simp [push, gettop]
  rw [settop, if_neg long, push, List.length_cons, gettop, Nat.add_sub_cancel_left]
  rfl

end LuaStack

end GameServer.Lib
