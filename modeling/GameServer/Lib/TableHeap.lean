/-
Module: GameServer.Lib.TableHeap
Purpose: Tables that are told by their address: reading, writing and making them.
Trusted boundary: none
Main exports: TableHeap, read, write, alloc, read_write_of_ne, read_alloc_of_lt
-/
import Mathlib.Logic.Function.Basic

namespace GameServer.Lib

/-- Tables by address, with fields of type `F` and values of type `V`; tables from `next` on are not made
yet. -/
structure TableHeap (F V : Type*) where
  tables : Nat → F → V
  next : Nat

namespace TableHeap

variable {F V : Type*}

def read (h : TableHeap F V) (address : Nat) (field : F) : V := h.tables address field

/-- A new table with the given fields stands at `next`. -/
def alloc (h : TableHeap F V) (fields : F → V) : TableHeap F V where
  tables := Function.update h.tables h.next fields
  next := h.next + 1

variable [DecidableEq F]

def write (h : TableHeap F V) (address : Nat) (field : F) (value : V) : TableHeap F V :=
  { h with tables := Function.update h.tables address (Function.update (h.tables address) field value) }

@[simp] theorem next_write (h : TableHeap F V) (address : Nat) (field : F) (value : V) :
    (h.write address field value).next = h.next := rfl

@[simp] theorem read_write_self (h : TableHeap F V) (address : Nat) (field : F) (value : V) :
    (h.write address field value).read address field = value := by
  simp [read, write]

/-- Other tables and other fields are left as they are. -/
theorem read_write_of_ne (h : TableHeap F V) {address other : Nat} {field field' : F} (value : V)
    (elsewhere : other ≠ address ∨ field' ≠ field) :
    (h.write address field value).read other field' = h.read other field' := by
  by_cases same : other = address
  · subst same
    simp [read, write, Function.update_of_ne (elsewhere.resolve_left (fun ne => ne rfl))]
  · simp [read, write, same]

omit [DecidableEq F] in
@[simp] theorem read_alloc_next (h : TableHeap F V) (fields : F → V) (field : F) :
    (h.alloc fields).read h.next field = fields field := by
  simp [read, alloc]

omit [DecidableEq F] in
/-- Tables that were made before stay as they are. -/
theorem read_alloc_of_lt (h : TableHeap F V) (fields : F → V) {address : Nat} (made : address < h.next)
    (field : F) : (h.alloc fields).read address field = h.read address field := by
  simp [read, alloc, Nat.ne_of_lt made]

end TableHeap

end GameServer.Lib
