/-
Module: GameServer.Lib.FlatMemory
Purpose: Memory without bounds: bytes written to and read from offsets, and the offsets of the fields of C structures.
Trusted boundary: every field is aligned to its size
Main exports: Memory, write, read, writeAll, read_writeAll_last, read_copy, consecutive, HoldsAt, read_field,
  offsetof, sizeof
-/
import Mathlib.Data.List.Basic
import Mathlib.Tactic.Common

namespace GameServer.Lib

/-- What the memory holds at an offset. -/
abbrev Memory := Nat → UInt8

/-- `memcpy` to the offset. -/
def write (mem : Memory) (offset : Nat) (src : List UInt8) : Memory := fun i =>
  if offset ≤ i ∧ i < offset + src.length then src.getD (i - offset) 0 else mem i

/-- The `n` bytes from the offset on. -/
def read (mem : Memory) (offset n : Nat) : List UInt8 := (List.range n).map fun i => mem (offset + i)

/-- Copies, one after another. -/
def writeAll (mem : Memory) : List (Nat × List UInt8) → Memory
  | [] => mem
  | (offset, src) :: rest => writeAll (write mem offset src) rest

section Reads

variable {mem : Memory} {offset n : Nat}

@[simp] theorem length_read (mem : Memory) (offset n : Nat) : (read mem offset n).length = n := by simp [read]

theorem getElem?_read (mem : Memory) (offset n i : Nat) :
    (read mem offset n)[i]? = if i < n then some (mem (offset + i)) else none := by
  unfold read
  rw [List.getElem?_map]
  split
  · next inside => rw [List.getElem?_range inside, Option.map_some]
  · next outside => rw [List.getElem?_eq_none (by simpa using Nat.le_of_not_lt outside), Option.map_none]

theorem read_add (mem : Memory) (offset n m : Nat) :
    read mem offset (n + m) = read mem offset n ++ read mem (offset + n) m := by
  unfold read
  rw [List.range_add, List.map_append, List.map_map]
  congr 1
  apply List.map_congr_left
  intro i _
  exact congrArg mem (Nat.add_assoc offset n i).symm

/-- A part of what is read. -/
theorem read_part (mem : Memory) (offset : Nat) {start k n : Nat} (inside : start + k ≤ n) :
    read mem (offset + start) k = ((read mem offset n).drop start).take k := by
  apply List.ext_getElem?
  intro i
  rw [List.getElem?_take, List.getElem?_drop, getElem?_read, getElem?_read, Nat.add_assoc]
  split
  · rw [if_pos (by omega)]
  · rfl

theorem read_congr {other : Memory} (same : ∀ i, i < n → mem (offset + i) = other (offset + i)) :
    read mem offset n = read other offset n := by
  apply List.map_congr_left
  intro i member
  exact same i (List.mem_range.mp member)

/-- What was written is read back. -/
theorem read_write_self (mem : Memory) (offset : Nat) (src : List UInt8) :
    read (write mem offset src) offset src.length = src := by
  apply List.ext_getElem?
  intro i
  rw [getElem?_read]
  split
  · next inside =>
    have place : offset ≤ offset + i ∧ offset + i < offset + src.length := by omega
    rw [write, if_pos place, Nat.add_sub_cancel_left, List.getElem?_eq_getElem inside, List.getD_eq_getElem?_getD,
      List.getElem?_eq_getElem inside, Option.getD_some]
  · next outside => rw [List.getElem?_eq_none (Nat.le_of_not_lt outside)]

/-- The written bytes are all in front of what is read, or all behind it. -/
def Away (copy : Nat × List UInt8) (offset n : Nat) : Prop :=
  copy.1 + copy.2.length ≤ offset ∨ offset + n ≤ copy.1

theorem read_write_away {place : Nat} {src : List UInt8} (away : Away (place, src) offset n) :
    read (write mem place src) offset n = read mem offset n := by
  apply read_congr
  intro i inside
  rw [write, if_neg]
  rcases away with before | behind
  · have ends : place + src.length ≤ offset := before
    omega
  · have starts : offset + n ≤ place := behind
    omega

/-- Several copies, none of which touches what is read. -/
theorem read_writeAll_away {copies : List (Nat × List UInt8)} (away : ∀ copy ∈ copies, Away copy offset n) :
    read (writeAll mem copies) offset n = read mem offset n := by
  induction copies generalizing mem with
  | nil => rfl
  | cons copy copies ih =>
      obtain ⟨place, src⟩ := copy
      rw [List.forall_mem_cons] at away
      rw [writeAll, ih away.2, read_write_away away.1]

theorem writeAll_append (mem : Memory) (copies more : List (Nat × List UInt8)) :
    writeAll mem (copies ++ more) = writeAll (writeAll mem copies) more := by
  induction copies generalizing mem with
  | nil => rfl
  | cons copy copies ih => exact ih _

/-- What is read is what the last copy to the place has brought. -/
theorem read_writeAll_last {copies : List (Nat × List UInt8)} {src : List UInt8} (i : Nat)
    (copy : copies[i]? = some (offset, src)) (width : src.length = n)
    (away : ∀ later ∈ copies.drop (i + 1), Away later offset n) : read (writeAll mem copies) offset n = src := by
  subst width
  obtain ⟨inside, here⟩ := List.getElem?_eq_some_iff.mp copy
  have split : copies = copies.take i ++ (offset, src) :: copies.drop (i + 1) := by
    rw [← here, List.getElem_cons_drop, List.take_append_drop]
  rw [split, writeAll_append, writeAll, read_writeAll_away away, read_write_self]

/-- Inside of what was copied, the copy is read as the original. -/
theorem read_copy (fresh mem : Memory) {size : Nat} (inside : offset + n ≤ size) :
    read (write fresh 0 (read mem 0 size)) offset n = read mem offset n := by
  have whole : read (write fresh 0 (read mem 0 size)) 0 size = read mem 0 size := by
    have copied := read_write_self fresh 0 (read mem 0 size)
    rwa [length_read] at copied
  have part := read_part (write fresh 0 (read mem 0 size)) 0 inside
  have original := read_part mem 0 inside
  rw [Nat.zero_add] at part original
  rw [part, original, whole]

end Reads

/-! ## Parts one behind another

Copies that each start where the one before ends, and reading them back.
-/

/-- Copies of the parts, one behind another from the offset on. -/
def consecutive : (offset : Nat) → List (List UInt8) → List (Nat × List UInt8)
  | _, [] => []
  | offset, part :: rest => (offset, part) :: consecutive (offset + part.length) rest

/-- The parts are found one behind another from the offset on. -/
def HoldsAt (mem : Memory) : (offset : Nat) → List (List UInt8) → Prop
  | _, [] => True
  | offset, part :: rest => read mem offset part.length = part ∧ HoldsAt mem (offset + part.length) rest

section Parts

variable {mem : Memory} {offset : Nat} {parts : List (List UInt8)}

/-- Every copy is between the start of the first and the end of the last. -/
theorem consecutive_bounds {copy : Nat × List UInt8} (member : copy ∈ consecutive offset parts) :
    offset ≤ copy.1 ∧ copy.1 + copy.2.length ≤ offset + parts.flatten.length := by
  induction parts generalizing offset with
  | nil => exact absurd member List.not_mem_nil
  | cons part rest ih =>
      rw [List.flatten_cons, List.length_append]
      rcases List.mem_cons.mp member with first | later
      · subst first
        have ends : offset + part.length ≤ offset + (part.length + rest.flatten.length) := by omega
        exact ⟨Nat.le_refl _, ends⟩
      · have bounds := ih later
        omega

/-- All bytes of the copies lie below a limit if and only if the parts end there. -/
theorem consecutive_inside_iff {limit : Nat} (start : offset ≤ limit) :
    (∀ copy ∈ consecutive offset parts, ∀ i < copy.2.length, copy.1 + i < limit) ↔
      offset + parts.flatten.length ≤ limit := by
  constructor
  · intro inside
    induction parts generalizing offset with
    | nil => exact start
    | cons part rest ih =>
        rw [consecutive, List.forall_mem_cons] at inside
        have ends : offset + part.length ≤ limit := by
          rcases Nat.eq_zero_or_pos part.length with none | some
          · rwa [none]
          · have last : offset + (part.length - 1) < limit := inside.1 (part.length - 1) (Nat.sub_one_lt_of_lt some)
            omega
        have whole := ih ends inside.2
        rw [List.flatten_cons, List.length_append]
        omega
  · intro ends copy member i before
    have bounds := consecutive_bounds member
    omega

/-- No part overwrites another. -/
theorem holdsAt_writeAll_consecutive (mem : Memory) (offset : Nat) (parts : List (List UInt8)) :
    HoldsAt (writeAll mem (consecutive offset parts)) offset parts := by
  induction parts generalizing mem offset with
  | nil => trivial
  | cons part rest ih =>
      refine ⟨?_, ih _ _⟩
      rw [consecutive, writeAll, read_writeAll_away, read_write_self]
      intro copy member
      exact Or.inr (consecutive_bounds member).1

/-- Fields that keep apart, in front of the parts, are all read back. -/
theorem read_field {fields : List (Nat × List UInt8)} {field : Nat × List UInt8}
    (apart : fields.Pairwise fun copy later => Away later copy.1 copy.2.length)
    (before : ∀ copy ∈ fields, copy.1 + copy.2.length ≤ offset) (member : field ∈ fields) :
    read (writeAll mem (fields ++ consecutive offset parts)) field.1 field.2.length = field.2 := by
  have inFront := before field member
  obtain ⟨front, behind, split⟩ := List.append_of_mem member
  rw [split] at apart
  have laterAway := (List.pairwise_cons.mp (List.pairwise_append.mp apart).2.1).1
  rw [split, writeAll_append, writeAll_append, read_writeAll_away, writeAll, read_writeAll_away laterAway,
    read_write_self]
  intro copy inParts
  exact Or.inr (Nat.le_trans inFront (consecutive_bounds inParts).1)

/-- Read at once, the parts are found joined. -/
theorem HoldsAt.read_flatten (holds : HoldsAt mem offset parts) :
    read mem offset parts.flatten.length = parts.flatten := by
  induction parts generalizing offset with
  | nil => rfl
  | cons part rest ih => rw [List.flatten_cons, List.length_append, read_add, holds.1, ih holds.2]

/-- A copy that reaches behind the parts holds them as well. -/
theorem HoldsAt.copy (fresh : Memory) {size : Nat} (inside : offset + parts.flatten.length ≤ size)
    (holds : HoldsAt mem offset parts) : HoldsAt (write fresh 0 (read mem 0 size)) offset parts := by
  induction parts generalizing offset with
  | nil => trivial
  | cons part rest ih =>
      rw [List.flatten_cons, List.length_append] at inside
      refine ⟨?_, ih (by omega) holds.2⟩
      rw [read_copy fresh mem (by omega)]
      exact holds.1

end Parts

/-! ## Structures

Where the compiler puts the fields of a structure.
-/

def alignUp (n alignment : Nat) : Nat := (n + alignment - 1) / alignment * alignment

/-- Where fields of the given sizes start. -/
def fieldOffsets : (start : Nat) → List Nat → List Nat
  | _, [] => []
  | start, size :: rest => alignUp start size :: fieldOffsets (alignUp start size + size) rest

def fieldsEnd : (start : Nat) → List Nat → Nat
  | start, [] => start
  | start, size :: rest => fieldsEnd (alignUp start size + size) rest

def offsetof (fields : List Nat) (i : Nat) : Nat := (fieldOffsets 0 fields).getD i 0

/-- The size of a structure, rounded up to its largest field. -/
def sizeof (fields : List Nat) : Nat := alignUp (fieldsEnd 0 fields) (fields.foldl max 1)

end GameServer.Lib
