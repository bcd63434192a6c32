/-
Module: GameServer.Lib.MemoryBlock
Purpose: Blocks of memory with bounds: copies into a block and reads from it, which must stay inside, and what a
  read finds after a series of copies.
Trusted boundary: an access of no bytes is inside anywhere
Main exports: Block, InBounds, store, load, storeAll, Apart, storeAll_isSome_iff, load_storeAll_apart,
  load_storeAll_last
-/
import Mathlib.Data.List.Basic
import Mathlib.Tactic.Common

namespace GameServer.Lib

/-- The bytes of a block, from its start. -/
abbrev Block := List UInt8

/-- The `n` bytes from the offset on are in a block of the given size. -/
def InBounds (size : Nat) (offset : Int) (n : Nat) : Prop := n = 0 ∨ 0 ≤ offset ∧ offset + n ≤ size

instance (size : Nat) (offset : Int) (n : Nat) : Decidable (InBounds size offset n) :=
  inferInstanceAs (Decidable (_ ∨ _))

/-- `memcpy` to the offset; none when it would leave the block. -/
def store (block : Block) (offset : Int) (src : List UInt8) : Option Block :=
  if InBounds block.length offset src.length then
    some (block.take offset.toNat ++ src ++ block.drop (offset.toNat + src.length))
  else
    none

/-- The `n` bytes from the offset on; none when they are not all in the block. -/
def load (block : Block) (offset : Int) (n : Nat) : Option (List UInt8) :=
  if InBounds block.length offset n then some ((block.drop offset.toNat).take n) else none

/-- Copies, one after another. -/
def storeAll (block : Block) : List (Int × List UInt8) → Option Block
  | [] => some block
  | (offset, src) :: rest => (store block offset src).bind fun next => storeAll next rest

/-- The bytes of a copy and the `n` bytes from the offset on do not overlap. -/
def Apart (copy : Int × List UInt8) (offset : Int) (n : Nat) : Prop :=
  copy.2 = [] ∨ n = 0 ∨ copy.1 + copy.2.length ≤ offset ∨ offset + n ≤ copy.1

section Single

variable {block next : Block} {offset : Int} {src : List UInt8}

theorem store_of_inBounds (inside : InBounds block.length offset src.length) :
    store block offset src =
      some (block.take offset.toNat ++ src ++ block.drop (offset.toNat + src.length)) :=
  if_pos inside

theorem store_eq_some (stored : store block offset src = some next) :
    InBounds block.length offset src.length ∧
      next = block.take offset.toNat ++ src ++ block.drop (offset.toNat + src.length) := by
  unfold store at stored
  split at stored
  · next inside => exact ⟨inside, (Option.some.inj stored).symm⟩
  · exact absurd stored (by simp)

theorem length_store (stored : store block offset src = some next) : next.length = block.length := by
  obtain ⟨inside, rfl⟩ := store_eq_some stored
  rcases inside with empty | ⟨positive, fits⟩
  · have nothing : src = [] := List.length_eq_zero_iff.mp empty
    subst nothing
    simp
  · simp
    omega

/-- What was copied is read back. -/
theorem load_store_self (stored : store block offset src = some next) :
    load next offset src.length = some src := by
  have size := length_store stored
  obtain ⟨inside, rfl⟩ := store_eq_some stored
  unfold load
  rw [size, if_pos inside]
  rcases inside with empty | ⟨positive, fits⟩
  · have nothing : src = [] := List.length_eq_zero_iff.mp empty
    subst nothing
    simp
  · have front : (block.take offset.toNat).length = offset.toNat := by
      simp
      omega
    rw [List.append_assoc, List.drop_append_of_le_length (Nat.le_of_eq front.symm), List.drop_of_length_le
      (Nat.le_of_eq front), List.nil_append, List.take_left]

theorem getElem?_store (stored : store block offset src = some next) {i : Nat}
    (outside : (i : Int) < offset ∨ offset + src.length ≤ i ∨ src = []) : next[i]? = block[i]? := by
  obtain ⟨inside, rfl⟩ := store_eq_some stored
  by_cases nothing : src = []
  · subst nothing
    simp
  · have nonempty : src.length ≠ 0 := fun empty => nothing (List.length_eq_zero_iff.mp empty)
    obtain ⟨positive, fits⟩ := inside.resolve_left nonempty
    have front : (block.take offset.toNat).length = offset.toNat := by
      simp
      omega
    rw [List.append_assoc, List.getElem?_append, front]
    split
    · next before => rw [List.getElem?_take_of_lt before]
    · next behind =>
      have after : offset + src.length ≤ i := by
        rcases outside with less | after | empty
        · omega
        · exact after
        · exact absurd empty nothing
      rw [List.getElem?_append_right (by omega), List.getElem?_drop]
      congr 1
      omega

/-- A copy elsewhere does not change what is read. -/
theorem load_store_apart (stored : store block offset src = some next) {place : Int} {n : Nat}
    (apart : Apart (offset, src) place n) : load next place n = load block place n := by
  unfold load
  rw [length_store stored]
  split
  · next inside =>
    rcases inside with rfl | ⟨positive, fits⟩
    · simp
    · congr 1
      apply List.ext_getElem?
      intro i
      rw [List.getElem?_take, List.getElem?_take]
      split
      · rw [List.getElem?_drop, List.getElem?_drop]
        apply getElem?_store stored
        rcases apart with empty | none | before | behind
        · exact Or.inr (Or.inr empty)
        · omega
        · right
          left
          have le : offset + src.length ≤ place := before
          omega
        · left
          have le : place + n ≤ offset := behind
          omega
      · rfl
  · rfl

end Single

section Series

variable {block last : Block} {copies more : List (Int × List UInt8)}

theorem storeAll_append (block : Block) (copies more : List (Int × List UInt8)) :
    storeAll block (copies ++ more) = (storeAll block copies).bind fun next => storeAll next more := by
  induction copies generalizing block with
  | nil => rfl
  | cons copy copies ih =>
      obtain ⟨offset, src⟩ := copy
      change (store block offset src).bind _ = ((store block offset src).bind _).bind _
      rw [Option.bind_assoc]
      congr 1
      funext next
      exact ih next

theorem length_storeAll (stored : storeAll block copies = some last) : last.length = block.length := by
  induction copies generalizing block with
  | nil => exact congrArg List.length (Option.some.inj stored).symm
  | cons copy copies ih =>
      obtain ⟨offset, src⟩ := copy
      obtain ⟨next, first, rest⟩ := Option.bind_eq_some_iff.mp stored
      rw [ih rest, length_store first]

/-- A series of copies is made when each of them stays inside. -/
theorem storeAll_isSome_iff :
    (storeAll block copies).isSome ↔ ∀ copy ∈ copies, InBounds block.length copy.1 copy.2.length := by
  induction copies generalizing block with
  | nil => simp [storeAll]
  | cons copy copies ih =>
      obtain ⟨offset, src⟩ := copy
      rw [List.forall_mem_cons]
      constructor
      · intro stored
        obtain ⟨last, all⟩ := Option.isSome_iff_exists.mp stored
        obtain ⟨next, first, rest⟩ := Option.bind_eq_some_iff.mp all
        refine ⟨(store_eq_some first).1, ?_⟩
        rw [← length_store first]
        exact ih.mp (Option.isSome_iff_exists.mpr ⟨last, rest⟩)
      · rintro ⟨inside, others⟩
        have first := store_of_inBounds inside
        rw [← length_store first] at others
        change ((store block offset src).bind fun next => storeAll next copies).isSome
        rw [first]
        exact ih.mpr others

theorem inBounds_of_storeAll (stored : storeAll block copies = some last) :
    ∀ copy ∈ copies, InBounds block.length copy.1 copy.2.length :=
  storeAll_isSome_iff.mp (Option.isSome_iff_exists.mpr ⟨last, stored⟩)

/-- Copies elsewhere do not change what is read. -/
theorem load_storeAll_apart (stored : storeAll block copies = some last) {offset : Int} {n : Nat}
    (apart : ∀ copy ∈ copies, Apart copy offset n) : load last offset n = load block offset n := by
  induction copies generalizing block with
  | nil =>
      cases stored
      rfl
  | cons copy copies ih =>
      obtain ⟨place, src⟩ := copy
      obtain ⟨next, first, rest⟩ := Option.bind_eq_some_iff.mp stored
      rw [ih rest fun other member => apart other (List.mem_cons_of_mem _ member),
        load_store_apart first (apart _ List.mem_cons_self)]

/-- What is read is what the last copy to the place has brought. -/
theorem load_storeAll_last {offset : Int} {src : List UInt8}
    (stored : storeAll block (copies ++ (offset, src) :: more) = some last)
    (apart : ∀ copy ∈ more, Apart copy offset src.length) : load last offset src.length = some src := by
  rw [storeAll_append] at stored
  obtain ⟨before, _, rest⟩ := Option.bind_eq_some_iff.mp stored
  obtain ⟨next, here, after⟩ := Option.bind_eq_some_iff.mp rest
  rw [load_storeAll_apart after apart, load_store_self here]

end Series

end GameServer.Lib
