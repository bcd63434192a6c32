/-
Module: GameServer.Lib.Delegation
Purpose: Tables that look up in a parent what they do not have themselves, with and without keeping a copy of what was
  found there, and exactly when the copies make no difference.
Trusted boundary: none
Main exports: Node, Node.set, resolve, lookup, assign, Inherits, Ordered, Kept, Copied, lookup_spec, copied_of_lookups,
  Inherits.exists_child, copied_assign_iff
-/
import Mathlib.Data.List.Basic
import Mathlib.Logic.Function.Basic

namespace GameServer.Lib.Delegation

open Function

/-- A table with its parent.  In a list of nodes the newest one comes first, and a node is named by the number of older
ones. -/
structure Node (κ ν : Type*) where
  parent : Option Nat
  entries : κ → Option ν

variable {κ ν : Type*}

/-! ## Lookups

A node that has no entry for a key asks its parent; `lookup` also keeps a copy of what the parent has given.
-/

/-- The entry of a node itself. -/
def entry : List (Node κ ν) → Nat → κ → Option ν
  | [], _, _ => none
  | node :: older, n, k => if n = older.length then node.entries k else entry older n k

/-- The entry of the node, or else the one that its parent has. -/
def resolve : List (Node κ ν) → Nat → κ → Option ν
  | [], _, _ => none
  | node :: older, n, k =>
      if n = older.length then
        match node.entries k with
        | some v => some v
        | none =>
            match node.parent with
            | some parent => resolve older parent k
            | none => none
      else resolve older n k

section Copying

variable [DecidableEq κ]

/-- The node with its entry for the key set, or taken away. -/
def Node.set (node : Node κ ν) (k : κ) (v : Option ν) : Node κ ν := { node with entries := update node.entries k v }

@[simp] theorem Node.set_parent (node : Node κ ν) (k : κ) (v : Option ν) : (node.set k v).parent = node.parent := rfl

@[simp] theorem Node.set_self (node : Node κ ν) (k : κ) (v : Option ν) : (node.set k v).entries k = v := by
  simp [Node.set]

theorem Node.set_of_ne (node : Node κ ν) {j k : κ} (v : Option ν) (other : j ≠ k) :
    (node.set k v).entries j = node.entries j := by
  simp [Node.set, other]

/-- The same, where each node on the way keeps a copy of what its parent has given. -/
def lookup : List (Node κ ν) → Nat → κ → Option ν × List (Node κ ν)
  | [], _, _ => (none, [])
  | node :: older, n, k =>
      if n = older.length then
        match node.entries k with
        | some v => (some v, node :: older)
        | none =>
            match node.parent with
            | some parent =>
                let (found, older') := lookup older parent k
                (found, node.set k found :: older')
            | none => (none, node :: older)
      else
        let (found, older') := lookup older n k
        (found, node :: older')

/-- An entry of a node is set, or taken away. -/
def assign : List (Node κ ν) → Nat → κ → Option ν → List (Node κ ν)
  | [], _, _, _ => []
  | node :: older, n, k, v =>
      if n = older.length then node.set k v :: older
      else node :: assign older n k v

end Copying

/-- The node `n` has no entry of its own for the key and gets the one of `c`. -/
def Inherits (k : κ) (c : Nat) : List (Node κ ν) → Nat → Prop
  | [], _ => False
  | node :: older, n =>
      if n = older.length then
        node.entries k = none ∧
          match node.parent with
          | some parent => parent = c ∨ Inherits k c older parent
          | none => False
      else Inherits k c older n

/-- Parents are older. -/
def Ordered : List (Node κ ν) → Prop
  | [] => True
  | node :: older => (∀ parent, node.parent = some parent → parent < older.length) ∧ Ordered older

/-! ## Small facts

Nodes are counted from the oldest one on, so the number of the newest one is the count of the others, and these do not
see it.
-/

section Facts

variable {node : Node κ ν} {older nodes : List (Node κ ν)} {n c : Nat} {k : κ} {v : Option ν}

@[simp] theorem entry_head : entry (node :: older) older.length k = node.entries k := if_pos rfl

theorem entry_of_length_le (beyond : nodes.length ≤ n) : entry nodes n k = none := by
  induction nodes with
  | nil => rfl
  | cons node older ih =>
      rw [List.length_cons] at beyond
      rw [entry, if_neg (by omega)]
      exact ih (by omega)

theorem entry_older (before : n ≠ older.length) : entry (node :: older) n k = entry older n k := if_neg before

theorem resolve_older (before : n ≠ older.length) : resolve (node :: older) n k = resolve older n k := if_neg before

theorem resolve_head_some {w : ν} (own : node.entries k = some w) : resolve (node :: older) older.length k = some w := by
  rw [resolve, if_pos rfl, own]

theorem resolve_head_parent {parent : Nat} (none : node.entries k = none) (has : node.parent = some parent) :
    resolve (node :: older) older.length k = resolve older parent k := by
  rw [resolve, if_pos rfl, none, has]

theorem resolve_head_root (none : node.entries k = none) (root : node.parent = Option.none) :
    resolve (node :: older) older.length k = Option.none := by
  rw [resolve, if_pos rfl, none, root]

/-- An entry of its own is what a node gives. -/
theorem resolve_of_entry {w : ν} (own : entry nodes n k = some w) : resolve nodes n k = some w := by
  induction nodes with
  | nil => cases own
  | cons node older ih =>
      by_cases here : n = older.length
      · subst here
        rw [entry_head] at own
        exact resolve_head_some own
      · rw [entry_older here] at own
        rw [resolve_older here]
        exact ih own

theorem inherits_head : Inherits k c (node :: older) older.length ↔
    node.entries k = none ∧ ∃ parent, node.parent = some parent ∧ (parent = c ∨ Inherits k c older parent) := by
  rw [Inherits, if_pos rfl]
  cases node.parent with
  | none => simp
  | some parent => simp

theorem inherits_older (before : n ≠ older.length) : Inherits k c (node :: older) n ↔ Inherits k c older n := by
  rw [Inherits, if_neg before]

/-- Only nodes that are there inherit. -/
theorem Inherits.lt (inherits : Inherits k c nodes n) : n < nodes.length := by
  induction nodes with
  | nil => exact absurd inherits id
  | cons node older ih =>
      by_cases here : n = older.length
      · rw [here]
        exact Nat.lt_succ_self _
      · exact Nat.lt_succ_of_lt (ih ((inherits_older here).mp inherits))

/-- Inherited entries come from older nodes. -/
theorem Inherits.ancestor_lt (ordered : Ordered nodes) (inherits : Inherits k c nodes n) : c < n := by
  induction nodes generalizing n with
  | nil => exact absurd inherits id
  | cons node rest ih =>
      by_cases here : n = rest.length
      · subst here
        obtain ⟨-, parent, has, same | above⟩ := inherits_head.mp inherits
        · exact same ▸ ordered.1 parent has
        · exact Nat.lt_trans (ih ordered.2 above) (ordered.1 parent has)
      · exact ih ordered.2 ((inherits_older here).mp inherits)

/-- What is inherited is what the ancestor gives. -/
theorem resolve_inherits (ordered : Ordered nodes) (inherits : Inherits k c nodes n) :
    resolve nodes n k = resolve nodes c k := by
  induction nodes generalizing n with
  | nil => exact absurd inherits id
  | cons node rest ih =>
      have before : c ≠ rest.length := by
        have less := inherits.ancestor_lt ordered
        have bound := inherits.lt
        rw [List.length_cons] at bound
        omega
      rw [resolve_older before]
      by_cases here : n = rest.length
      · subst here
        obtain ⟨none, parent, has, same | above⟩ := inherits_head.mp inherits
        · rw [resolve_head_parent none has, same]
        · rw [resolve_head_parent none has, ih ordered.2 above]
      · rw [resolve_older here]
        exact ih ordered.2 ((inherits_older here).mp inherits)

end Facts

/-! ## Copies

Copies are right as long as each of them is what the plain nodes give. A lookup adds right ones.
-/

/-- Every entry of the plain nodes is one of the copying nodes, and both have the same parents. -/
def Kept : List (Node κ ν) → List (Node κ ν) → Prop
  | [], [] => True
  | copying :: xs, plain :: ys =>
      copying.parent = plain.parent ∧ (∀ k v, plain.entries k = some v → copying.entries k = some v) ∧ Kept xs ys
  | _, _ => False

/-- Every entry of the copying nodes is what the plain ones give. -/
def Copied (xs ys : List (Node κ ν)) : Prop := ∀ n k v, entry xs n k = some v → resolve ys n k = some v

section Copies

variable {copying plain : Node κ ν} {xs ys : List (Node κ ν)} {n c : Nat} {k : κ} {v : Option ν}

theorem Kept.length (kept : Kept xs ys) : xs.length = ys.length := by
  induction xs generalizing ys with
  | nil =>
      cases ys with
      | nil => rfl
      | cons plain ys => exact absurd kept id
  | cons copying xs ih =>
      cases ys with
      | nil => exact absurd kept id
      | cons plain ys => exact congrArg Nat.succ (ih kept.2.2)

theorem copied_cons (kept : Kept xs ys) :
    Copied (copying :: xs) (plain :: ys) ↔
      (∀ k v, copying.entries k = some v → resolve (plain :: ys) ys.length k = some v) ∧ Copied xs ys := by
  have length := kept.length
  constructor
  · intro copied
    constructor
    · intro k v own
      rw [← length]
      apply copied
      rw [entry_head]
      exact own
    · intro n k v own
      have before : n ≠ xs.length := by
        rintro rfl
        rw [entry_of_length_le (Nat.le_refl _)] at own
        cases own
      have given := copied n k v (by rwa [entry_older before])
      rwa [resolve_older (length ▸ before)] at given
  · rintro ⟨head, rest⟩ n k v own
    by_cases here : n = xs.length
    · subst here
      rw [entry_head] at own
      rw [length]
      exact head k v own
    · rw [entry_older here] at own
      rw [resolve_older (length ▸ here)]
      exact rest n k v own

variable [DecidableEq κ]

/-- A lookup that copies gives what the plain nodes give, and only adds copies. -/
theorem lookup_spec (kept : Kept xs ys) (copied : Copied xs ys) (n : Nat) (k : κ) :
    (lookup xs n k).1 = resolve ys n k ∧ Kept (lookup xs n k).2 ys ∧ Copied (lookup xs n k).2 ys := by
  induction xs generalizing ys n with
  | nil =>
      cases ys with
      | nil => exact ⟨rfl, kept, copied⟩
      | cons plain ys => exact absurd kept id
  | cons copying xs ih =>
      cases ys with
      | nil => exact absurd kept id
      | cons plain ys =>
          obtain ⟨parents, own, keptRest⟩ := kept
          have length := keptRest.length
          obtain ⟨head, rest⟩ := (copied_cons keptRest).mp copied
          by_cases here : n = xs.length
          · subst here
            rw [lookup, if_pos rfl]
            cases has : copying.entries k with
            | some v =>
                rw [length]
                exact ⟨(head k v has).symm, ⟨parents, own, keptRest⟩, copied⟩
            | none =>
                have plainHas : plain.entries k = none := by
                  by_contra some
                  obtain ⟨v, isSome⟩ := Option.ne_none_iff_exists'.mp some
                  rw [own k v isSome] at has
                  cases has
                cases parent : copying.parent with
                | none =>
                    rw [length, resolve_head_root plainHas (parents ▸ parent)]
                    exact ⟨rfl, ⟨parents, own, keptRest⟩, copied⟩
                | some p =>
                    obtain ⟨found, keptNext, copiedNext⟩ := ih keptRest rest p
                    have given : resolve (plain :: ys) ys.length k = resolve ys p k :=
                      resolve_head_parent plainHas (parents ▸ parent)
                    rw [length, given]
                    refine ⟨found, ⟨parents, ?_, keptNext⟩,
                      (copied_cons keptNext).mpr ⟨?_, copiedNext⟩⟩
                    · intro j v isOwn
                      by_cases same : j = k
                      · subst same
                        rw [plainHas] at isOwn
                        cases isOwn
                      · rw [Node.set_of_ne _ _ same]
                        exact own j v isOwn
                    · intro j v isEntry
                      by_cases same : j = k
                      · subst same
                        rw [Node.set_self] at isEntry
                        rw [given, ← found, isEntry]
                      · rw [Node.set_of_ne _ _ same] at isEntry
                        exact head j v isEntry
          · obtain ⟨found, keptNext, copiedNext⟩ := ih keptRest rest n
            rw [lookup, if_neg here, resolve_older (length ▸ here)]
            exact ⟨found, ⟨parents, own, keptNext⟩, (copied_cons keptNext).mpr ⟨head, copiedNext⟩⟩

/-- What a node has is what a lookup gives. -/
theorem lookup_of_entry {w : ν} (own : entry xs n k = some w) : (lookup xs n k).1 = some w := by
  induction xs with
  | nil => cases own
  | cons copying xs ih =>
      by_cases here : n = xs.length
      · subst here
        rw [entry_head] at own
        rw [lookup, if_pos rfl, own]
      · rw [entry_older here] at own
        rw [lookup, if_neg here]
        exact ih own

/-- When lookups give what the plain nodes give, so do the copies. -/
theorem copied_of_lookups (agree : ∀ n k, (lookup xs n k).1 = resolve ys n k) : Copied xs ys := by
  intro n k v own
  rw [← agree, lookup_of_entry own]

end Copies

/-! ## New nodes

A node without entries changes nothing for the older ones.
-/

section NewNodes

variable {parent : Option Nat} {xs ys : List (Node κ ν)} {n c : Nat} {k : κ}

/-- A node without entries. -/
def Node.empty (parent : Option Nat) : Node κ ν where
  parent := parent
  entries := fun _ => none

theorem Kept.cons_empty (kept : Kept xs ys) : Kept (Node.empty parent :: xs) (Node.empty parent :: ys) :=
  ⟨rfl, fun _ _ own => own, kept⟩

theorem Copied.cons_empty (kept : Kept xs ys) (copied : Copied xs ys) :
    Copied (Node.empty parent :: xs) (Node.empty parent :: ys) := by
  apply (copied_cons kept).mpr
  constructor
  · intro k v own
    cases own
  · exact copied

/-- Only a node that is a parent is inherited from. -/
theorem Inherits.exists_child (inherits : Inherits k c ys n) : ∃ node ∈ ys, node.parent = some c := by
  induction ys generalizing n with
  | nil => exact absurd inherits id
  | cons node older ih =>
      by_cases here : n = older.length
      · subst here
        obtain ⟨-, parent, has, rfl | above⟩ := inherits_head.mp inherits
        · exact ⟨node, List.mem_cons_self, has⟩
        · obtain ⟨child, member, childHas⟩ := ih above
          exact ⟨child, List.mem_cons_of_mem node member, childHas⟩
      · obtain ⟨child, member, childHas⟩ := ih ((inherits_older here).mp inherits)
        exact ⟨child, List.mem_cons_of_mem node member, childHas⟩

end NewNodes

/-! ## Assignments

To set an entry changes what the node gives and what the nodes that inherit the key from it give, and nothing else.
-/

section Assignments

variable [DecidableEq κ] {node : Node κ ν} {older xs ys : List (Node κ ν)} {n c : Nat} {k j : κ} {v : Option ν}

theorem assign_head : assign (node :: older) older.length k v = node.set k v :: older := if_pos rfl

theorem assign_older (before : c ≠ older.length) : assign (node :: older) c k v = node :: assign older c k v :=
  if_neg before

@[simp] theorem assign_length : (assign ys c k v).length = ys.length := by
  induction ys with
  | nil => rfl
  | cons node older ih =>
      by_cases here : c = older.length
      · subst here
        rw [assign_head]
        rfl
      · rw [assign_older here, List.length_cons, ih, List.length_cons]

@[simp] theorem assign_parents : (assign ys c k v).map Node.parent = ys.map Node.parent := by
  induction ys with
  | nil => rfl
  | cons node older ih =>
      by_cases here : c = older.length
      · subst here
        rw [assign_head]
        rfl
      · rw [assign_older here, List.map_cons, ih, List.map_cons]

theorem entry_assign_self (bound : c < ys.length) : entry (assign ys c k v) c k = v := by
  induction ys with
  | nil => cases bound
  | cons node older ih =>
      by_cases here : c = older.length
      · subst here
        rw [assign_head, entry_head, Node.set_self]
      · rw [assign_older here, entry_older (by rwa [assign_length])]
        exact ih (Nat.lt_of_le_of_ne (Nat.le_of_lt_succ bound) here)

theorem entry_assign_of_ne (other : ¬ (n = c ∧ j = k)) : entry (assign ys c k v) n j = entry ys n j := by
  induction ys with
  | nil => rfl
  | cons node older ih =>
      by_cases assigned : c = older.length
      · subst assigned
        rw [assign_head]
        by_cases here : n = older.length
        · subst here
          rw [entry_head, entry_head, Node.set_of_ne _ _ fun same => other ⟨rfl, same⟩]
        · rw [entry_older here, entry_older here]
      · rw [assign_older assigned]
        by_cases here : n = older.length
        · rw [entry, entry, assign_length, if_pos here, if_pos here]
        · rw [entry_older (by rwa [assign_length]), entry_older here, ih]

theorem Ordered.assign (ordered : Ordered ys) : Ordered (assign ys c k v) := by
  induction ys with
  | nil => exact trivial
  | cons node older ih =>
      by_cases assigned : c = older.length
      · subst assigned
        rw [assign_head]
        exact ordered
      · rw [assign_older assigned]
        refine ⟨?_, ih ordered.2⟩
        rw [assign_length]
        exact ordered.1

/-- The entry is set on both sides. -/
theorem Kept.assign (kept : Kept xs ys) : Kept (assign xs c k v) (assign ys c k v) := by
  induction xs generalizing ys with
  | nil =>
      cases ys with
      | nil => exact kept
      | cons plain ys => exact absurd kept id
  | cons copying xs ih =>
      cases ys with
      | nil => exact absurd kept id
      | cons plain ys =>
          obtain ⟨parents, own, rest⟩ := kept
          by_cases assigned : c = xs.length
          · subst assigned
            rw [assign_head, rest.length, assign_head]
            refine ⟨parents, fun j w isOwn => ?_, rest⟩
            by_cases same : j = k
            · subst same
              rw [Node.set_self] at isOwn ⊢
              exact isOwn
            · rw [Node.set_of_ne _ _ same] at isOwn ⊢
              exact own j w isOwn
          · rw [assign_older assigned, assign_older (rest.length ▸ assigned)]
            exact ⟨parents, own, ih rest⟩

/-- Who inherits from a node does not depend on what the node has. -/
theorem inherits_assign (ordered : Ordered ys) : Inherits k c (assign ys c k v) n ↔ Inherits k c ys n := by
  induction ys generalizing n with
  | nil => rfl
  | cons node older ih =>
      by_cases assigned : c = older.length
      · -- nothing is newer than the node, so nothing inherits from it
        subst assigned
        rw [assign_head]
        have orderedSet : Ordered (node.set k v :: older) := ordered
        constructor
        · intro inherits
          have less := inherits.ancestor_lt orderedSet
          have bound := inherits.lt
          rw [List.length_cons] at bound
          omega
        · intro inherits
          have less := inherits.ancestor_lt ordered
          have bound := inherits.lt
          rw [List.length_cons] at bound
          omega
      · rw [assign_older assigned]
        by_cases here : n = older.length
        · rw [Inherits, Inherits, assign_length, if_pos here, if_pos here]
          cases node.parent with
          | none => rfl
          | some parent => exact and_congr_right fun _ => or_congr_right (ih ordered.2)
        · rw [inherits_older (by rwa [assign_length]), inherits_older here]
          exact ih ordered.2

/-- Other keys are not touched. -/
theorem resolve_assign_of_ne (other : j ≠ k) : resolve (assign ys c k v) n j = resolve ys n j := by
  induction ys generalizing n with
  | nil => rfl
  | cons node older ih =>
      by_cases assigned : c = older.length
      · subst assigned
        rw [assign_head]
        rw [resolve, resolve, Node.set_of_ne node v other, Node.set_parent]
      · rw [assign_older assigned, resolve, resolve, assign_length]
        simp only [ih]

/-- A node that does not inherit the key from the assigned one gives what it gave. -/
theorem resolve_assign_of_not_inherits (other : n ≠ c) (apart : ¬ Inherits k c ys n) :
    resolve (assign ys c k v) n k = resolve ys n k := by
  induction ys generalizing n with
  | nil => rfl
  | cons node older ih =>
      by_cases assigned : c = older.length
      · subst assigned
        rw [assign_head, resolve_older other, resolve_older other]
      · rw [assign_older assigned]
        by_cases here : n = older.length
        · subst here
          rw [resolve, resolve, assign_length, if_pos rfl, if_pos rfl]
          cases own : node.entries k with
          | some w => rfl
          | none =>
              cases has : node.parent with
              | none => rfl
              | some parent =>
                  have above : ¬ (parent = c ∨ Inherits k c older parent) := fun either =>
                    apart (inherits_head.mpr ⟨own, parent, has, either⟩)
                  rw [not_or] at above
                  exact ih above.1 above.2
        · rw [inherits_older here] at apart
          rw [resolve_older (by rwa [assign_length]), resolve_older here]
          exact ih other apart

/-- An assignment leaves the copies right exactly when each node that inherits the key and has a copy of it has a copy of
what it inherits afterwards. -/
theorem copied_assign_iff (ordered : Ordered ys) (kept : Kept xs ys) (copied : Copied xs ys) :
    Copied (assign xs c k v) (assign ys c k v) ↔
      ∀ n w, Inherits k c ys n → entry xs n k = some w → resolve (assign ys c k v) c k = some w := by
  constructor
  · intro after n w inherits isEntry
    have newer : c < n := inherits.ancestor_lt ordered
    rw [← resolve_inherits ordered.assign ((inherits_assign ordered).mpr inherits)]
    apply after
    rw [entry_assign_of_ne fun same => Nat.ne_of_gt newer same.1]
    exact isEntry
  · intro fresh n j w isEntry
    by_cases key : j = k
    · subst key
      by_cases here : n = c
      · subst here
        have bound : n < xs.length := by
          by_contra beyond
          rw [entry_of_length_le (by rw [assign_length]; omega)] at isEntry
          cases isEntry
        rw [entry_assign_self bound] at isEntry
        apply resolve_of_entry
        rw [entry_assign_self (kept.length ▸ bound)]
        exact isEntry
      · rw [entry_assign_of_ne fun same => here same.1] at isEntry
        by_cases inherits : Inherits j c ys n
        · rw [resolve_inherits ordered.assign ((inherits_assign ordered).mpr inherits)]
          exact fresh n w inherits isEntry
        · rw [resolve_assign_of_not_inherits here inherits]
          exact copied n j w isEntry
    · rw [entry_assign_of_ne fun same => key same.2] at isEntry
      rw [resolve_assign_of_ne key]
      exact copied n j w isEntry

end Assignments

end GameServer.Lib.Delegation
