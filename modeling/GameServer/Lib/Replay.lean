/-
Module: GameServer.Lib.Replay
Purpose: Records told from what they were by the changes made to them, with changes that were promised and
  are still under way.
Trusted boundary: none
Main exports: replay, replay_comm, entriesOf, Accounted, Accounted.change, Accounted.defer, Accounted.land,
  Accounted.settled
-/
import Mathlib.Data.List.Basic
import Mathlib.Data.Option.Basic

namespace GameServer.Lib

/-! ## Entries under keys

The part of a list that is about one key.
-/

section Entries

variable {κ β : Type*} [DecidableEq κ]

/-- What stands under the key, in its order. -/
def entriesOf (key : κ) (entries : List (κ × β)) : List β :=
  (entries.filter fun entry => entry.1 = key).map Prod.snd

@[simp] theorem entriesOf_nil (key : κ) : entriesOf key ([] : List (κ × β)) = [] := rfl

@[simp] theorem entriesOf_append (key : κ) (first second : List (κ × β)) :
    entriesOf key (first ++ second) = entriesOf key first ++ entriesOf key second := by
  simp [entriesOf]

theorem entriesOf_cons (key other : κ) (b : β) (rest : List (κ × β)) :
    entriesOf key ((other, b) :: rest) =
      if other = key then b :: entriesOf key rest else entriesOf key rest := by
  by_cases same : other = key
  · simp [entriesOf, same]
  · simp [entriesOf, same]

@[simp] theorem entriesOf_map_self (key : κ) (values : List β) :
    entriesOf key (values.map fun b => (key, b)) = values := by
  induction values with
  | nil => rfl
  | cons b rest ih => rw [List.map_cons, entriesOf_cons, if_pos rfl, ih]

theorem entriesOf_map_ne {key other : κ} (differs : other ≠ key) (values : List β) :
    entriesOf key (values.map fun b => (other, b)) = [] := by
  induction values with
  | nil => rfl
  | cons b rest ih => rw [List.map_cons, entriesOf_cons, if_neg differs, ih]

end Entries

/-! ## Replaying changes

A record after a list of changes, made one after the other.
-/

variable {ρ δ : Type*} (apply : ρ → δ → ρ)

/-- The record after the changes. -/
def replay (record : ρ) (changes : List δ) : ρ := changes.foldl apply record

@[simp] theorem replay_nil (record : ρ) : replay apply record [] = record := rfl

@[simp] theorem replay_cons (record : ρ) (c : δ) (changes : List δ) :
    replay apply record (c :: changes) = replay apply (apply record c) changes := rfl

theorem replay_append (record : ρ) (first second : List δ) :
    replay apply record (first ++ second) = replay apply (replay apply record first) second := by
  simp [replay]

/-- The change may be made before or after any other. -/
def Commutes (c : δ) : Prop := ∀ record d, apply (apply record c) d = apply (apply record d) c

variable {apply}

theorem Commutes.replay {c : δ} (commutes : Commutes apply c) (record : ρ) (changes : List δ) :
    replay apply (apply record c) changes = apply (replay apply record changes) c := by
  induction changes generalizing record with
  | nil => rfl
  | cons d changes ih => rw [replay_cons, commutes, ih, replay_cons]

/-- Changes that commute with all others may be left until the end. -/
theorem replay_comm {later : List δ} (commute : ∀ c ∈ later, Commutes apply c) (record : ρ)
    (changes : List δ) :
    replay apply (replay apply record later) changes =
      replay apply (replay apply record changes) later := by
  induction later generalizing record with
  | nil => rfl
  | cons c later ih =>
      have rest : ∀ c ∈ later, Commutes apply c := fun d hd => commute d (List.mem_cons_of_mem c hd)
      rw [replay_cons, ih rest, (commute c List.mem_cons_self).replay, replay_cons]

/-! ## Promised changes

A change may be promised before it is made. The lemmas are the steps of such a change: it is made at once, deferred,
or made later.
-/

variable (apply)

/-- The record is what it was before with the promised changes made, but for those still under way; where
there is no record, nothing was promised that is not under way. -/
structure Accounted (before : Option ρ) (promised : List δ) (now : Option ρ) (underWay : List δ) :
    Prop where
  replayed : before.map (replay apply · promised) = now.map (replay apply · underWay)
  known : now = none → underWay = [] → promised = []

namespace Accounted

variable {apply} {before now : Option ρ} {promised underWay : List δ}

theorem start (before : Option ρ) : Accounted apply before [] before [] :=
  ⟨rfl, fun _ _ => rfl⟩

/-- Changes are promised and made. -/
theorem change {record : ρ} (acc : Accounted apply before promised (some record) underWay)
    (commute : ∀ c ∈ underWay, Commutes apply c) (changes : List δ) :
    Accounted apply before (promised ++ changes) (some (replay apply record changes)) underWay := by
  constructor
  · have past : before.map (replay apply · promised) = some (replay apply record underWay) := acc.replayed
    calc before.map (replay apply · (promised ++ changes))
        = (before.map (replay apply · promised)).map (replay apply · changes) := by
          simp [replay_append, Function.comp_def]
      _ = some (replay apply (replay apply record underWay) changes) := by rw [past, Option.map_some]
      _ = some (replay apply (replay apply record changes) underWay) := by rw [replay_comm commute]
  · intro missing
    exact absurd missing (by simp)

/-- A change is promised. -/
theorem defer (acc : Accounted apply before promised now underWay) (c : δ) :
    Accounted apply before (promised ++ [c]) now (underWay ++ [c]) := by
  constructor
  · have both : ∀ (record : Option ρ) (changes : List δ), record.map (replay apply · (changes ++ [c])) =
        (record.map (replay apply · changes)).map (apply · c) := by
      intro record changes
      simp [replay_append, Function.comp_def]
    rw [both, both, acc.replayed]
  · intro _ none
    exact absurd none (by simp)

/-- The change that was promised first is made. -/
theorem land {c : δ} {record : ρ} (acc : Accounted apply before promised (some record) (c :: underWay)) :
    Accounted apply before promised (some (apply record c)) underWay := by
  constructor
  · exact acc.replayed
  · intro missing
    exact absurd missing (by simp)

/-- When nothing is under way, the record has every change. -/
theorem settled (acc : Accounted apply before promised now []) :
    now = before.map (replay apply · promised) ∧ (before = none → promised = []) := by
  have all : before.map (replay apply · promised) = now := by
    rw [acc.replayed]
    simp
  constructor
  · exact all.symm
  · intro none
    apply acc.known
    · rw [← all, none, Option.map_none]
    · rfl

end Accounted

end GameServer.Lib
