/-
Module: GameServer.Room.IdGenerator
Purpose: The id generator: its list is a permutation of all ids, and what it has and what it has handed out are all
  ids, none of them twice.
Trusted boundary: `math.random(m, n)` is a number from `m` to `n`
Main exports: IdGenerator, IdPool, idStep, map_take_out, drawIds_spec, newIds_eq, ids_partition
-/
import GameServer.Lib.Runs
import GameServer.Room.RoomManager

namespace GameServer.Room

open Lib

/-! ## The generator

Ids are drawn at random from a range, once and for all, by exchanging the drawn one with the last that is left.
-/

/-- `IdGenerator`, with bounds that its constructor accepts. -/
structure IdGenerator where
  nMin : Int
  nMax : Int
  nRange : Int
  tbIds : List Int

/-- The loop of `Init` from `i` on; `tabTemp` has the number that stands at a place where it does not stand for itself,
and `nTop` is the last place that is left. -/
def drawIds (random : Nat → Int) : Nat → Nat → Int → (Int → Option Int) → List Int → List Int
  | 0, _, _, _, tabRet => tabRet
  | turns + 1, i, nTop, tabTemp, tabRet =>
      let nRandResult := random i
      let nResult := (tabTemp nRandResult).getD nRandResult
      let tabTemp' :=
        if nRandResult ≠ nTop then Function.update tabTemp nRandResult (some ((tabTemp nTop).getD nTop)) else tabTemp
      drawIds random turns (i + 1) (nTop - 1) tabTemp' (tabRet ++ [nResult])

namespace IdGenerator

/-- `IdGenerator:new(nMin, nMax)`; none stands for an object without fields. -/
def new (random : Nat → Int) (nMin nMax : Int) : Option IdGenerator :=
  if nMin ≥ nMax then none
  else
    let nRange := nMax + 1 - nMin
    some
      { nMin := nMin
        nMax := nMax
        nRange := nRange
        tbIds := drawIds random nRange.toNat 1 nMax (fun _ => none) [] }

/-- `GetOne`. -/
def getOne (g : IdGenerator) : Option Int × IdGenerator :=
  match g.tbIds with
  | [] => (none, g)
  | nId :: ids => (some nId, { g with tbIds := ids })

/-- `Return`. -/
def returnId (g : IdGenerator) (nId : Int) : IdGenerator :=
  if nId ≥ g.nMin ∧ nId ≤ g.nMax then { g with tbIds := g.tbIds ++ [nId] } else g

end IdGenerator

/-! ## Init

After each turn what was drawn and what is left make up the range.
-/

/-- An array given as a function: when an entry is taken out and the one at the top is put in its place, the array
without its top has the other entries. -/
theorem map_take_out {ι α : Type*} [DecidableEq ι] (places : Finset ι) (array : ι → α) {drawn top : ι}
    (inside : drawn ∈ places) (isTop : top ∈ places) :
    places.val.map array =
      array drawn ::ₘ (places.erase top).val.map (Function.update array drawn (array top)) := by
  have split : ∀ (s : Finset ι) (f : ι → α) {i : ι}, i ∈ s → s.val.map f = f i ::ₘ (s.erase i).val.map f := by
    intro s f i member
    rw [Finset.erase_val, ← Multiset.map_cons, Multiset.cons_erase member]
  have others : ∀ (s : Finset ι) (x : α), drawn ∉ s → s.val.map (Function.update array drawn x) = s.val.map array := by
    intro s x outside
    apply Multiset.map_congr rfl
    intro i member
    have other : i ≠ drawn := by
      rintro rfl
      exact outside member
    exact Function.update_of_ne other ..
  by_cases same : drawn = top
  · subst same
    rw [others _ _ (Finset.notMem_erase _ _)]
    exact split places array inside
  · have below : drawn ∈ places.erase top := Finset.mem_erase.mpr ⟨same, inside⟩
    rw [split places array isTop, split (places.erase top) array below, split (places.erase top) _ below,
      Function.update_self, others _ _ (Finset.notMem_erase _ _)]
    exact Multiset.cons_swap ..

/-- The number that stands at a place. -/
def standsAt (tabTemp : Int → Option Int) (place : Int) : Int := (tabTemp place).getD place

/-- A range without its last number. -/
theorem erase_top {nMin nTop : Int} : (Finset.Icc nMin nTop).erase nTop = Finset.Icc nMin (nTop - 1) := by
  ext place
  rw [Finset.mem_erase, Finset.mem_Icc, Finset.mem_Icc]
  omega

/-- The loop draws what stands at the places that are left. -/
theorem drawIds_spec {random : Nat → Int} {nMin : Int} (turns i : Nat) (nTop : Int) (tabTemp : Int → Option Int)
    (tabRet : List Int) (left : nTop + 1 = nMin + turns)
    (drawn : ∀ k < turns, nMin ≤ random (i + k) ∧ random (i + k) ≤ nTop - k) :
    (drawIds random turns i nTop tabTemp tabRet : Multiset Int) =
      tabRet + (Finset.Icc nMin nTop).val.map (standsAt tabTemp) := by
  induction turns generalizing i nTop tabTemp tabRet with
  | zero =>
      have none : Finset.Icc nMin nTop = ∅ := Finset.Icc_eq_empty (by omega)
      simp [drawIds, none]
  | succ turns ih =>
      have first := drawn 0 (by omega)
      rw [Nat.add_zero] at first
      have rest : ∀ k < turns, nMin ≤ random (i + 1 + k) ∧ random (i + 1 + k) ≤ nTop - 1 - k := by
        intro k below
        have later := drawn (k + 1) (by omega)
        rw [show i + 1 + k = i + (k + 1) by omega]
        omega
      have inside : random i ∈ Finset.Icc nMin nTop := Finset.mem_Icc.mpr (by omega)
      have isTop : nTop ∈ Finset.Icc nMin nTop := Finset.mem_Icc.mpr (by omega)
      rw [drawIds, ih _ _ _ _ (by omega) rest, map_take_out _ (standsAt tabTemp) inside isTop, erase_top]
      -- below the top, the table is the array with the top number at the place that was drawn
      have moved : (Finset.Icc nMin (nTop - 1)).val.map (standsAt (if random i ≠ nTop then
            Function.update tabTemp (random i) (some ((tabTemp nTop).getD nTop)) else tabTemp)) =
          (Finset.Icc nMin (nTop - 1)).val.map
            (Function.update (standsAt tabTemp) (random i) (standsAt tabTemp nTop)) := by
        apply Multiset.map_congr rfl
        intro place member
        have below : place ≤ nTop - 1 := (Finset.mem_Icc.mp member).2
        by_cases here : place = random i
        · subst here
          rw [Function.update_self, if_pos (by omega), standsAt, Function.update_self]
          rfl
        · rw [Function.update_of_ne here]
          split
          · rw [standsAt, Function.update_of_ne here]
            rfl
          · rfl
      rw [moved, ← Multiset.coe_add, add_assoc, Multiset.coe_singleton, Multiset.singleton_add]
      rfl

/-- The list that `RoomManager` makes of its bounds is that of this generator. -/
theorem drawIds_eq_initIds (raw : Nat → Nat) (random : Nat → Int) (nMin turns i nTop : Nat) (temp : Nat → Option Nat)
    (tabTemp : Int → Option Int) (tabRet : List Int) (left : nTop + 1 = nMin + turns ∨ turns = 0)
    (same : ∀ place : Nat, tabTemp place = (temp place).map Int.ofNat)
    (drawn : ∀ k < turns, random (i + k) = mathRandom (raw (turns - 1 - k)) nMin (nTop - k)) :
    drawIds random turns i nTop tabTemp tabRet =
      tabRet ++ (initIds raw nMin turns nTop temp).map Int.ofNat := by
  induction turns generalizing i nTop temp tabTemp tabRet with
  | zero => simp [drawIds, initIds]
  | succ turns ih =>
      have first := drawn 0 (by omega)
      simp only [Nat.add_zero, Nat.sub_zero, Nat.add_sub_cancel] at first
      have placed : ∀ place : Nat, (tabTemp place).getD place = Int.ofNat ((temp place).getD place) := by
        intro place
        rw [same]
        cases temp place <;> rfl
      obtain ⟨place, placeEq⟩ : ∃ place, mathRandom (raw turns) nMin nTop = place := ⟨_, rfl⟩
      rw [placeEq] at first
      have answer : (tabTemp (random i)).getD (random i) = Int.ofNat ((temp place).getD place) := by
        rw [first]
        exact placed place
      rw [drawIds, initIds, placeEq]
      rw [answer, first, placed nTop, List.map_cons]
      conv_rhs => rw [List.append_cons]
      have nextTop : turns = 0 ∨ (nTop : Int) - 1 = (nTop - 1 : Nat) := by omega
      rcases nextTop with rfl | nextTop
      · simp [drawIds, initIds]
      rw [nextTop]
      apply ih
      · omega
      · intro other
        by_cases top : place = nTop
        · simp [top, same]
        · have topInt : (place : Int) ≠ nTop := by exact_mod_cast top
          rw [if_pos topInt, if_pos top]
          by_cases here : other = place
          · rw [here, Function.update_self, Function.update_self]
            rfl
          · have hereInt : (other : Int) ≠ place := by exact_mod_cast here
            rw [Function.update_of_ne hereInt, Function.update_of_ne here, same]
      · intro k below
        have later := drawn (k + 1) (by omega)
        rw [show i + 1 + k = i + (k + 1) by omega, later]
        congr 2
        · congr 1
          omega
        · omega

/-- The tables' ids are drawn by this generator. -/
theorem newIds_eq (raw : Nat → Nat) {nMin nMax : Nat} (ordered : nMin < nMax) :
    IdGenerator.new (fun i => mathRandom (raw (nMax - nMin - (i - 1))) nMin (nMax - (i - 1))) nMin nMax =
      some
        { nMin := nMin
          nMax := nMax
          nRange := nMax + 1 - nMin
          tbIds := (newIds raw nMin nMax).map Int.ofNat } := by
  have range : ((nMax : Int) + 1 - nMin).toNat = nMax + 1 - nMin := by omega
  rw [IdGenerator.new, if_neg (by omega)]
  dsimp only
  rw [range, newIds, drawIds_eq_initIds raw _ nMin (nMax + 1 - nMin) 1 nMax (fun _ => none) _ _ (by omega)]
  · rw [List.nil_append]
  · intro _
    rfl
  · intro k below
    have turn : nMax - nMin - (1 + k - 1) = nMax + 1 - nMin - 1 - k := by omega
    have top : nMax - (1 + k - 1) = nMax - k := by omega
    rw [turn, top]

/-! ## Ids handed out

Ids wander between the generator and those who have them.
-/

/-- A generator, and the ids that are handed out. -/
structure IdPool where
  generator : IdGenerator
  handedOut : List Int

inductive IdCall where
  | getOne
  | returnId (nId : Int)

/-- Only ids that are handed out are returned. -/
def idStep (pool : IdPool) : IdCall → Option IdPool
  | .getOne =>
      some
        { generator := pool.generator.getOne.2
          handedOut := pool.generator.getOne.1.toList ++ pool.handedOut }
  | .returnId nId =>
      if nId ∈ pool.handedOut then
        some
          { generator := pool.generator.returnId nId
            handedOut := pool.handedOut.erase nId }
      else
        none

/-- The ids of the generator and those that are handed out are the numbers from `nMin` to `nMax`, each once, and the
next call of `GetOne` answers nil only when all of them are handed out. -/
structure Partition (nMin nMax : Int) (pool : IdPool) : Prop where
  nodup : (pool.generator.tbIds ++ pool.handedOut).Nodup
  ids : ∀ nId, nId ∈ pool.generator.tbIds ++ pool.handedOut ↔ nMin ≤ nId ∧ nId ≤ nMax
  nilAtEnd : pool.generator.getOne.1 = none → ∀ nId, nMin ≤ nId → nId ≤ nMax → nId ∈ pool.handedOut

/-- All ids are somewhere, once. -/
structure AllIds (nMin nMax : Int) (pool : IdPool) : Prop where
  bounds : pool.generator.nMin = nMin ∧ pool.generator.nMax = nMax
  ids : (pool.generator.tbIds + pool.handedOut : Multiset Int) = (Finset.Icc nMin nMax).val

variable {nMin nMax : Int} {pool pool' : IdPool}

/-- What the invariant says of the ids. -/
theorem AllIds.partition (all : AllIds nMin nMax pool) : Partition nMin nMax pool := by
  have ids := all.ids
  rw [Multiset.coe_add] at ids
  have member : ∀ nId, nId ∈ pool.generator.tbIds ++ pool.handedOut ↔ nMin ≤ nId ∧ nId ≤ nMax := by
    intro nId
    rw [← Multiset.mem_coe, ids, Finset.mem_val, Finset.mem_Icc]
  constructor
  · rw [← Multiset.coe_nodup, ids]
    exact (Finset.Icc nMin nMax).nodup
  · exact member
  · intro isNil nId low high
    have empty : pool.generator.tbIds = [] := by
      unfold IdGenerator.getOne at isNil
      split at isNil
      · assumption
      · exact absurd isNil (by simp)
    have known := (member nId).mpr ⟨low, high⟩
    rwa [empty, List.nil_append] at known

/-- One call keeps all ids. -/
theorem AllIds.step {call : IdCall} (all : AllIds nMin nMax pool) (step : idStep pool call = some pool') :
    AllIds nMin nMax pool' := by
  obtain ⟨⟨low, high⟩, ids⟩ := all
  cases call with
  | getOne =>
      cases step
      unfold IdGenerator.getOne
      split
      · exact ⟨⟨low, high⟩, ids⟩
      next nId rest front =>
        refine ⟨⟨low, high⟩, ?_⟩
        rw [front] at ids
        rw [← ids]
        change (rest + (nId :: pool.handedOut : List Int) : Multiset Int) = (nId :: rest : List Int) + pool.handedOut
        rw [← Multiset.cons_coe, ← Multiset.cons_coe, Multiset.add_cons, Multiset.cons_add]
  | returnId nId =>
      obtain ⟨member, step⟩ := Option.ite_none_right_eq_some.mp step
      cases step
      have known : nId ∈ (Finset.Icc nMin nMax).val := by
        rw [← ids]
        exact Multiset.mem_add.mpr (Or.inr member)
      have range := Finset.mem_Icc.mp (Finset.mem_val.mp known)
      have accepted : pool.generator.returnId nId =
          { pool.generator with tbIds := pool.generator.tbIds ++ [nId] } := by
        rw [IdGenerator.returnId, if_pos]
        omega
      rw [accepted]
      refine ⟨⟨low, high⟩, ?_⟩
      rw [← ids]
      change ((pool.generator.tbIds ++ [nId] : List Int) + (pool.handedOut.erase nId : List Int) : Multiset Int) = _
      rw [← Multiset.coe_add, add_assoc, Multiset.coe_singleton, Multiset.singleton_add, ← Multiset.coe_erase,
        Multiset.cons_erase member]

/-- **Unique ids.** `Init` makes a list with every number from `nMin` to `nMax` once, and after any calls of `GetOne`
and `Return` with ids that were handed out, the ids in the list and those handed out are these numbers. -/
theorem ids_partition (nMin nMax : Int) (ordered : nMin < nMax) (random : Nat → Int)
    (drawn : ∀ i : Nat, 1 ≤ i → (i : Int) ≤ nMax + 1 - nMin → nMin ≤ random i ∧ random i ≤ nMax + 1 - i) :
    ∃ generator, IdGenerator.new random nMin nMax = some generator ∧
      generator.tbIds.Nodup ∧ (∀ nId, nId ∈ generator.tbIds ↔ nMin ≤ nId ∧ nId ≤ nMax) ∧
      ∀ calls pool, runSteps idStep ⟨generator, []⟩ calls = some pool → Partition nMin nMax pool := by
  have ids := @drawIds_spec random nMin (nMax + 1 - nMin).toNat 1 nMax (fun _ => none) []
    (by omega) (by
      intro k below
      have inRange := drawn (1 + k) (by omega) (by push_cast; omega)
      push_cast at inRange
      omega)
  have all : AllIds nMin nMax ⟨⟨nMin, nMax, nMax + 1 - nMin,
      drawIds random (nMax + 1 - nMin).toNat 1 nMax (fun _ => none) []⟩, []⟩ := by
    refine ⟨⟨rfl, rfl⟩, ?_⟩
    change (drawIds random (nMax + 1 - nMin).toNat 1 nMax (fun _ => none) [] + ([] : List Int) : Multiset Int) = _
    have itself : standsAt (fun _ => none) = id := rfl
    rw [ids, itself]
    simp
  refine ⟨_, by rw [IdGenerator.new, if_neg (by omega)], ?_, ?_, ?_⟩
  · simpa using all.partition.nodup
  · simpa using all.partition.ids
  · intro calls pool run
    exact (runSteps_invariant (fun _ _ _ inv step => AllIds.step inv step) all run).partition

/-- Three ids, with the lowest place drawn each time. -/
theorem ids_partition_three :
    ∃ generator, IdGenerator.new (fun _ => 3) 3 5 = some generator ∧
      generator.tbIds.Nodup ∧ (∀ nId, nId ∈ generator.tbIds ↔ 3 ≤ nId ∧ nId ≤ 5) ∧
      ∀ calls pool, runSteps idStep ⟨generator, []⟩ calls = some pool → Partition 3 5 pool :=
  ids_partition 3 5 (by decide) (fun _ => 3) (fun i low high => by omega)

end GameServer.Room
