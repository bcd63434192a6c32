/-
Module: GameServer.Lib.Solvency
Purpose: An account whose movements are announced before they are made, with stakes that may still cost it: when
  neither the movements on their way nor the stakes can overdraw it.
Trusted boundary: none
Main exports: Affords, Affords.stake, Affords.announce, Affords.settle, Affords.richer, Affords.spend
-/
import Mathlib.Algebra.BigOperators.Group.List.Basic
import Mathlib.Data.List.Infix
import Mathlib.Tactic.Linarith

namespace GameServer.Lib

variable {K : Type*} [Field K] [LinearOrder K]

/-- What is there pays the cost, and stays enough for the movements on their way, one after the other, and for the
stakes behind them. -/
def Affords (funds : K) (announced : List K) (stakes cost : K) : Prop :=
  (∀ moves ∈ announced.inits, cost ≤ funds + moves.sum) ∧ stakes + cost ≤ funds + announced.sum

instance (funds : K) (announced : List K) (stakes cost : K) : Decidable (Affords funds announced stakes cost) :=
  inferInstanceAs (Decidable (_ ∧ _))

variable {funds stakes stakes' cost : K} {announced more : List K}

namespace Affords

theorem prefixes (affords : Affords funds announced stakes cost) {moves : List K} (isPrefix : moves <+: announced) :
    cost ≤ funds + moves.sum :=
  affords.1 moves ((List.mem_inits moves announced).mpr isPrefix)

theorem of_prefixes (early : ∀ moves, moves <+: announced → cost ≤ funds + moves.sum)
    (late : stakes + cost ≤ funds + announced.sum) : Affords funds announced stakes cost :=
  ⟨fun moves member => early moves ((List.mem_inits moves announced).mp member), late⟩

/-- An account that affords anything is not overdrawn. -/
theorem funds_nonneg (affords : Affords funds announced stakes 0) : 0 ≤ funds := by
  have now := affords.prefixes List.nil_prefix
  rw [List.sum_nil, add_zero] at now
  exact now

/-- Nothing is on its way, and nothing is at stake. -/
theorem idle (nonneg : 0 ≤ funds) : Affords funds [] 0 0 := by
  refine of_prefixes (fun moves isPrefix => ?_) ?_
  · rw [List.prefix_nil.mp isPrefix, List.sum_nil, add_zero]
    exact nonneg
  · rw [List.sum_nil, add_zero, add_zero]
    exact nonneg

/-- Stakes change, and stay within what is there in the end. -/
theorem stake (affords : Affords funds announced stakes 0) (covered : stakes' ≤ funds + announced.sum) :
    Affords funds announced stakes' 0 :=
  of_prefixes (fun _ isPrefix => affords.prefixes isPrefix) (by rwa [add_zero])

theorem fewer (affords : Affords funds announced stakes 0) (fewer : stakes' ≤ stakes) :
    Affords funds announced stakes' 0 := by
  apply affords.stake
  have late := affords.2
  rw [add_zero] at late
  exact fewer.trans late

variable [IsStrictOrderedRing K]

/-- Movements are announced: however many of them are made, they cost no more than is no longer at stake. -/
theorem announce (affords : Affords funds announced stakes 0) (nonneg : 0 ≤ stakes')
    (covered : ∀ moves, moves <+: more → stakes' ≤ stakes + moves.sum) :
    Affords funds (announced ++ more) stakes' 0 := by
  have late := affords.2
  rw [add_zero] at late
  refine of_prefixes (fun moves isPrefix => ?_) ?_
  · rcases List.prefix_or_prefix_of_prefix isPrefix (List.prefix_append announced more) with early | ⟨added, rfl⟩
    · exact affords.prefixes early
    · have cost := covered added ((List.prefix_append_right_inj announced).mp isPrefix)
      rw [List.sum_append]
      linarith
  · have cost := covered more (List.prefix_refl more)
    rw [List.sum_append]
    linarith

/-- The first of the announced movements are made. -/
theorem settle (affords : Affords funds (announced ++ more) stakes cost) :
    Affords (funds + announced.sum) more stakes cost := by
  have late := affords.2
  rw [List.sum_append] at late
  refine of_prefixes (fun moves isPrefix => ?_) (by linarith)
  have early := affords.prefixes ((List.prefix_append_right_inj announced).mpr isPrefix)
  rw [List.sum_append] at early
  linarith

/-- More is there. -/
theorem richer {funds' : K} (affords : Affords funds announced stakes cost) (more : funds ≤ funds') :
    Affords funds' announced stakes cost := by
  have late := affords.2
  refine of_prefixes (fun moves isPrefix => ?_) (by linarith)
  have early := affords.prefixes isPrefix
  linarith

/-- The cost is paid. -/
theorem spend (affords : Affords funds announced stakes cost) : Affords (funds - cost) announced stakes 0 := by
  have late := affords.2
  refine of_prefixes (fun moves isPrefix => ?_) (by linarith)
  have early := affords.prefixes isPrefix
  linarith

end Affords

end GameServer.Lib
