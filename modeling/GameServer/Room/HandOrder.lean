/-
Module: GameServer.Room.HandOrder
Purpose: `CompareCard` as an order: hands are compared by their strength, the points of the bull and then the
  highest card, and the odds follow the winner.
Trusted boundary: a card code is a natural number
Main exports: strength, compareCard_wins_iff, compareCard_odds, compareCard_order
-/
import GameServer.Room.BullPoints

namespace GameServer.Room

/-! ## Strength

Hands are compared by their points and then by their highest card.
-/

/-- What a hand is compared by: its points, none without a bull, and the highest card. -/
def strength (tbCard : List Nat) : Nat ×ₗ Nat := toLex (getBullPoint tbCard).2

/-- A hand has points exactly when it has a bull. -/
theorem points_pos_iff (tbCard : List Nat) : 0 < (getBullPoint tbCard).2.1 ↔ (getBullPoint tbCard).1 = true := by
  unfold getBullPoint
  dsimp only
  split
  · simp only [iff_true]
    split <;> omega
  · simp

/-- All branches of `CompareCard` compare strengths: hands without a bull have the same points. -/
theorem compareCard_wins_iff (odds : Nat → ℚ) (tbCard1 tbCard2 : List Nat) :
    (compareCard odds tbCard1 tbCard2).1 = true ↔ strength tbCard2 < strength tbCard1 := by
  have pos1 := points_pos_iff tbCard1
  have pos2 := points_pos_iff tbCard2
  unfold strength compareCard
  rw [Prod.Lex.toLex_lt_toLex]
  generalize getBullPoint tbCard1 = points1 at pos1 ⊢
  generalize getBullPoint tbCard2 = points2 at pos2 ⊢
  obtain ⟨bIsBull1, nBullPoint1, nMaxCard1⟩ := points1
  obtain ⟨bIsBull2, nBullPoint2, nMaxCard2⟩ := points2
  dsimp only at pos1 pos2 ⊢
  have answer : ∀ (wins : Bool) (x y : ℚ), (if wins then (true, x) else (false, y)).1 = wins := by
    intro wins x y
    cases wins <;> rfl
  rw [answer]
  cases bIsBull1 <;> cases bIsBull2
  · simp only [Bool.false_eq_true, iff_false] at pos1 pos2
    simp
    omega
  · simp only [Bool.false_eq_true, iff_false, iff_true] at pos1 pos2
    simp
    omega
  · simp only [Bool.false_eq_true, iff_false, iff_true] at pos1 pos2
    simp
    omega
  · by_cases same : nBullPoint1 = nBullPoint2
    · simp [same]
    · simp [same]
      omega

/-- The odds are those for the points of the winner, for the first hand when it wins and against it otherwise. -/
theorem compareCard_odds (odds : Nat → ℚ) (tbCard1 tbCard2 : List Nat) :
    (compareCard odds tbCard1 tbCard2).2 =
      if (compareCard odds tbCard1 tbCard2).1 then odds (getBullPoint tbCard1).2.1
      else odds (getBullPoint tbCard2).2.1 * (-1) := by
  have answer : ∀ (wins : Bool) (x y : ℚ), (if wins then (true, x) else (false, y)).2 =
      if (if wins then (true, x) else (false, y)).1 then x else y := by
    intro wins x y
    cases wins <;> rfl
  exact answer _ _ _

/-- Hands without a common card have different highest cards. -/
theorem strength_ne {first second : List Nat} (five : first.length = 5) (five' : second.length = 5)
    (disjoint : first.Disjoint second) : strength first ≠ strength second := by
  intro same
  obtain ⟨_, nMaxCard, -, ⟨member, -⟩, answer⟩ := getBullPoint_spec five
  obtain ⟨_, nMaxCard', -, ⟨member', -⟩, answer'⟩ := getBullPoint_spec five'
  have highest : nMaxCard = nMaxCard' := by
    have cards := congrArg (fun points => (ofLex points).2) same
    simpa [strength, answer, answer'] using cards
  exact disjoint member (highest ▸ member')

/-! ## The order

Comparing by strength is a strict order on hands without a common card, since these have different highest cards.
-/

/-- `CompareCard` orders the three hands strictly, its odds tell the winner, and a bull beats a hand without. -/
structure StrictComparison (odds : Nat → ℚ) (a b c : List Nat) : Prop where
  oneWins : (compareCard odds a b).1 = true ↔ (compareCard odds b a).1 = false
  negated : (compareCard odds a b).2 = -(compareCard odds b a).2
  signed : 0 < (compareCard odds a b).2 ↔ (compareCard odds a b).1 = true
  transitive : (compareCard odds a b).1 = true → (compareCard odds b c).1 = true → (compareCard odds a c).1 = true
  bullWins : (getBullPoint a).1 = true → (getBullPoint b).1 = false → (compareCard odds a b).1 = true

/-- Hands of five cards of which the first two have no common card are ordered strictly. -/
theorem compareCard_order (odds : Nat → ℚ) (positive : ∀ point ≤ 10, 0 < odds point) (a b c : List Nat)
    (fiveA : a.length = 5) (fiveB : b.length = 5) (disjoint : a.Disjoint b) : StrictComparison odds a b c := by
  have oneWins : (compareCard odds a b).1 = true ↔ (compareCard odds b a).1 = false := by
    rw [← Bool.not_eq_true, compareCard_wins_iff, compareCard_wins_iff]
    constructor
    · exact lt_asymm
    · intro notLess
      exact lt_of_le_of_ne (not_lt.mp notLess) (strength_ne fiveA fiveB disjoint).symm
  constructor
  · exact oneWins
  · rw [compareCard_odds odds a b, compareCard_odds odds b a]
    cases wins : (compareCard odds a b).1 with
    | true => simp [oneWins.mp wins]
    | false =>
        have other : (compareCard odds b a).1 = true := by
          rw [wins] at oneWins
          simpa using oneWins
        simp [other]
  · rw [compareCard_odds odds a b]
    cases (compareCard odds a b).1 with
    | true => simpa using positive _ (getBullPoint_le a)
    | false =>
        have loser := positive _ (getBullPoint_le b)
        simpa using loser.le
  · simp only [compareCard_wins_iff]
    intro first second
    exact second.trans first
  · intro bull noBull
    rw [compareCard_wins_iff, strength, strength, Prod.Lex.toLex_lt_toLex]
    have none : ¬ 0 < (getBullPoint b).2.1 := by
      rw [points_pos_iff, noBull]
      decide
    have some := (points_pos_iff a).mpr bull
    exact Or.inl (by omega)

/-- Ten points, nine points, and no bull. -/
theorem compareCard_order_tens : StrictComparison (fun _ => 1) [0x0A, 0x0B, 0x0C, 0x0D, 0x1A]
    [0x1B, 0x1C, 0x1D, 0x04, 0x05] [0x01, 0x11, 0x21, 0x31, 0x02] :=
  compareCard_order (fun _ => 1) (fun _ _ => one_pos) _ _ _ rfl rfl (List.disjoint_left.mpr (by decide))

end GameServer.Room
