/-
Module: GameServer.Room.Cards
Purpose: The cards of the bull-fighting game: the shuffler that deals five hands, and the card helper
  that compares two of them.
Trusted boundary: `math.random(m, n)` is a number from `m` to `n`, taken from a given sequence of raw
  numbers; the odds table comes from `dev_share` and is a parameter
Main exports: BullFightingShuffler, shuffle, getBullPoint, compareCard
-/
import Mathlib

namespace GameServer.Room

/-- `math.random(m, n)`, made from a raw number. -/
def mathRandom (raw m n : Nat) : Nat := m + raw % (n + 1 - m)

/-! ## The shuffler

`Shuffle` exchanges cards in place and then deals from the front, so the pack stays as it is but for its order.
-/

/-- `BullFightingShuffler`: the pack, and the hands dealt last. -/
structure BullFightingShuffler where
  tbGameCard : List Nat
  tbShufflerResult : Option (List (List Nat))
deriving DecidableEq

/-- `m_tbCommonCard`. -/
def commonCard : List Nat :=
  [0x01, 0x02, 0x03, 0x04, 0x05, 0x06, 0x07, 0x08, 0x09, 0x0A, 0x0B, 0x0C, 0x0D,
   0x11, 0x12, 0x13, 0x14, 0x15, 0x16, 0x17, 0x18, 0x19, 0x1A, 0x1B, 0x1C, 0x1D,
   0x21, 0x22, 0x23, 0x24, 0x25, 0x26, 0x27, 0x28, 0x29, 0x2A, 0x2B, 0x2C, 0x2D,
   0x31, 0x32, 0x33, 0x34, 0x35, 0x36, 0x37, 0x38, 0x39, 0x3A, 0x3B, 0x3C, 0x3D,
   0x4E, 0x4F]

namespace BullFightingShuffler

/-- `BullFightingShuffler:new(bNeedJoker)`: without jokers the last two cards are removed. -/
def new (bNeedJoker : Bool) : BullFightingShuffler where
  tbGameCard := if bNeedJoker then commonCard else commonCard.dropLast.dropLast
  tbShufflerResult := none

/-- One turn of the first loop of `Shuffle`: the cards at `i` and at a random place are exchanged. -/
def swapCard (raw : Nat) (i : Nat) (cards : List Nat) : List Nat :=
  let nTempIndex := mathRandom raw 1 cards.length
  if i ≠ nTempIndex then
    (cards.set (nTempIndex - 1) (cards.getD (i - 1) 0)).set (i - 1) (cards.getD (nTempIndex - 1) 0)
  else
    cards

/-- The first loop of `Shuffle`, from `i` for the given number of turns. -/
def swapCards (random : Nat → Nat) : Nat → Nat → List Nat → List Nat
  | 0, _, cards => cards
  | turns + 1, i, cards => swapCards random turns (i + 1) (swapCard (random (i - 1)) i cards)

/-- The second loop of `Shuffle`: hand after hand is dealt from the front. -/
def deal (nSingleCount : Nat) : Nat → List Nat → List (List Nat)
  | 0, _ => []
  | hands + 1, cards => cards.take nSingleCount :: deal nSingleCount hands (cards.drop nSingleCount)

/-- `Shuffle`, with raw numbers for `math.random`. -/
def shuffle (random : Nat → Nat) (nTotolPlayer nSingleCount : Nat) (s : BullFightingShuffler) :
    BullFightingShuffler :=
  if nTotolPlayer ≤ 0 then s
  else if nSingleCount ≤ 0 then s
  else if nTotolPlayer * nSingleCount > s.tbGameCard.length then s
  else
    let cards := swapCards random s.tbGameCard.length 1 s.tbGameCard
    { tbGameCard := cards, tbShufflerResult := some (deal nSingleCount nTotolPlayer cards) }

@[simp] theorem length_swapCard (raw i : Nat) (cards : List Nat) :
    (swapCard raw i cards).length = cards.length := by
  unfold swapCard
  simp only
  split <;> simp

@[simp] theorem length_swapCards (random : Nat → Nat) (turns i : Nat) (cards : List Nat) :
    (swapCards random turns i cards).length = cards.length := by
  induction turns generalizing i cards with
  | zero => rfl
  | succ turns ih => rw [swapCards, ih, length_swapCard]

@[simp] theorem length_deal (nSingleCount hands : Nat) (cards : List Nat) :
    (deal nSingleCount hands cards).length = hands := by
  induction hands generalizing cards with
  | zero => rfl
  | succ hands ih => rw [deal, List.length_cons, ih]

/-- The hands that a pack with enough cards gives. -/
theorem shuffle_spec (random : Nat → Nat) {players single : Nat} {s : BullFightingShuffler}
    (some : 0 < players) (cards : 0 < single) (enough : players * single ≤ s.tbGameCard.length) :
    (s.shuffle random players single).tbGameCard.length = s.tbGameCard.length ∧
      ∃ hands, (s.shuffle random players single).tbShufflerResult = .some hands ∧
        hands.length = players := by
  unfold shuffle
  rw [if_neg (by omega), if_neg (by omega), if_neg (by omega)]
  exact ⟨length_swapCards .., _, rfl, length_deal ..⟩

end BullFightingShuffler

/-! ## The card helper

The points of a hand, and which of two hands wins.
-/

/-- `GetPoint`. -/
def getPoint (nCard : Nat) : Nat := nCard &&& 0x0F

/-- `IsTenPointCard`. -/
def isTenPointCard (nCard : Nat) : Bool := (nCard &&& 0x08) > 0 && (nCard &&& 0x06) > 0

/-- `IsBull`: the first three of the five points that add up to a multiple of ten, in the order of the
three loops, with their sum; without such three the sum of the last three. -/
def isBull (points : List Nat) : Bool × Nat :=
  let triples := [(0, 1, 2), (0, 1, 3), (0, 1, 4), (0, 2, 3), (0, 2, 4), (0, 3, 4), (1, 2, 3),
    (1, 2, 4), (1, 3, 4), (2, 3, 4)]
  let sum := fun (t : Nat × Nat × Nat) =>
    points.getD t.1 0 + points.getD t.2.1 0 + points.getD t.2.2 0
  match triples.find? fun t => sum t % 10 = 0 with
  | some t => (true, sum t)
  | none => (false, sum (2, 3, 4))

/-- `GetBullPoint`: whether there is a bull, its points, and the highest card. -/
def getBullPoint (tbCard : List Nat) : Bool × Nat × Nat :=
  let points := tbCard.map fun nCard => if isTenPointCard nCard then 10 else getPoint nCard
  let nMaxCard := tbCard.foldl (fun best nCard => if nCard > best then nCard else best) 0
  let (bIsBull, nTotalTenPoint) := isBull points
  if bIsBull then
    let nBullPoint := (points.sum - nTotalTenPoint) % 10
    (true, if nBullPoint = 0 then 10 else nBullPoint, nMaxCard)
  else
    (false, 0, nMaxCard)

/-- `CompareCard`: whether the first hand wins, and the odds, negative when it loses. -/
def compareCard (odds : Nat → ℚ) (tbCard1 tbCard2 : List Nat) : Bool × ℚ :=
  let (bIsBull1, nBullPoint1, nMaxCard1) := getBullPoint tbCard1
  let (bIsBull2, nBullPoint2, nMaxCard2) := getBullPoint tbCard2
  let bFormerWin : Bool :=
    if bIsBull1 = bIsBull2 then
      if bIsBull1 ∧ nBullPoint1 ≠ nBullPoint2 then nBullPoint1 > nBullPoint2
      else nMaxCard1 > nMaxCard2
    else
      bIsBull1
  if bFormerWin then (true, odds nBullPoint1) else (false, odds nBullPoint2 * (-1))

end GameServer.Room
