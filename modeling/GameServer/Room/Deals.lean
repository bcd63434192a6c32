/-
Module: GameServer.Room.Deals
Purpose: Every deal comes from one intact pack: what the swaps and deals of `Shuffle` keep, over any number of calls.
Trusted boundary: `math.random` draws any index of the pack
Main exports: shuffleReturns, ShuffleCall, IntactPack, Dealt, swapCards_perm, deal_flatten, shuffle_deals
-/
import GameServer.Room.Cards

namespace GameServer.Room

open BullFightingShuffler

/-! ## One call

Each loop of `Shuffle` keeps the cards: the first one puts them in another order, the second one cuts them into hands.
-/

/-- What `Shuffle` returns: the hands it has dealt, or nil. -/
def BullFightingShuffler.shuffleReturns (random : Nat → Nat) (nTotolPlayer nSingleCount : Nat)
    (s : BullFightingShuffler) : Option (List (List Nat)) :=
  if nTotolPlayer ≤ 0 then none
  else if nSingleCount ≤ 0 then none
  else if nTotolPlayer * nSingleCount > s.tbGameCard.length then none
  else (s.shuffle random nTotolPlayer nSingleCount).tbShufflerResult

/-- A random index is one of the pack, so the exchange loses no card. -/
theorem swapCard_perm (raw : Nat) {i : Nat} {cards : List Nat} (low : 1 ≤ i) (high : i ≤ cards.length) :
    (swapCard raw i cards).Perm cards := by
  unfold swapCard
  dsimp only
  split
  next differs =>
    have drawn : mathRandom raw 1 cards.length - 1 < cards.length := by
      have small := Nat.mod_lt raw (show 0 < cards.length + 1 - 1 by omega)
      rw [mathRandom]
      omega
    have here : i - 1 < cards.length := by omega
    rw [List.getD_eq_getElem _ _ here, List.getD_eq_getElem _ _ drawn]
    exact List.set_set_perm drawn here
  next => exact List.Perm.refl _

/-- The loop goes through the pack from `i` on. -/
theorem swapCards_perm (random : Nat → Nat) (turns : Nat) {i : Nat} {cards : List Nat} (low : 1 ≤ i)
    (high : i + turns ≤ cards.length + 1) : (swapCards random turns i cards).Perm cards := by
  induction turns generalizing i cards with
  | zero => exact List.Perm.refl _
  | succ turns ih =>
      have first := swapCard_perm (random (i - 1)) low (show i ≤ cards.length by omega)
      have rest := @ih (i + 1) (swapCard (random (i - 1)) i cards) (by omega) (by rw [length_swapCard]; omega)
      exact rest.trans first

/-- Hand after hand, the front of the pack is dealt. -/
theorem deal_flatten (nSingleCount hands : Nat) (cards : List Nat) :
    (deal nSingleCount hands cards).flatten = cards.take (hands * nSingleCount) := by
  induction hands generalizing cards with
  | zero => simp [deal]
  | succ hands ih =>
      rw [deal, List.flatten_cons, ih, Nat.succ_mul, Nat.add_comm, List.take_add]

/-- Every hand is of the size asked for. -/
theorem length_of_deal {nSingleCount hands : Nat} {cards : List Nat} (enough : hands * nSingleCount ≤ cards.length) :
    ∀ hand ∈ deal nSingleCount hands cards, hand.length = nSingleCount := by
  induction hands generalizing cards with
  | zero => simp [deal]
  | succ hands ih =>
      rw [Nat.succ_mul] at enough
      intro hand member
      rcases List.mem_cons.mp member with rfl | later
      · rw [List.length_take]
        omega
      · apply ih _ hand later
        rw [List.length_drop]
        omega

/-! ## Any number of calls

A pack that is intact stays so from call to call, and what is dealt are different cards of it.
-/

/-- A call of `Shuffle`, with the raw numbers for its random indices. -/
structure ShuffleCall where
  random : Nat → Nat
  nTotolPlayer : Nat
  nSingleCount : Nat

def shuffleCall (s : BullFightingShuffler) (call : ShuffleCall) : BullFightingShuffler :=
  s.shuffle call.random call.nTotolPlayer call.nSingleCount

/-- The pack has every card that it was made with, in some order. -/
structure IntactPack (bNeedJoker : Bool) (s : BullFightingShuffler) : Prop where
  same : s.tbGameCard.Perm (new bNeedJoker).tbGameCard
  nodup : s.tbGameCard.Nodup
  count : s.tbGameCard.length = if bNeedJoker then 54 else 52

/-- The call deals the asked number of full hands without a card in two places, and returns them; or there are not
enough cards, it returns nil, and nothing has changed. -/
def Dealt (s : BullFightingShuffler) (call : ShuffleCall) : Prop :=
  if call.nTotolPlayer * call.nSingleCount ≤ s.tbGameCard.length then
    ∃ hands, s.shuffleReturns call.random call.nTotolPlayer call.nSingleCount = some hands ∧
      (shuffleCall s call).tbShufflerResult = some hands ∧ hands.length = call.nTotolPlayer ∧
      (∀ hand ∈ hands, hand.length = call.nSingleCount) ∧ hands.flatten.Nodup ∧
      hands.flatten ⊆ s.tbGameCard
  else
    s.shuffleReturns call.random call.nTotolPlayer call.nSingleCount = none ∧ shuffleCall s call = s

/-- A new pack is intact. -/
theorem intactPack_new (bNeedJoker : Bool) : IntactPack bNeedJoker (new bNeedJoker) where
  same := List.Perm.refl _
  nodup := by cases bNeedJoker <;> decide
  count := by cases bNeedJoker <;> rfl

/-- A call only changes the order of the pack. -/
theorem shuffleCall_perm (s : BullFightingShuffler) (call : ShuffleCall) :
    (shuffleCall s call).tbGameCard.Perm s.tbGameCard := by
  unfold shuffleCall shuffle
  split
  · exact List.Perm.refl _
  · split
    · exact List.Perm.refl _
    · split
      · exact List.Perm.refl _
      · exact swapCards_perm call.random _ (Nat.le_refl 1) (Nat.add_comm _ _).le

/-- One call. -/
theorem IntactPack.step {bNeedJoker : Bool} {s : BullFightingShuffler} (intact : IntactPack bNeedJoker s)
    (call : ShuffleCall) : IntactPack bNeedJoker (shuffleCall s call) := by
  have order := shuffleCall_perm s call
  exact ⟨order.trans intact.same, order.nodup_iff.mpr intact.nodup, order.length_eq.trans intact.count⟩

/-- Any number of them. -/
theorem IntactPack.run {bNeedJoker : Bool} {s : BullFightingShuffler} (intact : IntactPack bNeedJoker s)
    (calls : List ShuffleCall) : IntactPack bNeedJoker (calls.foldl shuffleCall s) := by
  induction calls generalizing s with
  | nil => exact intact
  | cons call calls ih => exact ih (intact.step call)

/-- What a call deals from a pack without doubles. -/
theorem dealt_of_nodup {s : BullFightingShuffler} (nodup : s.tbGameCard.Nodup) (call : ShuffleCall)
    (players : 0 < call.nTotolPlayer) (single : 0 < call.nSingleCount) : Dealt s call := by
  unfold Dealt
  split
  next enough =>
    have cards := @swapCards_perm call.random s.tbGameCard.length 1 s.tbGameCard (Nat.le_refl 1)
      (Nat.add_comm _ _).le
    have result : (shuffleCall s call).tbShufflerResult = some (deal call.nSingleCount call.nTotolPlayer
        (swapCards call.random s.tbGameCard.length 1 s.tbGameCard)) := by
      rw [shuffleCall, shuffle, if_neg (by omega), if_neg (by omega), if_neg (by omega)]
    refine ⟨_, ?_, result, length_deal .., ?_, ?_, ?_⟩
    · rw [shuffleReturns, if_neg (by omega), if_neg (by omega), if_neg (by omega)]
      exact result
    · apply length_of_deal
      rw [length_swapCards]
      exact enough
    · rw [deal_flatten]
      exact (cards.nodup_iff.mpr nodup).sublist (List.take_sublist _ _)
    · rw [deal_flatten]
      intro card member
      exact cards.mem_iff.mp (List.mem_of_mem_take member)
  next few =>
    have tooFew : call.nTotolPlayer * call.nSingleCount > s.tbGameCard.length := not_le.mp few
    constructor
    · rw [shuffleReturns, if_neg (by omega), if_neg (by omega), if_pos tooFew]
    · rw [shuffleCall, shuffle, if_neg (by omega), if_neg (by omega), if_pos tooFew]

/-- After any number of calls the pack is intact, and the next one deals from it. -/
theorem shuffle_deals (bNeedJoker : Bool) (calls : List ShuffleCall) (call : ShuffleCall)
    (players : 0 < call.nTotolPlayer) (single : 0 < call.nSingleCount) :
    IntactPack bNeedJoker (calls.foldl shuffleCall (new bNeedJoker)) ∧
      Dealt (calls.foldl shuffleCall (new bNeedJoker)) call := by
  have intact := (intactPack_new bNeedJoker).run calls
  exact ⟨intact, dealt_of_nodup intact.nodup call players single⟩

/-- Five hands of five cards, after a call that asked for too many. -/
theorem shuffle_deals_five :
    IntactPack false ([⟨fun k => k, 11, 5⟩].foldl shuffleCall (new false)) ∧
      Dealt ([⟨fun k => k, 11, 5⟩].foldl shuffleCall (new false)) ⟨fun k => 7 * k, 5, 5⟩ :=
  shuffle_deals false [⟨fun k => k, 11, 5⟩] ⟨fun k => 7 * k, 5, 5⟩ (by decide) (by decide)

end GameServer.Room
