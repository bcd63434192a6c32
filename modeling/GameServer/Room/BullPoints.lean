/-
Module: GameServer.Room.BullPoints
Purpose: What `GetBullPoint` computes of a hand, in terms of the cards alone: no order of the cards and no
  choice among the triples that make a bull changes the answer.
Trusted boundary: a card code is a natural number
Main exports: cardValue, HasBull, bullPoint, getBullPoint_le, getBullPoint_of_cards
-/
import GameServer.Room.Cards

namespace GameServer.Room

/-! ## The value of a card

The code of a card has its rank in the low four bits; pictures count ten.
-/

/-- The points of a card, by its code. -/
def cardValue (nCard : Nat) : Nat := if 10 ≤ nCard % 16 then 10 else nCard % 16

theorem getPoint_eq_mod (nCard : Nat) : getPoint nCard = nCard % 16 :=
  Nat.and_two_pow_sub_one_eq_mod nCard 4

/-- A tag of four bits sees only the low four bits of a code. -/
theorem land_mod_sixteen {nTag : Nat} (fourBits : 15 &&& nTag = nTag) (nCard : Nat) :
    nCard &&& nTag = nCard % 16 &&& nTag := by
  have low : nCard &&& 15 = nCard % 16 := getPoint_eq_mod nCard
  calc nCard &&& nTag = nCard &&& (15 &&& nTag) := by rw [fourBits]
    _ = nCard &&& 15 &&& nTag := (Nat.land_assoc ..).symm
    _ = nCard % 16 &&& nTag := by rw [low]

/-- Ranks from ten on. -/
theorem isTenPointCard_iff (nCard : Nat) : isTenPointCard nCard = true ↔ 10 ≤ nCard % 16 := by
  have bits : ∀ point < 16, ((point &&& 0x08 > 0 && point &&& 0x06 > 0) = true ↔ 10 ≤ point) := by
    decide
  rw [isTenPointCard, land_mod_sixteen (by rfl) nCard, land_mod_sixteen (by rfl) nCard]
  exact bits _ (Nat.mod_lt _ (by omega))

/-- The points `GetBullPoint` writes down for a card. -/
theorem point_eq_cardValue (nCard : Nat) :
    (if isTenPointCard nCard then 10 else getPoint nCard) = cardValue nCard := by
  simp only [isTenPointCard_iff, getPoint_eq_mod, cardValue]

/-! ## The bull

What the search of `IsBull` finds, in terms of the hand alone.
-/

/-- Some three of the cards add up to a multiple of ten. -/
def HasBull (tbCard : List Nat) : Prop :=
  ∃ three : List Nat, three.Sublist tbCard ∧ three.length = 3 ∧ (three.map cardValue).sum % 10 = 0

/-- The points of a hand with a bull. -/
def bullPoint (tbCard : List Nat) : Nat :=
  if (tbCard.map cardValue).sum % 10 = 0 then 10 else (tbCard.map cardValue).sum % 10

/-- The order of the cards does not matter. -/
theorem HasBull.of_perm {hand hand' : List Nat} (same : hand.Perm hand') (bull : HasBull hand) :
    HasBull hand' := by
  obtain ⟨three, sub, size, ten⟩ := bull
  obtain ⟨three', again, sub'⟩ := sub.subperm.trans same.subperm
  refine ⟨three', sub', again.length_eq.trans size, ?_⟩
  rw [(again.map cardValue).sum_eq]
  exact ten

theorem hasBull_perm {hand hand' : List Nat} (same : hand.Perm hand') : HasBull hand ↔ HasBull hand' :=
  ⟨.of_perm same, .of_perm same.symm⟩

/-- Nor does it matter for the points. -/
theorem bullPoint_perm {hand hand' : List Nat} (same : hand.Perm hand') :
    bullPoint hand = bullPoint hand' := by
  have total : (hand.map cardValue).sum = (hand'.map cardValue).sum := (same.map cardValue).sum_eq
  rw [bullPoint, bullPoint, total]

/-- The triples of the points, in the order `IsBull` tries them. -/
def triples (points : List Nat) : List (List Nat) :=
  [(0, 1, 2), (0, 1, 3), (0, 1, 4), (0, 2, 3), (0, 2, 4), (0, 3, 4), (1, 2, 3), (1, 2, 4), (1, 3, 4),
    (2, 3, 4)].map fun (t : Nat × Nat × Nat) =>
      [points.getD t.1 0, points.getD t.2.1 0, points.getD t.2.2 0]

/-- The triples that are tried are all of them. -/
theorem mem_triples {points : List Nat} (five : points.length = 5) {three : List Nat} :
    three ∈ triples points ↔ three.Sublist points ∧ three.length = 3 := by
  obtain ⟨a, b, c, d, e, rfl⟩ : ∃ a b c d e, points = [a, b, c, d, e] := by
    match points, five with
    | [a, b, c, d, e], _ => exact ⟨a, b, c, d, e, rfl⟩
  have same : (List.sublistsLen 3 [a, b, c, d, e]).reverse = triples [a, b, c, d, e] := rfl
  rw [← List.mem_sublistsLen, ← same, List.mem_reverse]

/-- `IsBull` answers with the first triple that makes a bull. -/
theorem isBull_eq (points : List Nat) :
    isBull points =
      match (triples points).find? fun three => three.sum % 10 = 0 with
      | some three => (true, three.sum)
      | none => (false, points.getD 2 0 + points.getD 3 0 + points.getD 4 0) := by
  rw [isBull, triples, List.find?_map]
  simp only [Function.comp_def, List.sum_cons, List.sum_nil, add_zero, add_assoc]
  cases List.find? (fun t : Nat × Nat × Nat =>
    decide ((points.getD t.1 0 + (points.getD t.2.1 0 + points.getD t.2.2 0)) % 10 = 0)) _ with
  | none => rfl
  | some t => simp

/-- With a triple that makes a bull `IsBull` finds one, and its sum is part of the total. -/
theorem isBull_found {points three : List Nat} (five : points.length = 5) (sub : three.Sublist points)
    (size : three.length = 3) (ten : three.sum % 10 = 0) :
    ∃ total, isBull points = (true, total) ∧ total % 10 = 0 ∧ total ≤ points.sum := by
  rw [isBull_eq]
  cases found : (triples points).find? fun three => three.sum % 10 = 0 with
  | none =>
      have missed := List.find?_eq_none.mp found three ((mem_triples five).mpr ⟨sub, size⟩)
      exact absurd (decide_eq_true ten) missed
  | some first =>
      have makes := List.find?_some found
      obtain ⟨sub', -⟩ := (mem_triples five).mp (List.mem_of_find?_eq_some found)
      exact ⟨first.sum, rfl, of_decide_eq_true makes, sub'.sum_le_sum (fun _ _ => Nat.zero_le _)⟩

/-- Without one it says so. -/
theorem isBull_missed {points : List Nat} (five : points.length = 5)
    (none : ∀ three : List Nat, three.Sublist points → three.length = 3 → three.sum % 10 ≠ 0) :
    (isBull points).1 = false := by
  have nothing : (triples points).find? (fun three => three.sum % 10 = 0) = .none := by
    rw [List.find?_eq_none]
    intro three tried
    obtain ⟨sub, size⟩ := (mem_triples five).mp tried
    simpa using none three sub size
  rw [isBull_eq, nothing]

/-! ## The hand

What `GetBullPoint` makes of five cards, and that it does not depend on their order.
-/

/-- The loop that keeps the highest card. -/
theorem highest_spec (tbCard : List Nat) (best : Nat) :
    IsGreatest {nCard | nCard = best ∨ nCard ∈ tbCard}
      (tbCard.foldl (fun best nCard => if nCard > best then nCard else best) best) := by
  induction tbCard generalizing best with
  | nil => simp [IsGreatest, upperBounds]
  | cons nCard tbCard ih =>
      obtain ⟨member, above⟩ := ih (if nCard > best then nCard else best)
      rw [List.foldl_cons]
      refine ⟨?_, ?_⟩
      · rcases member with kept | later
        · rw [Set.mem_ofPred_eq, kept, List.mem_cons]
          split
          · exact .inr (.inl rfl)
          · exact .inl rfl
        · exact .inr (List.mem_cons_of_mem _ later)
      · have kept := above (.inl rfl)
        have both : best ≤ (if nCard > best then nCard else best) ∧
            nCard ≤ (if nCard > best then nCard else best) := by
          split <;> omega
        intro other isOther
        rw [Set.mem_ofPred_eq, List.mem_cons] at isOther
        rcases isOther with rfl | rfl | later
        · exact both.1.trans kept
        · exact both.2.trans kept
        · exact above (.inr later)

/-- The highest card of a hand that has one. -/
theorem highest_of_hand {tbCard : List Nat} (some : 0 < tbCard.length) :
    IsGreatest {nCard | nCard ∈ tbCard}
      (tbCard.foldl (fun best nCard => if nCard > best then nCard else best) 0) := by
  obtain ⟨member, above⟩ := highest_spec tbCard 0
  refine ⟨?_, fun nCard isCard => above (.inr isCard)⟩
  rcases member with zero | isCard
  · -- only cards with code zero: the first of them is as high as the start of the loop
    have first : tbCard[0] ≤ 0 := by
      have bound := above (.inr (List.getElem_mem some))
      rw [zero] at bound
      exact bound
    rw [zero, Set.mem_ofPred_eq, ← Nat.le_zero.mp first]
    exact List.getElem_mem some
  · exact isCard

/-- The triples of a hand that make a bull are the triples of its values that do. -/
theorem hasBull_iff_values (tbCard : List Nat) :
    HasBull tbCard ↔
      ∃ three : List Nat, three.Sublist (tbCard.map cardValue) ∧ three.length = 3 ∧
        three.sum % 10 = 0 := by
  constructor
  · rintro ⟨three, sub, size, ten⟩
    exact ⟨three.map cardValue, sub.map cardValue, by rw [List.length_map, size], ten⟩
  · rintro ⟨values, sub, size, ten⟩
    obtain ⟨three, sub', rfl⟩ := List.sublist_map_iff.mp sub
    exact ⟨three, sub', by rw [← size, List.length_map], ten⟩

/-- What `GetBullPoint` answers for one order of the cards. -/
theorem getBullPoint_spec {tbCard : List Nat} (five : tbCard.length = 5) :
    ∃ bIsBull nMaxCard, (bIsBull = true ↔ HasBull tbCard) ∧ IsGreatest {nCard | nCard ∈ tbCard} nMaxCard ∧
      getBullPoint tbCard = (bIsBull, if bIsBull then bullPoint tbCard else 0, nMaxCard) := by
  have values : (tbCard.map fun nCard => if isTenPointCard nCard then 10 else getPoint nCard) =
      tbCard.map cardValue := List.map_congr_left fun nCard _ => point_eq_cardValue nCard
  have size : (tbCard.map cardValue).length = 5 := by rw [List.length_map, five]
  have greatest := highest_of_hand (show 0 < tbCard.length by omega)
  by_cases bull : HasBull tbCard
  · obtain ⟨three, sub, three_size, ten⟩ := (hasBull_iff_values tbCard).mp bull
    obtain ⟨total, found, total_ten, part⟩ := isBull_found size sub three_size ten
    refine ⟨true, _, by simp [bull], greatest, ?_⟩
    -- the triple that was found is a multiple of ten, so the other two cards count as all five do
    have rest : ((tbCard.map cardValue).sum - total) % 10 = (tbCard.map cardValue).sum % 10 := by omega
    simp only [getBullPoint, values, found, if_true, bullPoint, rest]
  · have missed : (isBull (tbCard.map cardValue)).1 = false :=
      isBull_missed size fun three sub three_size ten =>
        bull ((hasBull_iff_values tbCard).mpr ⟨three, sub, three_size, ten⟩)
    refine ⟨false, _, by simp [bull], greatest, ?_⟩
    simp [getBullPoint, values, missed]

/-- The points of a hand are at most ten. -/
theorem getBullPoint_le (tbCard : List Nat) : (getBullPoint tbCard).2.1 ≤ 10 := by
  unfold getBullPoint
  dsimp only
  split
  · dsimp only
    split
    · exact le_refl 10
    · exact le_of_lt (Nat.mod_lt _ (by decide))
  · exact Nat.zero_le 10

/-- Every order of the cards of a hand gets the same answer: whether some three of the values make a
multiple of ten, the points of all five values with a bull and none without, and the highest code. -/
theorem getBullPoint_of_cards (hand : List Nat) (five : hand.length = 5) :
    ∃ bIsBull nBullPoint nMaxCard,
      (∀ hand' : List Nat, hand'.Perm hand → getBullPoint hand' = (bIsBull, nBullPoint, nMaxCard)) ∧
      (bIsBull = true ↔ HasBull hand) ∧
      nBullPoint = (if bIsBull then bullPoint hand else 0) ∧
      IsGreatest {nCard | nCard ∈ hand} nMaxCard := by
  obtain ⟨bIsBull, nMaxCard, bull, greatest, answer⟩ := getBullPoint_spec five
  refine ⟨bIsBull, _, nMaxCard, ?_, bull, rfl, greatest⟩
  intro hand' same
  obtain ⟨bIsBull', nMaxCard', bull', greatest', answer'⟩ := getBullPoint_spec (same.length_eq.trans five)
  have sameBull : bIsBull' = bIsBull := by
    rw [Bool.eq_iff_iff, bull', bull]
    exact hasBull_perm same
  have sameMax : nMaxCard' = nMaxCard := by
    have cards : {nCard | nCard ∈ hand'} = {nCard | nCard ∈ hand} := by
      ext nCard
      exact same.mem_iff
    rw [cards] at greatest'
    exact greatest'.unique greatest
  rw [answer', sameBull, sameMax, bullPoint_perm same]

/-- Three tens make the bull of this hand, in either order. -/
theorem getBullPoint_of_cards_tens :
    ∃ bIsBull nBullPoint nMaxCard,
      (∀ hand' : List Nat, hand'.Perm [0x4E, 0x03, 0x1A, 0x25, 0x3D] →
        getBullPoint hand' = (bIsBull, nBullPoint, nMaxCard)) ∧
      (bIsBull = true ↔ HasBull [0x4E, 0x03, 0x1A, 0x25, 0x3D]) ∧
      nBullPoint = (if bIsBull then bullPoint [0x4E, 0x03, 0x1A, 0x25, 0x3D] else 0) ∧
      IsGreatest {nCard | nCard ∈ [0x4E, 0x03, 0x1A, 0x25, 0x3D]} nMaxCard :=
  getBullPoint_of_cards _ rfl

end GameServer.Room
