/-
Module: GameServer.Logic.Spending
Purpose: The requests to the logic server that take gold from a user, `UpdateBalance` and `BuyRoomCard`, where the
  methods of user objects do what they are called.
Trusted boundary: no sum is above the largest number of the format; the configuration has numbers or nothing for an id
Main exports: Account, updateBalance, buyRoomCard, balanceCost, roomCardCost, BalanceCovered, CardCovered, Paid
-/
import GameServer.Logic.StoreLogic
import GameServer.Script.UserManager

namespace GameServer.Logic.Spending

open Lib Lib.LuaM Script
open Arithmetic (rounding)

variable [Arithmetic]

/-! ## The requests

The two requests that take gold from a user: a deposit, and cards from the store.
-/

/-- A user object, with the deposit and the cards of its game data. -/
structure Account where
  objUser : UserData
  nBalance : ℚ
  nRoomCard : ℚ
deriving DecidableEq

/-- The codes that `UpdateBalance` returns. -/
inductive BalanceCode where
  | ok
  | unknownError
  | paramterError
  | balanceIsOutOfRange
deriving Repr, DecidableEq

/-- `IsFloat`. -/
def isFloat (t : ℚ) : Bool := decide ((t.floor : ℚ) < t)

/-- `UpdateBalance`.  The state is the object of the current user, or nil; an argument that is not a number is none.
It returns a code, and with OK the deposit and the gold. -/
def updateBalance (nBalance : Option ℚ) : LuaM (Option Account) (BalanceCode × Option (ℚ × ℚ)) := do
  match ← get, nBalance with
  | none, _ => return (.unknownError, none)
  | some _, none => return (.paramterError, none)
  | some account, some nBalance =>
      if nBalance < 0 then return (.paramterError, none)
      else if isFloat nBalance then return (.paramterError, none)
      else do
        let nTotal := rounding.add account.objUser.getGold account.nBalance
        if nBalance > nTotal then return (.balanceIsOutOfRange, none)
        else do
          let nGold := rounding.sub nTotal nBalance
          set (some { account with objUser := account.objUser.setGold nGold, nBalance := nBalance })
          return (.ok, some (nBalance, nGold))

/-- What `GetConfig` finds in the table of the store: whether there is a row for the text of an id, and the fields of
the row for the id. -/
structure StoreTable where
  hasRow : ℚ → Bool
  price : ℚ → Option ℚ
  roomCardCount : ℚ → Option ℚ

variable (store : StoreTable)

/-- `BuyRoomCard`.  It returns a code, and with OK the cards and the gold. -/
def buyRoomCard (nId : Option ℚ) : LuaM (Option Account) (StoreCode × Option (ℚ × ℚ)) := do
  match ← get, nId with
  | none, _ => return (.unknownError, none)
  | some _, none => return (.paramterError, none)
  | some account, some nId =>
      if !store.hasRow nId then return (.paramterError, none)
      else
        match store.price nId with
        | none => return (.configError, none)
        | some nGoldPrice =>
            if nGoldPrice < 0 then return (.configError, none)
            else do
              let nUserGold := account.objUser.getGold
              if nGoldPrice > nUserGold then return (.goldIsNotEnough, none)
              else
                match store.roomCardCount nId with
                -- comparing nil with a number is an error
                | none => raise
                | some nRoomCardCount =>
                    if nRoomCardCount ≤ 0 then return (.configError, none)
                    else
                      match account.objUser.costGold .sound nGoldPrice with
                      | none => raise
                      | some paid => do
                          let nTotalRoomCard := rounding.add account.nRoomCard nRoomCardCount
                          set (some { account with objUser := paid, nRoomCard := nTotalRoomCard })
                          return (.ok, some (nTotalRoomCard, rounding.sub nUserGold nGoldPrice))

/-! ## What they cost

The cost is none where a request is refused, and then nothing changes.  Otherwise the gold falls by the cost at most, if
what is left of it is not rounded down.
-/

/-- What `UpdateBalance` takes from the gold where it accepts the deposit. -/
def balanceCost (account : Account) (nBalance : Option ℚ) : Option ℚ :=
  (nBalance.filter fun nBalance =>
    0 ≤ nBalance ∧ isFloat nBalance = false ∧ nBalance ≤ rounding.add account.objUser.gold account.nBalance).map
      fun nBalance => nBalance - account.nBalance

/-- What `BuyRoomCard` takes from the gold where it sells. -/
def roomCardCost (account : Account) (nId : Option ℚ) : Option ℚ :=
  nId.bind fun nId =>
    (store.price nId).filter fun nGoldPrice =>
      store.hasRow nId = true ∧ 0 ≤ nGoldPrice ∧ nGoldPrice ≤ account.objUser.gold ∧
        ∃ nRoomCardCount ∈ store.roomCardCount nId, 0 < nRoomCardCount

/-- A deposit leaves the rest of the gold, which is not rounded down. -/
def BalanceCovered (account : Account) (nBalance : Option ℚ) : Prop :=
  ∀ n ∈ nBalance, account.objUser.gold + account.nBalance - n ≤
    rounding.sub (rounding.add account.objUser.gold account.nBalance) n

instance (account : Account) (nBalance : Option ℚ) : Decidable (BalanceCovered account nBalance) :=
  inferInstanceAs (Decidable (∀ _ ∈ (_ : Option ℚ), (_ : ℚ) ≤ _))

/-- Cards leave the rest of the gold, which is not rounded down. -/
def CardCovered (account : Account) (nId : Option ℚ) : Prop :=
  ∀ nGoldPrice ∈ nId.bind store.price, account.objUser.gold - nGoldPrice ≤
    rounding.sub account.objUser.gold nGoldPrice

instance (account : Account) (nId : Option ℚ) : Decidable (CardCovered store account nId) :=
  inferInstanceAs (Decidable (∀ _ ∈ (_ : Option ℚ), (_ : ℚ) ≤ _))

/-- The user has paid the cost at most, or nothing has changed where there is none. -/
def Paid (account : Account) (cost : Option ℚ) (after : Option Account) : Prop :=
  match cost with
  | none => after = some account
  | some cost => ∃ paid, after = some paid ∧ paid.objUser.nUserId = account.objUser.nUserId ∧
      account.objUser.gold - cost ≤ paid.objUser.gold

/-- A deposit takes its amount from the gold, or changes nothing. -/
theorem updateBalance_paid {account : Account} {nBalance : Option ℚ} (covered : BalanceCovered account nBalance) :
    Paid account (balanceCost account nBalance) (exec (updateBalance nBalance) (some account)).2 := by
  apply wp_same.mp
  unfold updateBalance balanceCost
  cases nBalance with
  | none => rfl
  | some nBalance =>
      simp only [wp_bind, wp_get, wp_ite, wp_pure, wp_set]
      refine ⟨fun negative => ?_, fun nonneg => ⟨fun float => ?_, fun whole => ⟨fun tooMuch => ?_, fun inTotal => ?_⟩⟩⟩
      · rw [Option.filter_some, if_neg (by simp [negative])]
        rfl
      · rw [Option.filter_some, if_neg (by simp [float])]
        rfl
      · have outside : ¬ nBalance ≤ rounding.add account.objUser.gold account.nBalance := not_le.mpr tooMuch
        rw [Option.filter_some, if_neg (by simp [outside])]
        rfl
      · have accepted : 0 ≤ nBalance ∧ isFloat nBalance = false ∧
            nBalance ≤ rounding.add account.objUser.gold account.nBalance :=
          ⟨not_lt.mp nonneg, by simpa using whole, not_lt.mp inTotal⟩
        rw [Option.filter_some, if_pos (decide_eq_true accepted)]
        refine ⟨_, rfl, rfl, ?_⟩
        have least := covered nBalance rfl
        rw [UserData.setGold_gold, UserData.getGold]
        linarith

/-- Cards take their price from the gold, or nothing changes. -/
theorem buyRoomCard_paid {account : Account} {nId : Option ℚ} (covered : CardCovered store account nId) :
    Paid account (roomCardCost store account nId) (exec (buyRoomCard store nId) (some account)).2 := by
  apply wp_same.mp
  unfold buyRoomCard roomCardCost
  cases nId with
  | none => rfl
  | some nId =>
      simp only [wp_bind, wp_get, wp_ite, wp_pure, Option.bind_some]
      refine ⟨fun noRow => ?_, fun row => ?_⟩
      · have absent : store.hasRow nId = false := by simpa using noRow
        cases store.price nId with
        | none => rfl
        | some nGoldPrice =>
            rw [Option.filter_some, if_neg (by simp [absent])]
            rfl
      · cases price : store.price nId with
        | none => rfl
        | some nGoldPrice =>
            simp only [wp_ite, wp_pure]
            refine ⟨fun negative => ?_, fun nonneg => ⟨fun tooMuch => ?_, fun inGold => ?_⟩⟩
            · rw [Option.filter_some, if_neg (by simp [negative])]
              rfl
            · have outside : ¬ nGoldPrice ≤ account.objUser.gold := not_le.mpr tooMuch
              rw [Option.filter_some, if_neg (by simp [outside])]
              rfl
            · cases store.roomCardCount nId with
              | none =>
                  rw [Option.filter_some, if_neg (by simp)]
                  rfl
              | some nRoomCardCount =>
                  simp only [wp_ite, wp_pure]
                  refine ⟨fun none => ?_, fun positive => ?_⟩
                  · rw [Option.filter_some, if_neg (by simp [none])]
                    rfl
                  · have sold : store.hasRow nId = true ∧ 0 ≤ nGoldPrice ∧ nGoldPrice ≤ account.objUser.gold ∧
                        ∃ count ∈ some nRoomCardCount, 0 < count :=
                      ⟨by simpa using row, not_lt.mp nonneg, not_lt.mp inGold, _, rfl, not_le.mp positive⟩
                    have cost : account.objUser.costGold .sound nGoldPrice =
                        some (account.objUser.setGold (rounding.sub account.objUser.gold nGoldPrice)) := by
                      rw [UserData.costGold, if_neg nonneg]
                      rfl
                    rw [Option.filter_some, if_pos (decide_eq_true sold), cost]
                    exact ⟨_, rfl, rfl, covered nGoldPrice price⟩

end GameServer.Logic.Spending
