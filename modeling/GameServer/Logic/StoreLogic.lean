/-
Module: GameServer.Logic.StoreLogic
Purpose: Buying room cards: gold and cards change together or not at all.
Trusted boundary: the configuration has numbers or nothing for an id; the user's cards are a counter that
  `GetRoomCard` reads and `AddRoomCard` adds to
Main exports: StoreConfig, Buyer, buyRoomCard, Bought, Atomic, buyRoomCard_atomic, buyRoomCard_never_ok
-/
import GameServer.Share.User

namespace GameServer.Logic

open Lib Lib.LuaM Share

/-! ## The model

`BuyRoomCard` with the methods of the user object that it calls.
-/

/-- What `GetConfig` finds in the table of the store: whether there is a row for the text of an id, and the fields of
the row for the id. -/
structure StoreConfig where
  hasRow : LuaNumber → Bool
  price : LuaNumber → Option LuaNumber
  roomCardCount : LuaNumber → Option LuaNumber

/-- A user object with the counter of its cards. -/
structure Buyer where
  data : UserData
  nRoomCard : LuaNumber

/-- The codes that `BuyRoomCard` returns. -/
inductive StoreCode where
  | ok
  | unknownError
  | paramterError
  | configError
  | goldIsNotEnough
deriving Repr, DecidableEq

/-- A method of the user object. -/
def onData {α : Type} (m : LuaM UserData α) : LuaM Buyer α := fun b =>
  match m b.data with
  | (result, data) => (result, { b with data := data })

@[simp] theorem wp_onData {α : Type} {Q : α → Buyer → Prop} {R : Buyer → Prop} (m : LuaM UserData α) (b : Buyer) :
    wp (onData m) Q R b ↔
      wp m (fun a data => Q a { b with data := data }) (fun data => R { b with data := data }) b.data := by
  simp only [wp, exec, onData]
  cases m b.data with
  | mk result data => cases result <;> rfl

def getRoomCard : LuaM Buyer LuaNumber := do
  let b ← get
  return b.nRoomCard

def addRoomCard (nCount : LuaNumber) : LuaM Buyer Unit :=
  modify fun b => { b with nRoomCard := b.nRoomCard.add nCount }

section Buy

variable (config : StoreConfig)

/-- `CheckIdLegal`. -/
def checkIdLegal (nId : LuaNumber) : Bool := config.hasRow nId

/-- `BuyRoomCard`; `objUser` says whether there is an object, and nil is none.  It returns a code, and with OK the cards
and the gold. -/
def buyRoomCard (objUser : Bool) (nId : Option Value) : LuaM Buyer (StoreCode × Option (LuaNumber × LuaNumber)) :=
  if !objUser then return (.unknownError, none)
  else
    match nId with
    | some (.leaf (.number nId)) =>
        if !checkIdLegal config nId then return (.paramterError, none)
        else
          match config.price nId with
          | none => return (.configError, none)
          | some nGoldPrice =>
              if nGoldPrice.lt 0 then return (.configError, none)
              else do
                match ← onData getGold with
                | some (.leaf (.number nUserGold)) =>
                    if nUserGold.lt nGoldPrice then return (.goldIsNotEnough, none)
                    else
                      match config.roomCardCount nId with
                      -- comparing nil with a number is an error
                      | none => raise
                      | some nRoomCardCount =>
                          if nRoomCardCount.le 0 then return (.configError, none)
                          else do
                            let nCurrentCount ← getRoomCard
                            let nGoldBalance := nUserGold.sub nGoldPrice
                            let _ ← onData (costGold nGoldPrice)
                            let nTotalRoomCard := nCurrentCount.add nRoomCardCount
                            addRoomCard nRoomCardCount
                            return (.ok, some (nTotalRoomCard, nGoldBalance))
                -- so is comparing what is not a number
                | _ => raise
    | _ => return (.paramterError, none)

/-! ## All or nothing

A purchase takes the price and gives the cards, or changes neither.
-/

/-- What `GetGold` answers. -/
def Buyer.gold (b : Buyer) : Except Unit (Option Value) := (exec getGold b.data).1

/-- The price was paid for the cards, and the two numbers are what the user has. -/
def Bought (nId : Option Value) (b b' : Buyer) (nTotalRoomCard nGoldBalance : LuaNumber) : Prop :=
  ∃ id nGoldPrice nRoomCardCount nUserGold, nId = some (.leaf (.number id)) ∧ config.price id = some nGoldPrice ∧
    config.roomCardCount id = some nRoomCardCount ∧ b.gold = .ok (some (.leaf (.number nUserGold))) ∧
    b'.gold = .ok (some (.leaf (.number nGoldBalance))) ∧ nGoldBalance = nUserGold.sub nGoldPrice ∧
    (0 : LuaNumber).le nGoldBalance = true ∧ b'.nRoomCard = b.nRoomCard.add nRoomCardCount ∧
    nTotalRoomCard = b'.nRoomCard

/-- OK is returned for what was bought, and any other end has changed neither gold nor cards. -/
def Atomic (nId : Option Value) (b : Buyer) :
    Except Unit (StoreCode × Option (LuaNumber × LuaNumber)) × Buyer → Prop
  | (.ok (.ok, totals), b') =>
      ∃ nTotalRoomCard nGoldBalance, totals = some (nTotalRoomCard, nGoldBalance) ∧
        Bought config nId b b' nTotalRoomCard nGoldBalance
  | (_, b') => b'.gold = b.gold ∧ b'.nRoomCard = b.nRoomCard

/-- Nothing has changed when the call ends, and it does not end with OK: taking the gold raises whenever the call comes
to it, since a price that is negative was refused before. -/
theorem buyRoomCard_spec (objUser : Bool) (nId : Option Value) (b : Buyer) :
    wp (buyRoomCard config objUser nId) (fun answer t => answer.1 ≠ .ok ∧ t = b) (fun t => t = b) b := by
  unfold buyRoomCard
  split
  · simp
  · split
    next id =>
      split
      · simp
      · split
        · simp
        next nGoldPrice _ =>
          split
          · simp
          next notNegative =>
            rw [wp_bind, wp_onData]
            refine wp_mono (getGameField_keeps _ _ b.data) (fun gold data same => ?_) (fun data same => same ▸ rfl)
            subst same
            dsimp only
            split
            next nUserGold =>
              split
              · simp
              · split
                · simp
                next nRoomCardCount _ =>
                  split
                  · simp
                  · rw [wp_bind, getRoomCard, wp_bind, wp_get, wp_pure, wp_bind, wp_onData]
                    refine wp_mono (costGold_spec nGoldPrice b.data) (fun refused data paid => ?_)
                      (fun data same => by rw [same])
                    exact absurd paid.2.1 notNegative
            · simp
    · simp

/-- **Buying room cards.** For every user, configuration and id, the call is atomic. -/
theorem buyRoomCard_atomic (objUser : Bool) (nId : Option Value) (b : Buyer) :
    Atomic config nId b (exec (buyRoomCard config objUser nId) b) := by
  have spec := buyRoomCard_spec config objUser nId b
  unfold wp at spec
  cases outcome : exec (buyRoomCard config objUser nId) b with
  | mk result t =>
      rw [outcome] at spec
      cases result with
      | error _ =>
          subst spec
          exact ⟨rfl, rfl⟩
      | ok answer =>
          obtain ⟨code, totals⟩ := answer
          obtain ⟨notOk, rfl⟩ := spec
          cases code with
          | ok => exact absurd rfl notOk
          | _ => exact ⟨rfl, rfl⟩

/-- No room card is ever bought. -/
theorem buyRoomCard_never_ok (objUser : Bool) (nId : Option Value) (b t : Buyer)
    (totals : Option (LuaNumber × LuaNumber)) :
    exec (buyRoomCard config objUser nId) b ≠ (.ok (.ok, totals), t) := by
  intro bought
  have spec := buyRoomCard_spec config objUser nId b
  rw [wp, bought] at spec
  exact spec.1 rfl

end Buy

end GameServer.Logic
