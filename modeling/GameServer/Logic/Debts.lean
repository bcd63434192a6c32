/-
Module: GameServer.Logic.Debts
Purpose: The gold of users on the logic server, under requests to enter rooms, bets, settlements, and requests that
  take gold: nobody has debts in a run whose bets and spendings are covered.
Trusted boundary: as for the tables; the messages between two servers arrive in their order, and nobody disconnects
Main exports: World, DebtAction, debtStep, NoDebt, Covers, LosesNothing, Solvent, noDebt_of_covered
-/
import GameServer.Lib.Solvency
import GameServer.Logic.Spending
import GameServer.Room.OneTimer

namespace GameServer.Logic.Debts

open Lib Lib.LuaM Script Spending
open Arithmetic (rounding)
open Room (RoomState RoomConfig EnterCall PendingTimer StakesOk RiskStep tableStep acceptsBet countsOf)

/-! ## Two servers

The logic server keeps the gold of the users, the room server the copies that its tables play with.
-/

/-- The rules of the room server, the store, what `CheckCondition` says to the gold of a user, a game type and a room,
where it does not raise, and the number that a server reads where the other has written a number. -/
structure ServerConfig where
  room : RoomConfig
  store : StoreTable
  checkCondition : ℚ → Int → Int → Except Unit Bool
  text : ℚ → ℚ

/-- A row of a settlement, as it is read. -/
def ServerConfig.read (cfg : ServerConfig) (row : SettlementRow) : SettlementRow :=
  ⟨row.nUserId, cfg.text row.nCount, cfg.text row.nGold⟩

/-- The logic server with the deposits and the cards of its users, the room server with its messages to the logic
server, and the messages to the room server. -/
structure World where
  logic : LogicState
  balance : Int → ℚ
  roomCard : Int → ℚ
  room : RoomState
  toRoom : List EnterCall

/-- `Commit`. -/
def commit (s : LogicState) (nUserId : Int) : LogicState :=
  match s.pool.getUserObject nUserId with
  | none => s
  | some objUser =>
      if objUser.bIsDirty then
        { s with
          pool := s.pool.cacheUserObject { objUser with bIsDirty := false }
          stored := Function.update s.stored nUserId objUser.gold }
      else
        s

namespace World

/-- A room server on which nobody is, and no message. -/
def init (logic : LogicState) (balance roomCard : Int → ℚ) (idRandom random : Nat → Nat) : World where
  logic := logic
  balance := balance
  roomCard := roomCard
  room := .ctor idRandom random
  toRoom := []

variable (cfg : ServerConfig) (w : World) (nUserId : Int)

/-- The object of the current user. -/
def account : Option Account :=
  (w.logic.pool.getUserObject nUserId).map fun objUser => ⟨objUser, w.balance nUserId, w.roomCard nUserId⟩

/-- The object of the current user has changed. -/
def put : Option Account → World
  | none => w
  | some account =>
      { w with
        logic := { w.logic with pool := w.logic.pool.cacheUserObject account.objUser }
        balance := Function.update w.balance nUserId account.nBalance
        roomCard := Function.update w.roomCard nUserId account.nRoomCard }

/-- `ClientRequest`: `Commit` comes after the handler, and is not reached when it raises. -/
def request {α : Type} (handler : LuaM (Option Account) α) : World :=
  match exec handler (w.account nUserId) with
  | (.ok _, account) => { w.put nUserId account with logic := commit (w.put nUserId account).logic nUserId }
  | (.error _, account) => w.put nUserId account

/-- `EnterGame`: the game data of the user go to the room server. -/
def enterRoom (nHandlerId nGameType nRoomId : Int) : World :=
  match w.logic.pool.getUserObject nUserId with
  | none => w
  | some objUser =>
      match cfg.checkCondition objUser.getGold nGameType nRoomId with
      | .error _ => w
      | .ok bIsOk =>
          let tbPacket : EnterCall :=
            ⟨⟨objUser.nUserId, cfg.text objUser.getGold, false⟩, nHandlerId, nGameType, nRoomId⟩
          { w with
            logic := commit w.logic nUserId
            toRoom := if bIsOk then w.toRoom ++ [tbPacket] else w.toRoom }

def deliverEnterRoom : World :=
  match w.toRoom with
  | [] => w
  | tbPacket :: toRoom => { w with room := Room.enter cfg.room w.room tbPacket, toRoom := toRoom }

def deliverSettlement [Arithmetic] : World :=
  match w.room.toLogic with
  | [] => w
  | rows :: toLogic =>
      { w with
        logic := (exec (gameSettlement .sound (some (rows.map cfg.read))) w.logic).2
        room := { w.room with toLogic := toLogic } }

end World

/-- What happens on the two servers and between them. -/
inductive DebtAction where
  | enterRoom (nUserId nHandlerId nGameType nRoomId : Int)
  | deliverEnterRoom
  | bet (nUserId nPosition : Int) (nBet : ℚ)
  | ring (timer : PendingTimer)
  | deliverSettlement
  | updateBalance (nUserId : Int) (nBalance : Option ℚ)
  | buyRoomCard (nUserId : Int) (nId : Option ℚ)

variable (cfg : ServerConfig)

/-- The state after an action; only pending timers ring. -/
def debtStep [Arithmetic] (w : World) : DebtAction → Option World
  | .enterRoom nUserId nHandlerId nGameType nRoomId => some (w.enterRoom cfg nUserId nHandlerId nGameType nRoomId)
  | .deliverEnterRoom => some (w.deliverEnterRoom cfg)
  | .bet nUserId nPosition nBet =>
      (tableStep cfg.room w.room (.bet nUserId nPosition nBet)).map fun room => { w with room := room }
  | .ring timer => (tableStep cfg.room w.room (.ring timer)).map fun room => { w with room := room }
  | .deliverSettlement => some (w.deliverSettlement cfg)
  | .updateBalance nUserId nBalance => some (w.request nUserId (updateBalance nBalance))
  | .buyRoomCard nUserId nId => some (w.request nUserId (Spending.buyRoomCard cfg.store nId))

/-- No user's gold on the logic server is negative, in its objects or in the database. -/
def NoDebt (w : World) : Prop := ∀ u, 0 ≤ w.logic.goldOf u ∧ 0 ≤ w.logic.stored u

/-! ## Cover

A user affords a cost when the gold that he has on the logic server is enough for it and for all that the settlements
on their way and the bets at risk can still take.
-/

namespace World

/-- What the settlements on their way to the logic server move for the user, as it will be read. -/
def inFlight (w : World) (nUserId : Int) : List ℚ := (countsOf nUserId w.room.toLogic.flatten).map cfg.text

/-- The gold on the logic server pays the cost, and stays enough for the settlements on their way and for what the user
has at risk at the tables. -/
def AffordsCost (w : World) (nUserId : Int) (cost : ℚ) : Prop :=
  Affords (w.logic.goldOf nUserId) (w.inFlight cfg nUserId) (w.room.atRisk nUserId) cost

instance (w : World) (nUserId : Int) (cost : ℚ) : Decidable (w.AffordsCost cfg nUserId cost) :=
  inferInstanceAs (Decidable (Affords _ _ _ _))

end World

section Conditions

variable [Arithmetic] (w : World)

/-- Bets that the room server accepts leave no more at risk than the logic server has and will get, and what the logic
server takes from a user, he affords. -/
def Covers : DebtAction → Prop
  | .bet nUserId nPosition nBet => acceptsBet cfg.room w.room nUserId nPosition nBet = true →
      w.room.atRisk nUserId + nBet ≤ w.logic.goldOf nUserId + (w.inFlight cfg nUserId).sum
  | .updateBalance nUserId nBalance =>
      ∀ cost ∈ (w.account nUserId).bind fun account => balanceCost account nBalance, w.AffordsCost cfg nUserId cost
  | .buyRoomCard nUserId nId =>
      ∀ cost ∈ (w.account nUserId).bind fun account => roomCardCost cfg.store account nId,
        w.AffordsCost cfg nUserId cost
  | _ => True

instance : (a : DebtAction) → Decidable (Covers cfg w a)
  | .bet .. => inferInstanceAs (Decidable (_ → _))
  | .updateBalance .. | .buyRoomCard .. =>
      inferInstanceAs (Decidable (∀ cost ∈ (_ : Option ℚ), World.AffordsCost _ _ _ cost))
  | .enterRoom .. | .deliverEnterRoom | .ring _ | .deliverSettlement => isTrue trivial

/-- With the rows of the next settlement, a user's gold is not rounded down. -/
def DeliveryCovered : Prop :=
  ∀ rows ∈ w.room.toLogic.head?, ∀ row ∈ rows,
    w.logic.goldOf row.nUserId + ((countsOf row.nUserId rows).map cfg.text).sum ≤
      ((countsOf row.nUserId rows).map cfg.text).foldl rounding.add (w.logic.goldOf row.nUserId)

/-- No result of the step is rounded to the disadvantage of a user. -/
def LosesNothing : DebtAction → Prop
  | .bet nUserId nPosition nBet => acceptsBet cfg.room w.room nUserId nPosition nBet = true →
      Room.BetCovered w.room nUserId nPosition nBet
  | .ring timer => Room.RingCovered cfg.room cfg.text w.room timer
  | .deliverSettlement => DeliveryCovered cfg w
  | .updateBalance nUserId nBalance => ∀ account ∈ w.account nUserId, BalanceCovered account nBalance
  | .buyRoomCard nUserId nId => ∀ account ∈ w.account nUserId, CardCovered cfg.store account nId
  | .enterRoom .. | .deliverEnterRoom => True

instance : (a : DebtAction) → Decidable (LosesNothing cfg w a)
  | .bet .. => inferInstanceAs (Decidable (_ → Room.BetCovered _ _ _ _))
  | .ring _ => inferInstanceAs (Decidable (Room.RingCovered _ _ _ _))
  | .deliverSettlement => inferInstanceAs (Decidable (∀ _ ∈ (_ : Option _), ∀ _ ∈ (_ : List _), (_ : ℚ) ≤ _))
  | .updateBalance .. => inferInstanceAs (Decidable (∀ _ ∈ (_ : Option _), BalanceCovered _ _))
  | .buyRoomCard .. => inferInstanceAs (Decidable (∀ _ ∈ (_ : Option _), CardCovered _ _ _))
  | .enterRoom .. | .deliverEnterRoom => isTrue trivial

end Conditions

/-! ## Requests

A request for cards or for a deposit takes its price from the gold of the user it is for.
-/

section Commit

variable (s : LogicState) (nUserId u : Int)

/-- `Commit` changes no gold; what it stores is the gold of the object. -/
theorem commit_keeps :
    ((commit s nUserId).pool.getUserObject u).isSome = (s.pool.getUserObject u).isSome ∧
      (commit s nUserId).goldOf u = s.goldOf u ∧
      ((commit s nUserId).stored u = s.stored u ∨ (commit s nUserId).stored u = s.goldOf u) := by
  unfold commit
  cases found : s.pool.getUserObject nUserId with
  | none => exact ⟨rfl, rfl, Or.inl rfl⟩
  | some objUser =>
      have id_eq : objUser.nUserId = nUserId := s.pool.nUserId_of_get found
      dsimp only
      split
      next =>
        simp only [LogicState.goldOf, UserPool.getUserObject_cache, id_eq]
        by_cases same : u = nUserId
        · subst same
          simp [found]
        · simp [same]
      next => exact ⟨rfl, rfl, Or.inl rfl⟩

end Commit

/-- The user has paid the cost at most, and nobody else anything. -/
structure PaidBy (w w' : World) (nUserId : Int) (cost : ℚ) : Prop where
  room : w'.room = w.room
  cached : ∀ u, (w'.logic.pool.getUserObject u).isSome = (w.logic.pool.getUserObject u).isSome
  gold : ∀ u, (w.logic.goldOf u - if u = nUserId then cost else 0) ≤ w'.logic.goldOf u
  stored : ∀ u, w'.logic.stored u = w.logic.stored u ∨ w'.logic.stored u = w'.logic.goldOf u

/-- `Commit` behind a payment takes no gold. -/
theorem PaidBy.commit {w w' : World} {nUserId : Int} {cost : ℚ} (paid : PaidBy w w' nUserId cost) :
    PaidBy w { w' with logic := commit w'.logic nUserId } nUserId cost where
  room := paid.room
  cached u := (commit_keeps w'.logic nUserId u).1.trans (paid.cached u)
  gold u := (paid.gold u).trans (commit_keeps w'.logic nUserId u).2.1.ge
  stored u := by
    obtain ⟨-, gold, stored⟩ := commit_keeps w'.logic nUserId u
    change (Debts.commit w'.logic nUserId).stored u = _ ∨ (Debts.commit w'.logic nUserId).stored u = _
    rcases stored with same | saved
    · rw [same]
      change _ ∨ _ = (Debts.commit w'.logic nUserId).goldOf u
      rw [gold]
      exact paid.stored u
    · right
      change _ = (Debts.commit w'.logic nUserId).goldOf u
      rw [saved, gold]

theorem PaidBy.refl (w : World) (nUserId : Int) : PaidBy w w nUserId 0 where
  room := rfl
  cached _ := rfl
  gold u := by rw [ite_self, sub_zero]
  stored _ := Or.inl rfl

/-- The object of the user is put back with the gold that is left. -/
theorem put_paid {w : World} {nUserId : Int} {account paid : Account} {cost : ℚ}
    (found : w.account nUserId = some account) (same : paid.objUser.nUserId = account.objUser.nUserId)
    (gold : account.objUser.gold - cost ≤ paid.objUser.gold) : PaidBy w (w.put nUserId (some paid)) nUserId cost := by
  obtain ⟨objUser, inPool, rfl⟩ := Option.map_eq_some_iff.mp found
  have id_eq : paid.objUser.nUserId = nUserId := same.trans (w.logic.pool.nUserId_of_get inPool)
  have object : ∀ u, (w.put nUserId (some paid)).logic.pool.getUserObject u =
      if u = nUserId then some paid.objUser else w.logic.pool.getUserObject u := by
    intro u
    rw [← id_eq]
    exact w.logic.pool.getUserObject_cache paid.objUser u
  refine ⟨rfl, fun u => ?_, fun u => ?_, fun u => Or.inl rfl⟩
  · rw [object]
    split
    next here => rw [here, inPool]; rfl
    next => rfl
  · simp only [LogicState.goldOf, object]
    by_cases here : u = nUserId
    · subst here
      simpa [inPool] using gold
    · simp [here, World.put]

/-- Requests send nothing to the room server. -/
theorem request_toRoom {α : Type} (w : World) (nUserId : Int) (handler : LuaM (Option Account) α) :
    (w.request nUserId handler).toRoom = w.toRoom := by
  have put : ∀ account, (w.put nUserId account).toRoom = w.toRoom := by
    intro account
    cases account <;> rfl
  unfold World.request
  split
  · exact put _
  · exact put _

/-- A handler that takes the cost of a request from its user. -/
theorem request_paid {α : Type} {w : World} {nUserId : Int} {handler : LuaM (Option Account) α}
    {cost : Account → Option ℚ} (noObject : (exec handler none).2 = none)
    (pays : ∀ account ∈ w.account nUserId, Paid account (cost account) (exec handler (some account)).2) :
    PaidBy w (w.request nUserId handler) nUserId (((w.account nUserId).bind cost).getD 0) := by
  have put : PaidBy w (w.put nUserId (exec handler (w.account nUserId)).2) nUserId
      (((w.account nUserId).bind cost).getD 0) := by
    cases found : w.account nUserId with
    | none =>
        rw [noObject]
        exact PaidBy.refl w nUserId
    | some account =>
        have paid := pays account found
        rw [Option.bind_some]
        cases price : cost account with
        | none =>
            rw [price] at paid
            rw [show (exec handler (some account)).2 = some account from paid]
            exact put_paid found rfl (sub_zero _).le
        | some price' =>
            rw [price] at paid
            obtain ⟨after, result, same, gold⟩ := paid
            rw [result]
            exact put_paid found same gold
  unfold World.request
  cases result : exec handler (w.account nUserId) with
  | mk value account =>
      rw [result] at put
      cases value with
      | error _ => exact put
      | ok _ => exact put.commit

/-! ## The invariant

Solvency: every user affords all that may still be taken from him, and what is stored is not negative.
-/

/-- Who has a seat, an entry on its way or a settlement on its way has an object on the logic server; everybody affords
what is settled for him and what he has at risk. -/
structure Solvent (cfg : ServerConfig) (w : World) : Prop where
  room : StakesOk w.room
  calls : ∀ call ∈ w.toRoom, (w.logic.pool.getUserObject call.objUser.nUserId).isSome
  seated : ∀ id users, w.room.seats id = some users → ∀ u ∈ users, (w.logic.pool.getUserObject u).isSome
  rows : ∀ row ∈ w.room.toLogic.flatten, (w.logic.pool.getUserObject row.nUserId).isSome
  affords : ∀ u, w.AffordsCost cfg u 0
  stored : ∀ u, 0 ≤ w.logic.stored u

/-- Who affords what may be taken from him has no debts. -/
theorem Solvent.noDebt {cfg : ServerConfig} {w : World} (ok : Solvent cfg w) : NoDebt w :=
  fun u => ⟨(ok.affords u).funds_nonneg, ok.stored u⟩

/-- The rows of a user, as they are read. -/
theorem countsOf_read (cfg : ServerConfig) (nUserId : Int) (rows : List SettlementRow) :
    countsOf nUserId (rows.map cfg.read) = (countsOf nUserId rows).map cfg.text := by
  rw [countsOf, countsOf, List.filter_map, List.map_map, List.map_map]
  rfl

/-- Who has no row gets nothing. -/
theorem countsOf_eq_nil {nUserId : Int} {rows : List SettlementRow} (none : ∀ row ∈ rows, row.nUserId ≠ nUserId) :
    countsOf nUserId rows = [] := by
  rw [countsOf, List.filter_eq_nil_iff.mpr, List.map_nil]
  intro row member
  simpa using none row member

section Steps

variable {cfg : ServerConfig} {w w' : World} (ok : Solvent cfg w)

include ok

/-- Somebody pays what he affords. -/
theorem Solvent.paid {nUserId : Int} {cost : ℚ} (paid : PaidBy w w' nUserId cost)
    (calls : ∀ call ∈ w'.toRoom, (w.logic.pool.getUserObject call.objUser.nUserId).isSome)
    (affords : w.AffordsCost cfg nUserId cost) : Solvent cfg w' := by
  have funds : ∀ u, w'.AffordsCost cfg u 0 := by
    intro u
    have gold := paid.gold u
    unfold World.AffordsCost World.inFlight
    rw [paid.room]
    by_cases same : u = nUserId
    · subst same
      rw [if_pos rfl] at gold
      exact affords.spend.richer gold
    · rw [if_neg same, sub_zero] at gold
      exact (ok.affords u).richer gold
  refine ⟨paid.room ▸ ok.room, ?_, ?_, ?_, funds, fun u => ?_⟩
  · intro call member
    rw [paid.cached]
    exact calls call member
  · intro id users found u member
    rw [paid.cached]
    exact ok.seated id users (paid.room ▸ found) u member
  · intro row member
    rw [paid.cached]
    exact ok.rows row (paid.room ▸ member)
  · rcases paid.stored u with same | saved
    · rw [same]
      exact ok.stored u
    · rw [saved]
      exact (funds u).funds_nonneg

/-- The room server sends rows that are within what was at risk. -/
theorem Solvent.sent {room : RoomState} {toRoom : List EnterCall} {rows : List SettlementRow}
    (stakes : StakesOk room) (calls : toRoom ⊆ w.toRoom)
    (seated : ∀ id users, room.seats id = some users → ∀ u ∈ users, (w.logic.pool.getUserObject u).isSome)
    (step : RiskStep cfg.text w.room room rows)
    (known : ∀ row ∈ rows, (w.logic.pool.getUserObject row.nUserId).isSome) :
    Solvent cfg { w with room := room, toRoom := toRoom } := by
  refine ⟨stakes, fun call member => ok.calls call (calls member), seated, fun row member => ?_, fun u => ?_, ok.stored⟩
  · change row ∈ room.toLogic.flatten at member
    rw [step.sent] at member
    rcases List.mem_append.mp member with old | new
    · exact ok.rows row old
    · exact known row new
  · change Affords (w.logic.goldOf u) ((countsOf u room.toLogic.flatten).map cfg.text) (room.atRisk u) 0
    rw [step.sent, Room.countsOf_append, List.map_append]
    exact (ok.affords u).announce (room.atRisk_nonneg u) (step.covered u)

/-- A snapshot of the gold takes none of it. -/
theorem Solvent.enterRoom (nUserId nHandlerId nGameType nRoomId : Int) :
    Solvent cfg (w.enterRoom cfg nUserId nHandlerId nGameType nRoomId) := by
  unfold World.enterRoom
  cases found : w.logic.pool.getUserObject nUserId with
  | none => exact ok
  | some objUser =>
      dsimp only
      cases cfg.checkCondition objUser.getGold nGameType nRoomId with
      | error _ => exact ok
      | ok bIsOk =>
          have paid := (PaidBy.refl w nUserId).commit
          refine ok.paid ⟨paid.room, paid.cached, paid.gold, paid.stored⟩ ?_ (ok.affords nUserId)
          intro call member
          dsimp only at member
          split at member
          · rcases List.mem_append.mp member with old | new
            · exact ok.calls call old
            · rw [List.mem_singleton.mp new]
              change (w.logic.pool.getUserObject objUser.nUserId).isSome
              rw [w.logic.pool.nUserId_of_get found, found]
              rfl
          · exact ok.calls call member

/-- An entry puts nothing at risk. -/
theorem Solvent.deliverEnterRoom : Solvent cfg (w.deliverEnterRoom cfg) := by
  unfold World.deliverEnterRoom
  cases packets : w.toRoom with
  | nil => exact ok
  | cons call toRoom =>
      dsimp only
      have entered := Room.enter_spec cfg.room ok.room.fresh.lists call
      refine ok.sent (ok.room.enter cfg.room call) ?_ ?_
        ((Room.enter_risk cfg.room ok.room.fresh.lists call).step cfg.text) (fun _ member => absurd member List.not_mem_nil)
      · rw [packets]
        exact List.subset_cons_self call toRoom
      · intro id users found u member
        by_cases getsSeat : call.nGameType = cfg.room.bullFighting ∧ w.room.tbIds ≠ []
        · obtain ⟨taken, ids, start⟩ := List.exists_cons_of_ne_nil getsSeat.2
          rw [(entered.seated taken ids getsSeat.1 start).2.1] at found
          split at found
          · cases found
            rw [List.mem_singleton.mp member]
            exact ok.calls call (packets ▸ List.mem_cons_self)
          · exact ok.seated id users found u member
        · have turnedAway : call.nGameType ≠ cfg.room.bullFighting ∨ w.room.tbIds = [] := by tauto
          rw [(entered.turnedAway turnedAway).2.1] at found
          exact ok.seated id users found u member

/-- A timer that rings announces no more than was at risk. -/
theorem Solvent.ring [Arithmetic] (part : cfg.room.commission ≤ 1) {timer : PendingTimer} {room : RoomState}
    (covered : Room.RingCovered cfg.room cfg.text w.room timer)
    (step : tableStep cfg.room w.room (.ring timer) = some room) : Solvent cfg { w with room := room } := by
  obtain ⟨rows, risk, users⟩ := Room.ring_risk cfg.room part ok.room.nodup covered step
  refine ok.sent (ok.room.ring cfg.room step) (List.Subset.refl _) ?_ risk fun row member => ?_
  · intro id users found u member
    rw [(Room.ring_keeps cfg.room step).seats] at found
    exact ok.seated id users found u member
  · obtain ⟨users, found, seat⟩ := users row member
    exact ok.seated timer.nTableId users found row.nUserId seat

/-- A bet that is covered stays within what its user will have. -/
theorem Solvent.bet [Arithmetic] {nUserId nPosition : Int} {nBet : ℚ} {room : RoomState}
    (covers : Covers cfg w (.bet nUserId nPosition nBet)) (kept : LosesNothing cfg w (.bet nUserId nPosition nBet))
    (step : tableStep cfg.room w.room (.bet nUserId nPosition nBet) = some room) :
    Solvent cfg { w with room := room } := by
  cases step
  have bet := wp_same.mp (wp_mono (Room.bet_risk cfg.room ok.room.apart nUserId nPosition nBet)
    (fun _ _ after => after) fun _ same => Or.inl same)
  have keeps := wp_same.mp (Room.clientBet_keeps cfg.room nUserId nPosition nBet w.room)
  have stakes := ok.room.bet cfg.room nUserId nPosition nBet
  generalize (exec (Room.clientBet cfg.room nUserId nPosition nBet) w.room).2 = room at bet keeps stakes
  rcases bet with rfl | ⟨accepted, staked⟩
  · exact ok
  · refine ⟨stakes, ok.calls, fun id users found => ok.seated id users (keeps.seats id ▸ found), ?_, ?_, ok.stored⟩
    · intro row member
      exact ok.rows row (staked.messages ▸ member)
    · intro u
      change Affords (w.logic.goldOf u) ((countsOf u room.toLogic.flatten).map cfg.text) (room.atRisk u) 0
      rw [staked.messages]
      have most := staked.risk (kept accepted) u
      by_cases same : u = nUserId
      · subst same
        rw [if_pos rfl] at most
        exact (ok.affords u).stake (most.trans (covers accepted))
      · rw [if_neg same, add_zero] at most
        exact (ok.affords u).fewer most

/-- What arrives was in flight before, so nothing more is at risk. -/
theorem Solvent.deliverSettlement [Arithmetic] (covered : DeliveryCovered cfg w) :
    Solvent cfg (w.deliverSettlement cfg) := by
  unfold World.deliverSettlement
  cases messages : w.room.toLogic with
  | nil => exact ok
  | cons rows toLogic =>
      dsimp only
      have inFlight : w.room.toLogic.flatten = rows ++ toLogic.flatten := by rw [messages, List.flatten_cons]
      have whole : (rows.map cfg.read).takeWhile (fun row => Applicable .sound w.logic row) = rows.map cfg.read := by
        apply List.takeWhile_eq_self_iff.mpr
        intro read member
        obtain ⟨row, sent, rfl⟩ := List.mem_map.mp member
        have known := ok.rows row (inFlight ▸ List.mem_append_left _ sent)
        have sound : UserScript.sound.raisesFor row.nUserId (cfg.text row.nCount) = false := ite_self false
        exact decide_eq_true ⟨known, sound⟩
      have applied := gameSettlement_applied .sound (rows.map cfg.read) w.logic
      rw [whole] at applied
      generalize (exec (gameSettlement .sound (some (rows.map cfg.read))) w.logic).2 = logic at applied
      have gold : ∀ u, w.logic.goldOf u + ((countsOf u rows).map cfg.text).sum ≤ logic.goldOf u := by
        intro u
        rw [applied.gold]
        change _ ≤ (countsOf u (rows.map cfg.read)).foldl rounding.add _
        rw [countsOf_read]
        by_cases settled : ∃ row ∈ rows, row.nUserId = u
        · obtain ⟨row, member, rfl⟩ := settled
          exact covered rows (by rw [messages]; rfl) row member
        · rw [countsOf_eq_nil fun row member same => settled ⟨row, member, same⟩]
          exact (add_zero _).le
      have affords : ∀ u, Affords (logic.goldOf u) ((countsOf u toLogic.flatten).map cfg.text) (w.room.atRisk u) 0 := by
        intro u
        have before := ok.affords u
        unfold World.AffordsCost World.inFlight at before
        rw [inFlight, Room.countsOf_append, List.map_append] at before
        exact before.settle.richer (gold u)
      refine ⟨?_, ?_, ?_, ?_, affords, fun u => ?_⟩
      · exact ⟨ok.room.fresh.keeps (.of_eq rfl rfl rfl rfl), ok.room.nodup, ok.room.apart, ok.room.tables⟩
      · intro call member
        rw [applied.cached]
        exact ok.calls call member
      · intro id users found u member
        rw [applied.cached]
        exact ok.seated id users found u member
      · intro row member
        rw [applied.cached]
        exact ok.rows row (inFlight ▸ List.mem_append_right _ member)
      · by_cases settled : ∃ row ∈ rows, row.nUserId = u
        · obtain ⟨row, member, rfl⟩ := settled
          have saved := applied.saved (cfg.read row) (List.mem_map_of_mem member)
          rw [show logic.stored row.nUserId = logic.goldOf row.nUserId from saved]
          exact (affords row.nUserId).funds_nonneg
        · have others := applied.others u fun read member same => by
            obtain ⟨row, sent, rfl⟩ := List.mem_map.mp member
            exact settled ⟨row, sent, same⟩
          rw [others]
          exact ok.stored u

end Steps

/-- What an affordable request costs, its user affords, and so he does where it costs nothing. -/
theorem Solvent.request {α : Type} {cfg : ServerConfig} {w : World} (ok : Solvent cfg w) {nUserId : Int}
    {handler : LuaM (Option Account) α} {cost : Account → Option ℚ} (noObject : (exec handler none).2 = none)
    (pays : ∀ account ∈ w.account nUserId, Paid account (cost account) (exec handler (some account)).2)
    (covers : ∀ price ∈ (w.account nUserId).bind cost, w.AffordsCost cfg nUserId price) :
    Solvent cfg (w.request nUserId handler) := by
  have paid : PaidBy w (w.request nUserId handler) nUserId _ := request_paid noObject pays
  apply ok.paid paid
  · rw [request_toRoom]
    exact ok.calls
  · cases price : (w.account nUserId).bind cost with
    | none => exact ok.affords nUserId
    | some _ => exact covers _ price

/-! ## Runs

Each step that is covered keeps the servers solvent; so does a whole run, and no user is ever in debt.
-/

section Runs

variable [Arithmetic] {cfg} {w w' : World}

/-- The condition on a step: what it promises is covered, and no user loses anything to rounding. -/
def CoversAll (cfg : ServerConfig) (w : World) (a : DebtAction) : Prop := Covers cfg w a ∧ LosesNothing cfg w a

instance (cfg : ServerConfig) (w : World) (a : DebtAction) : Decidable (CoversAll cfg w a) :=
  inferInstanceAs (Decidable (_ ∧ _))

/-- One case for each action, by the lemmas above. -/
theorem Solvent.step (part : cfg.room.commission ≤ 1) (ok : Solvent cfg w) {a : DebtAction}
    (covers : CoversAll cfg w a) (step : debtStep cfg w a = some w') : Solvent cfg w' := by
  obtain ⟨covers, kept⟩ := covers
  cases a with
  | enterRoom nUserId nHandlerId nGameType nRoomId =>
      cases step
      exact ok.enterRoom nUserId nHandlerId nGameType nRoomId
  | deliverEnterRoom =>
      cases step
      exact ok.deliverEnterRoom
  | bet nUserId nPosition nBet =>
      simp only [debtStep, Option.map_eq_some_iff] at step
      obtain ⟨room, step, rfl⟩ := step
      exact ok.bet covers kept step
  | ring timer =>
      simp only [debtStep, Option.map_eq_some_iff] at step
      obtain ⟨room, step, rfl⟩ := step
      exact ok.ring part kept step
  | deliverSettlement =>
      cases step
      exact ok.deliverSettlement kept
  | updateBalance nUserId nBalance =>
      cases step
      exact ok.request rfl (fun account found => updateBalance_paid (kept account found)) covers
  | buyRoomCard nUserId nId =>
      cases step
      exact ok.request rfl (fun account found => buyRoomCard_paid cfg.store (kept account found)) covers

omit [Arithmetic] in
theorem solvent_init {logic : LogicState} (nonneg : ∀ u, 0 ≤ logic.goldOf u ∧ 0 ≤ logic.stored u)
    (balance roomCard : Int → ℚ) (idRandom random : Nat → Nat) :
    Solvent cfg (.init logic balance roomCard idRandom random) where
  room := Room.stakesOk_ctor idRandom random
  calls _ member := absurd member List.not_mem_nil
  seated id users found := absurd found (by
    simp [World.init, RoomState.seats, RoomState.ctor, Room.TableMap.empty, Room.TableMap.get])
  rows _ member := absurd member List.not_mem_nil
  affords u := Affords.idle (nonneg u).1
  stored u := (nonneg u).2

/-- **No debts.** From servers on which nobody has debts, every run leads to such servers whose bets and spendings are
covered when they are accepted, and in which no number is rounded to a user's disadvantage. -/
theorem noDebt_of_covered (part : cfg.room.commission ≤ 1) {logic : LogicState}
    (nonneg : ∀ u, 0 ≤ logic.goldOf u ∧ 0 ≤ logic.stored u) (balance roomCard : Int → ℚ) (idRandom random : Nat → Nat)
    {actions : List DebtAction}
    (covered : Guarded (debtStep cfg) (CoversAll cfg) (.init logic balance roomCard idRandom random) actions)
    (run : runSteps (debtStep cfg) (.init logic balance roomCard idRandom random) actions = some w) : NoDebt w := by
  have keep : ∀ w a w', Solvent cfg w → CoversAll cfg w a → debtStep cfg w a = some w' → Solvent cfg w' :=
    fun _ _ _ ok covers step => ok.step part covers step
  exact (guarded_invariant keep (solvent_init nonneg balance roomCard idRandom random) covered run).noDebt

end Runs

open scoped DoubleArithmetic

/-- A store without rows, and rooms that let everybody in. -/
def plainServers : ServerConfig where
  room := Room.plainConfig
  store := ⟨fun _ => false, fun _ => none, fun _ => none⟩
  checkCondition _ _ _ := .ok true
  text := Numbers.binary64.text

/-- Every user has 100, and user 1 is there. -/
def oneOnline : LogicState where
  pool := UserPool.empty.cacheUserObject ⟨1, 100, false⟩
  stored _ := 100
  applied := []

theorem oneOnline_nonneg (u : Int) : 0 ≤ oneOnline.goldOf u ∧ 0 ≤ oneOnline.stored u := by
  have stored : (0 : ℚ) ≤ 100 := by norm_num
  refine ⟨?_, stored⟩
  unfold LogicState.goldOf
  rw [show oneOnline.pool = UserPool.empty.cacheUserObject ⟨1, 100, false⟩ from rfl, UserPool.getUserObject_cache]
  by_cases here : u = 1
  · rw [if_pos here]
    exact stored
  · rw [if_neg here]
    exact stored

/-- User 1 enters a room, bets 30 on a hand that loses, and deposits gold before the settlement. -/
def betsAndDeposits (nBalance : ℚ) : List DebtAction :=
  [.enterRoom 1 7 1 1, .deliverEnterRoom, .ring ⟨100000, .freeTimerOver, 1⟩, .bet 1 4 30,
    .updateBalance 1 (some nBalance), .ring ⟨100000, .betTimerOver, 1⟩, .deliverSettlement]

/-- The servers of one user, with a test of the state at the end of a run. -/
theorem exists_of_run (actions : List DebtAction) (test : World → Bool)
    (holds : (runSteps (debtStep plainServers) (.init oneOnline 0 0 0 0) actions).any test = true) :
    ∃ w, runSteps (debtStep plainServers) (.init oneOnline 0 0 0 0) actions = some w ∧ test w = true :=
  (Option.any_eq_true _ _).mp holds

/-- He keeps what he has bet, and pays it. -/
theorem noDebt_of_covered_betsAndDeposits :
    ∃ w, runSteps (debtStep plainServers) (.init oneOnline 0 0 0 0) (betsAndDeposits 70) = some w ∧
      w.logic.goldOf 1 = 0 ∧ NoDebt w := by
  obtain ⟨w, run, paid⟩ := exists_of_run (betsAndDeposits 70) (fun w => decide (w.logic.goldOf 1 = 0))
    (by decide +kernel)
  exact ⟨w, run, of_decide_eq_true paid,
    noDebt_of_covered (by decide +kernel) oneOnline_nonneg 0 0 0 0 (by decide +kernel) run⟩

/-- He deposits all he has, and owes his bet. -/
theorem debt_after_deposit :
    ¬ ∀ (cfg : ServerConfig) (logic : LogicState) (balance roomCard : Int → ℚ) (idRandom random : Nat → Nat)
      (actions : List DebtAction) (w : World), (∀ nPoint, 0 < cfg.room.odds nPoint) → cfg.room.commission ≤ 1 →
        cfg.text = Numbers.binary64.text → (∀ u, 0 ≤ logic.goldOf u ∧ 0 ≤ logic.stored u) →
        runSteps (debtStep cfg) (.init logic balance roomCard idRandom random) actions = some w → NoDebt w := by
  intro claim
  obtain ⟨w, run, owes⟩ := exists_of_run (betsAndDeposits 100) (fun w => decide (w.logic.goldOf 1 < 0))
    (by decide +kernel)
  have odds : ∀ nPoint, 0 < plainServers.room.odds nPoint := fun _ => one_pos
  have noDebt := claim plainServers oneOnline 0 0 0 0 (betsAndDeposits 100) w odds (by decide +kernel)
    rfl oneOnline_nonneg run 1
  exact absurd (of_decide_eq_true owes) (not_lt.mpr noDebt.1)

end GameServer.Logic.Debts
