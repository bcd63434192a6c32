/-
Module: GameServer.Logic.RegisteredIds
Purpose: Which numbers `CheckUserIdLegal` takes for ids of users, beside the ids that registrations on the login server
  gave out, and what requests for other users do with them.
Trusted boundary: numbers are exact; the object, the lists and the pool that a request reads are any answers
Main exports: Asker, Served, addFriend, passRequest, searchUser, registeredIds_registerAll, IsRegistered,
  OnlyRegistered, Mistaken, onlyRegistered_iff
-/
import GameServer.Logic.FriendLogic
import GameServer.Logic.Profiles
import GameServer.Login.SharedRecords

namespace GameServer.Logic

open Lib LuaNumber Login
open Profiles (checkUserIdLegal checkUserIdLegal_iff updateInviterId defaultUserGlobalId)

/-! ## Requests about another user

Four requests carry the id of another user, and each of them checks it with `CheckUserIdLegal`.
-/

/-- What the requests read of the user who makes them and of the pool. -/
structure Asker where
  nUserId : LuaNumber
  isFriendRequestExist : LuaNumber → Bool
  isUserObjectCache : LuaNumber → Bool

/-- The codes of a refusal. -/
inductive Refusal where
  | unknownError
  | userNoRegister
  | userNotFound
  | friendIdIsOneself
  | inviterRequestIsNull
deriving Repr, DecidableEq

/-- What a request does with the id: nothing, ask the database for its record, or go on with its object or request. -/
inductive Served where
  | refused (nErrorCode : Refusal)
  | asks (nUserId : LuaNumber)
  | uses (nUserId : LuaNumber)
  | raised
deriving DecidableEq

section Requests

-- the value of `G_GlobalConfigManager:GetUserGlobalId()`
variable (nUserGlobalId : LuaNumber)

/-- `AddFriend`. -/
def addFriend (nUserId : LuaNumber) (objUser : Option Asker) : Served :=
  match objUser with
  | none => .refused .unknownError
  | some objUser =>
      if !checkUserIdLegal nUserGlobalId nUserId then .refused .userNoRegister
      else if objUser.nUserId.eq nUserId then .refused .friendIdIsOneself
      else if !objUser.isUserObjectCache nUserId then .asks nUserId
      else .uses nUserId

/-- `PassRequest`; where the inviter is not in the pool, the database is asked after the request was deleted. -/
def passRequest (nInviter : LuaNumber) (objUser : Option Asker) : Served :=
  match objUser with
  | none => .refused .unknownError
  | some objUser =>
      if !checkUserIdLegal nUserGlobalId nInviter then .refused .userNoRegister
      else if !objUser.isFriendRequestExist nInviter then .refused .inviterRequestIsNull
      else .uses nInviter

/-- `SearchUser`, which does not ask whether there is an object. -/
def searchUser (nUserId : LuaNumber) (objUser : Option Asker) : Served :=
  if !checkUserIdLegal nUserGlobalId nUserId then .refused .userNotFound
  else
    match objUser with
    | none => .raised
    | some objUser =>
        if objUser.nUserId.eq nUserId then .refused .friendIdIsOneself
        else if !objUser.isUserObjectCache nUserId then .asks nUserId
        else .uses nUserId

/-- The request goes on with the id. -/
def Served.accepts (served : Served) (nUserId : LuaNumber) : Prop := served = .asks nUserId ∨ served = .uses nUserId

theorem legal_of_addFriend {nUserId : LuaNumber} {objUser : Option Asker}
    (accepted : (addFriend nUserGlobalId nUserId objUser).accepts nUserId) :
    checkUserIdLegal nUserGlobalId nUserId = true := by
  unfold addFriend Served.accepts at accepted
  cases legal : checkUserIdLegal nUserGlobalId nUserId with
  | true => rfl
  | false => cases objUser <;> simp [legal] at accepted

theorem legal_of_passRequest {nInviter : LuaNumber} {objUser : Option Asker}
    (accepted : (passRequest nUserGlobalId nInviter objUser).accepts nInviter) :
    checkUserIdLegal nUserGlobalId nInviter = true := by
  unfold passRequest Served.accepts at accepted
  cases legal : checkUserIdLegal nUserGlobalId nInviter with
  | true => rfl
  | false => cases objUser <;> simp [legal] at accepted

theorem legal_of_searchUser {nUserId : LuaNumber} {objUser : Option Asker}
    (accepted : (searchUser nUserGlobalId nUserId objUser).accepts nUserId) :
    checkUserIdLegal nUserGlobalId nUserId = true := by
  unfold searchUser Served.accepts at accepted
  cases legal : checkUserIdLegal nUserGlobalId nUserId with
  | true => rfl
  | false => simp [legal] at accepted

theorem legal_of_updateInviterId {nInviterId : LuaNumber} {objUser : Profiles.UserData}
    (accepted : (updateInviterId nUserGlobalId (.number nInviterId) objUser).1.nErrorCode = .ok) :
    checkUserIdLegal nUserGlobalId nInviterId = true := by
  unfold updateInviterId at accepted
  cases legal : checkUserIdLegal nUserGlobalId nInviterId with
  | true => rfl
  | false => simp [legal, Profiles.refuse] at accepted

end Requests

/-- The check on whole numbers is the one of the friend requests. -/
theorem checkUserIdLegal_whole (w : LogicWorld) (nUserId : Int) :
    w.checkUserIdLegal userGlobalIdDefault nUserId = checkUserIdLegal (.finite w.userGlobalId) (.finite nUserId) := by
  rw [Bool.eq_iff_iff, checkUserIdLegal_iff, LogicWorld.checkUserIdLegal, userGlobalIdDefault, defaultUserGlobalId]
  simp only [LuaNumber.ofNat_eq, lt_finite, decide_eq_false_iff_not, not_lt]
  norm_cast
  simp

/-! ## Registrations

The ids that were given out are the numbers from the default up to the counter, which is the next one.
-/

variable (cfg : LoginConfig)

/-- The ids that users were registered under. -/
def registeredIds (s : LoginState) : List Int := s.registered.map Registered.nUserId

/-- The ids before the counter were given out, from the default on, and the counter is the next one. -/
structure Counted (s : LoginState) (k : Nat) : Prop where
  counter : s.userGlobalId = some (userGlobalIdDefault + k)
  ids : registeredIds s = (List.range k).map fun i : Nat => userGlobalIdDefault + i
  made : friendInfoTemplate < s.heap.next

theorem counted_loaded : Counted (.loaded cfg userGlobalIdDefault) 0 where
  counter := rfl
  ids := rfl
  made := Nat.lt_succ_self friendInfoTemplate

/-- A registration gives out the id that the counter stands at. -/
theorem Counted.registerOne {s : LoginState} {k : Nat} (counted : Counted s k) (c : RegisterCall) :
    Counted (registerOne cfg s c) (k + 1) := by
  have spec := registerOne_spec cfg counted.counter counted.made c
  constructor
  · rw [spec.globalId, nextGlobalId, globalIdOr, userGlobalIdDefault]
    rw [if_neg (by omega)]
    push_cast
    rw [add_assoc]
  · rw [registeredIds, spec.registered, List.map_append, ← registeredIds, counted.ids, List.range_succ, List.map_append]
    rfl
  · rw [spec.next]
    exact Nat.lt_succ_of_lt counted.made

/-- As many ids as there were calls. -/
theorem Counted.registerAll {s : LoginState} {k : Nat} (counted : Counted s k) (calls : List RegisterCall) :
    Counted (registerAll cfg s calls) (k + calls.length) := by
  induction calls generalizing s k with
  | nil => exact counted
  | cons c calls ih =>
      rw [List.length_cons, Nat.add_comm calls.length, ← Nat.add_assoc]
      exact ih (counted.registerOne cfg c)

/-- After any registrations the ids that were given out are those from the default to the one before the counter. -/
theorem mem_registeredIds_iff {s : LoginState} {k : Nat} (counted : Counted s k) (nUserId : Int) :
    nUserId ∈ registeredIds s ↔ userGlobalIdDefault ≤ nUserId ∧ nUserId < userGlobalIdDefault + k := by
  rw [counted.ids, List.mem_map]
  constructor
  · rintro ⟨i, member, rfl⟩
    have small := List.mem_range.mp member
    omega
  · rintro ⟨low, high⟩
    exact ⟨(nUserId - userGlobalIdDefault).toNat, List.mem_range.mpr (by omega), by omega⟩

/-! ## Legal ids

The check lets the counter itself pass, fractions and NaN; of all other numbers exactly the ids of registered users.
-/

/-- The number is the id of a registered user. -/
def IsRegistered (s : LoginState) (n : LuaNumber) : Prop := ∃ nUserId ∈ registeredIds s, n = .finite (nUserId : ℚ)

/-- The number is taken for legal exactly when it is the id of a registered user, and no request goes on with one that
is not. -/
structure OnlyRegistered (s : LoginState) (nUserGlobalId n : LuaNumber) : Prop where
  legal : checkUserIdLegal nUserGlobalId n = true ↔ IsRegistered s n
  addFriend : ∀ objUser, (addFriend nUserGlobalId n objUser).accepts n → IsRegistered s n
  passRequest : ∀ objUser, (passRequest nUserGlobalId n objUser).accepts n → IsRegistered s n
  searchUser : ∀ objUser, (searchUser nUserGlobalId n objUser).accepts n → IsRegistered s n
  updateInviterId : ∀ objUser, (updateInviterId nUserGlobalId (.number n) objUser).1.nErrorCode = .ok → IsRegistered s n

theorem onlyRegistered_of_legal {s : LoginState} {nUserGlobalId n : LuaNumber}
    (legal : checkUserIdLegal nUserGlobalId n = true ↔ IsRegistered s n) : OnlyRegistered s nUserGlobalId n where
  legal := legal
  addFriend _ accepted := legal.mp (legal_of_addFriend nUserGlobalId accepted)
  passRequest _ accepted := legal.mp (legal_of_passRequest nUserGlobalId accepted)
  searchUser _ accepted := legal.mp (legal_of_searchUser nUserGlobalId accepted)
  updateInviterId _ accepted := legal.mp (legal_of_updateInviterId nUserGlobalId accepted)

/-- The number is legal, but nobody's id: NaN, the counter, or a fraction between the ids. -/
inductive Mistaken (nUserGlobalId : Int) : LuaNumber → Prop
  | nan : Mistaken nUserGlobalId .nan
  | counter : Mistaken nUserGlobalId (.finite nUserGlobalId)
  | fraction (q : ℚ) (low : (userGlobalIdDefault : ℚ) < q) (high : q < nUserGlobalId) (notWhole : ∀ k : Int, q ≠ k) :
      Mistaken nUserGlobalId (.finite q)

/-- The check compares with the default and the counter, and NaN is neither below nor above. -/
theorem checkUserIdLegal_counter_iff (nUserGlobalId : Int) (n : LuaNumber) :
    checkUserIdLegal (.finite nUserGlobalId) n = true ↔
      n = .nan ∨ ∃ q, n = .finite q ∧ (userGlobalIdDefault : ℚ) ≤ q ∧ q ≤ nUserGlobalId := by
  rw [checkUserIdLegal_iff, defaultUserGlobalId]
  cases n with
  | finite q => simp [lt, userGlobalIdDefault]
  | posInf => simp [lt]
  | negInf => simp [lt]
  | nan => simp [lt]

/-- No mistaken number is anybody's id. -/
theorem not_registered_of_mistaken {s : LoginState} {k : Nat} (counted : Counted s k) {n : LuaNumber}
    (mistaken : Mistaken (userGlobalIdDefault + k) n) : ¬ IsRegistered s n := by
  rintro ⟨nUserId, member, same⟩
  cases mistaken with
  | nan => cases same
  | counter =>
      have isCounter : userGlobalIdDefault + (k : Int) = nUserId := by exact_mod_cast LuaNumber.finite.inj same
      have below := ((mem_registeredIds_iff counted nUserId).mp member).2
      omega
  | fraction q low high notWhole => exact notWhole nUserId (LuaNumber.finite.inj same)

/-- Every mistaken number passes the check. -/
theorem legal_of_mistaken {k : Nat} {n : LuaNumber} (mistaken : Mistaken (userGlobalIdDefault + k) n) :
    checkUserIdLegal (.finite (userGlobalIdDefault + k : Int)) n = true := by
  rw [checkUserIdLegal_counter_iff]
  cases mistaken with
  | nan => exact Or.inl rfl
  | counter =>
      have low : userGlobalIdDefault ≤ userGlobalIdDefault + (k : Int) := by omega
      exact Or.inr ⟨_, rfl, by exact_mod_cast low, le_refl _⟩
  | fraction q low high notWhole => exact Or.inr ⟨q, rfl, low.le, high.le⟩

/-- Every other number passes the check exactly when it is an id. -/
theorem legal_iff_registered {s : LoginState} {k : Nat} (counted : Counted s k) {n : LuaNumber}
    (right : ¬ Mistaken (userGlobalIdDefault + k) n) :
    checkUserIdLegal (.finite (userGlobalIdDefault + k : Int)) n = true ↔ IsRegistered s n := by
  rw [checkUserIdLegal_counter_iff]
  constructor
  · rintro (rfl | ⟨q, rfl, low, high⟩)
    · exact absurd .nan right
    · have whole : ∃ k : Int, q = k := by
        by_contra fraction
        push Not at fraction
        refine right (.fraction q (lt_of_le_of_ne low (fraction _).symm) ?_ fraction)
        exact lt_of_le_of_ne high (fraction _)
      obtain ⟨nUserId, rfl⟩ := whole
      have notCounter : nUserId ≠ userGlobalIdDefault + k := by
        rintro rfl
        exact right .counter
      have atLeast : userGlobalIdDefault ≤ nUserId := by exact_mod_cast low
      have atMost : nUserId ≤ userGlobalIdDefault + k := by exact_mod_cast high
      exact ⟨nUserId, (mem_registeredIds_iff counted nUserId).mpr ⟨atLeast, by omega⟩, rfl⟩
  · rintro ⟨nUserId, member, rfl⟩
    obtain ⟨low, high⟩ := (mem_registeredIds_iff counted nUserId).mp member
    exact Or.inr ⟨nUserId, rfl, by exact_mod_cast low, by exact_mod_cast high.le⟩

/-- **Legal ids.** After any registrations, for a logic server that has the login server's counter and for every
number, the check and the requests are right about it unless it is a mistaken one. -/
theorem onlyRegistered_iff (calls : List RegisterCall) (nUserGlobalId : Int)
    (cached : (registerAll cfg (.loaded cfg userGlobalIdDefault) calls).userGlobalId = some nUserGlobalId)
    (n : LuaNumber) :
    OnlyRegistered (registerAll cfg (.loaded cfg userGlobalIdDefault) calls) (.finite nUserGlobalId) n ↔
      ¬ Mistaken nUserGlobalId n := by
  have counted := (counted_loaded cfg).registerAll cfg calls
  obtain rfl : userGlobalIdDefault + (0 + calls.length : Nat) = nUserGlobalId :=
    Option.some.inj (counted.counter.symm.trans cached)
  constructor
  · intro only mistaken
    exact not_registered_of_mistaken counted mistaken (only.legal.mp (legal_of_mistaken mistaken))
  · intro right
    exact onlyRegistered_of_legal (legal_iff_registered counted right)

/-- The first user's id, when one is registered. -/
theorem onlyRegistered_first :
    OnlyRegistered (registerAll guestConfig (.loaded guestConfig userGlobalIdDefault) [⟨7, "device", "ip"⟩])
        (.finite (100002 : Int)) 100001 ↔ ¬ Mistaken 100002 100001 :=
  onlyRegistered_iff guestConfig [⟨7, "device", "ip"⟩] 100002 (by decide) 100001

/-- Before anybody is registered, the counter itself passes for an id. -/
theorem not_onlyRegistered_counter :
    ¬ ∀ (cfg : LoginConfig) (calls : List RegisterCall) (nUserGlobalId : Int) (n : LuaNumber),
      (registerAll cfg (.loaded cfg userGlobalIdDefault) calls).userGlobalId = some nUserGlobalId →
        OnlyRegistered (registerAll cfg (.loaded cfg userGlobalIdDefault) calls) (.finite nUserGlobalId) n := by
  intro all
  have right := all guestConfig [] 100001 (.finite 100001) rfl
  obtain ⟨nUserId, member, -⟩ := right.legal.mp (by decide)
  exact absurd member List.not_mem_nil

end GameServer.Logic
