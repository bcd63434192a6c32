/-
Module: GameServer.Logic.Profiles
Purpose: The handlers of `UserInfoLogic` that change the profile and the deposit of a user, under which requests the
  stored profiles stay valid, and which deposits conserve what the user owns.
Trusted boundary: the class of user objects is not in the repository: its getters and setters read and set one field
Main exports: UserData, Request, handle, updateBalance, Valid, Sound, valid_step_iff, profilesKept_iff,
  deposits_conserve_iff
-/
import Mathlib.Data.List.Infix
import GameServer.Lib.LuaNumber
import GameServer.Lib.Runs

namespace GameServer.Logic.Profiles

open Lib LuaNumber

/-! ## Users and requests

The requests of the profile, with the values that a client can send, and the fields of the record that they touch.
-/

/-- The codes that the handlers return. -/
inductive ProfileCode where
  | ok
  | unknownError
  | paramterError
  | balanceIsOutOfRange
  | avatarIdIsOutOfRange
  | sexIsOutOfRange
  | inviterIdIsOutOfRange
  | inviterIdIsNotEmpty
  | inviterIdIsOneself
  | phoneNoIsIllegal
  | haveBeenBound
deriving Repr, DecidableEq

/-- What a client can send. -/
inductive Argument where
  | nil
  | boolean (b : Bool)
  | number (n : LuaNumber)
  | string (s : List UInt8)
  | table
deriving DecidableEq

/-- The fields of a user that the handlers read or set; the two that the source compares with `nil` may be absent. -/
structure UserData where
  nUserId : LuaNumber
  nGold : LuaNumber
  nBalance : LuaNumber
  nAvatar : LuaNumber
  nSex : LuaNumber
  strNickName : List UInt8
  nInviterId : Option LuaNumber
  strPhoneNo : Option (List UInt8)
deriving DecidableEq

/-- The error code and the values behind it. -/
structure Answer where
  nErrorCode : ProfileCode
  values : List LuaNumber
deriving DecidableEq

/-- `if not objUser then return nErrorCode`, which all handlers begin with. -/
def onUser (objUser : Option UserData) (handler : UserData → Answer × UserData) : Answer × Option UserData :=
  match objUser with
  | none => (⟨.unknownError, []⟩, none)
  | some objUser => ((handler objUser).1, some (handler objUser).2)

def refuse (nErrorCode : ProfileCode) (objUser : UserData) : Answer × UserData := (⟨nErrorCode, []⟩, objUser)

def accept (objUser : UserData) : Answer × UserData := (⟨.ok, []⟩, objUser)

/-! ## Handlers

One definition for each handler of `user_info_logic.lua`, with the checks in its order.
-/

/-- `IsFloat`. -/
def isFloat (t : LuaNumber) : Bool := lt t.floor t

/-- `UpdateBalance`. -/
def updateBalance (nBalance : Argument) (objUser : UserData) : Answer × UserData :=
  match nBalance with
  | .number nBalance =>
      if nBalance.lt 0 then refuse .paramterError objUser
      else if isFloat nBalance then refuse .paramterError objUser
      else
        let nTotal := objUser.nGold.add objUser.nBalance
        if nTotal.lt nBalance then refuse .balanceIsOutOfRange objUser
        else
          let nGold := nTotal.sub nBalance
          (⟨.ok, [nBalance, nGold]⟩, { objUser with nGold := nGold, nBalance := nBalance })
  | _ => refuse .paramterError objUser

/-- `ClientUpdateBalance`. -/
def clientUpdateBalance (objUser : Option UserData) (nBalance : Argument) : Answer × Option UserData :=
  match nBalance with
  | .number _ => onUser objUser (updateBalance nBalance)
  | _ => (⟨.paramterError, []⟩, objUser)

/-- `UpdateAvatar`. -/
def updateAvatar (nAvatarId : Argument) (objUser : UserData) : Answer × UserData :=
  match nAvatarId with
  | .number nAvatarId =>
      if nAvatarId.lt 0 || lt 15 nAvatarId then refuse .avatarIdIsOutOfRange objUser
      else if !objUser.nAvatar.eq nAvatarId then accept { objUser with nAvatar := nAvatarId }
      else accept objUser
  | _ => refuse .paramterError objUser

/-- `UpdateSex`; `FEMALE` is 0 and `MALE` is 1. -/
def updateSex (nSex : Argument) (objUser : UserData) : Answer × UserData :=
  match nSex with
  | .number nSex =>
      if !nSex.eq 0 && !nSex.eq 1 then refuse .sexIsOutOfRange objUser
      else if !objUser.nSex.eq nSex then accept { objUser with nSex := nSex }
      else accept objUser
  | _ => refuse .paramterError objUser

/-- `STRING_LENGTH_DEF.NICK_NAME`. -/
def nickNameLength : Nat := 10

/-- `STRING_LENGTH_DEF.PHONE_NO`. -/
def phoneNoLength : Nat := 11

def checkTextLegal : Bool := true

def checkNickNameLegal (strNickName : List UInt8) : Bool :=
  if strNickName.length > nickNameLength then false
  else if !checkTextLegal then false
  else true

/-- `UpdateNickName`: the code that is set for an illegal name is overwritten. -/
def updateNickName (strNickName : Argument) (objUser : UserData) : Answer × UserData :=
  match strNickName with
  | .string strNickName =>
      let _nErrorCode := if !checkNickNameLegal strNickName then ProfileCode.paramterError else .unknownError
      accept { objUser with strNickName := strNickName }
  | _ => refuse .paramterError objUser

/-- The class `%d`. -/
def isDigit (b : UInt8) : Bool := 48 ≤ b && b ≤ 57

/-- A match of `[1]%d%d%d%d%d%d%d%d%d%d` at the start. -/
def startsWithPhoneNo : List UInt8 → Bool
  | [] => false
  | b :: rest => b == 49 && (rest.take 10).length == 10 && (rest.take 10).all isDigit

/-- `CheckPhoneNoFormat` of a string; `string.find` tries all places. -/
def checkPhoneNoFormat (strPhoneNo : List UInt8) : Bool :=
  if strPhoneNo.length ≠ phoneNoLength then false
  else strPhoneNo.tails.any startsWithPhoneNo

/-- `BindingPhoneNo`. -/
def bindingPhoneNo (strPhoneNo : Argument) (objUser : UserData) : Answer × UserData :=
  match strPhoneNo with
  | .string strPhoneNo =>
      if !checkPhoneNoFormat strPhoneNo then refuse .phoneNoIsIllegal objUser
      else if objUser.strPhoneNo.any fun strOldPhoneNo => strOldPhoneNo.length > 0 then refuse .haveBeenBound objUser
      else accept { objUser with strPhoneNo := some strPhoneNo }
  | _ => refuse .phoneNoIsIllegal objUser

/-- `DATABASE_TABLE_GLOBAL_DEFALUT[USER_ID]`. -/
def defaultUserGlobalId : LuaNumber := 100001

section GlobalId

-- the value of `G_GlobalConfigManager:GetUserGlobalId()`
variable (nUserGlobalId : LuaNumber)

/-- `CheckUserIdLegal` of a number. -/
def checkUserIdLegal (nUserId : LuaNumber) : Bool :=
  if nUserId.lt defaultUserGlobalId || nUserGlobalId.lt nUserId then false else true

theorem checkUserIdLegal_iff (nUserId : LuaNumber) :
    checkUserIdLegal nUserGlobalId nUserId = true ↔
      nUserId.lt defaultUserGlobalId = false ∧ nUserGlobalId.lt nUserId = false := by
  unfold checkUserIdLegal
  cases nUserId.lt defaultUserGlobalId <;> cases nUserGlobalId.lt nUserId <;> simp

/-- `UpdateInviterId`. -/
def updateInviterId (nInviterId : Argument) (objUser : UserData) : Answer × UserData :=
  match nInviterId with
  | .number nInviterId =>
      if !checkUserIdLegal nUserGlobalId nInviterId then refuse .inviterIdIsOutOfRange objUser
      else if objUser.nInviterId.any fun nOldInviterId => lt 0 nOldInviterId then refuse .inviterIdIsNotEmpty objUser
      else if objUser.nUserId.eq nInviterId then refuse .inviterIdIsOneself objUser
      else if !objUser.nInviterId.any fun nOldInviterId => nOldInviterId.eq nInviterId then
        accept { objUser with nInviterId := some nInviterId }
      else accept objUser
  | _ => refuse .paramterError objUser

/-- The requests that change the profile. -/
inductive Request where
  | updateAvatar (nAvatarId : Argument)
  | updateSex (nSex : Argument)
  | updateNickName (strNickName : Argument)
  | updateInviterId (nInviterId : Argument)
  | bindingPhoneNo (strPhoneNo : Argument)
deriving DecidableEq

def handle : Request → UserData → Answer × UserData
  | .updateAvatar nAvatarId => updateAvatar nAvatarId
  | .updateSex nSex => updateSex nSex
  | .updateNickName strNickName => updateNickName strNickName
  | .updateInviterId nInviterId => updateInviterId nUserGlobalId nInviterId
  | .bindingPhoneNo strPhoneNo => bindingPhoneNo strPhoneNo

/-- The record after a request. -/
def after (objUser : UserData) (request : Request) : UserData := (handle nUserGlobalId request objUser).2

/-- The checks that the source makes of the argument. -/
def PassesCheck : Request → Bool
  | .updateAvatar (.number n) => !(n.lt 0 || lt 15 n)
  | .updateSex (.number n) => n.eq 0 || n.eq 1
  | .updateNickName (.string s) => checkNickNameLegal s
  | .updateInviterId (.number n) => checkUserIdLegal nUserGlobalId n
  | .bindingPhoneNo (.string s) => checkPhoneNoFormat s
  | _ => false

end GlobalId

/-! ## Valid profiles

What a profile should be, in terms of its own: a phone number is eleven digits of which the first is 1, an inviter is
the id of another user, and so on.
-/

/-- A '1' and ten digits. -/
def IsPhoneNo (strPhoneNo : List UInt8) : Prop :=
  ∃ digits, strPhoneNo = 49 :: digits ∧ digits.length = 10 ∧ ∀ b ∈ digits, isDigit b = true

theorem startsWithPhoneNo_of_short {s : List UInt8} (short : s.length < 11) : startsWithPhoneNo s = false := by
  cases s with
  | nil => rfl
  | cons b rest =>
      have tooShort : (rest.take 10).length ≠ 10 := by
        rw [List.length_take]
        simp only [List.length_cons] at short
        omega
      rw [startsWithPhoneNo, beq_false_of_ne tooShort, Bool.and_false, Bool.false_and]

/-- In eleven bytes there is room for one match only. -/
theorem checkPhoneNoFormat_iff (s : List UInt8) : checkPhoneNoFormat s = true ↔ IsPhoneNo s := by
  constructor
  · intro passes
    unfold checkPhoneNoFormat at passes
    split at passes
    · exact absurd passes (by simp)
    · next exactly =>
      have eleven : s.length = 11 := not_not.mp exactly
      obtain ⟨tail, member, found⟩ := List.any_eq_true.mp passes
      have isSuffix : tail <:+ s := (List.mem_tails tail s).mp member
      have long : ¬ tail.length < 11 := by
        intro short
        rw [startsWithPhoneNo_of_short short] at found
        exact absurd found (by simp)
      have whole : tail = s := isSuffix.eq_of_length_le (by omega)
      subst whole
      cases tail with
      | nil => simp at eleven
      | cons b rest =>
          have ten : rest.length = 10 := by simpa using eleven
          simp only [startsWithPhoneNo, Bool.and_eq_true, beq_iff_eq, List.all_eq_true,
            List.take_of_length_le (Nat.le_of_eq ten)] at found
          obtain ⟨⟨isOne, -⟩, digits⟩ := found
          exact ⟨rest, by rw [isOne], ten, digits⟩
  · rintro ⟨digits, rfl, ten, all⟩
    have matched : startsWithPhoneNo (49 :: digits) = true := by
      simp only [startsWithPhoneNo, Bool.and_eq_true, beq_iff_eq, List.all_eq_true,
        List.take_of_length_le (Nat.le_of_eq ten)]
      exact ⟨⟨trivial, ten⟩, all⟩
    have eleven : (49 :: digits).length = phoneNoLength := by rw [List.length_cons, ten, phoneNoLength]
    unfold checkPhoneNoFormat
    rw [if_neg (not_not.mpr eleven)]
    exact List.any_eq_true.mpr ⟨_, (List.mem_tails _ _).mpr (List.suffix_refl _), matched⟩

section Validity

-- which numbers are ids: all of them, or only whole ones
variable (IsId : ℚ → Prop) (nUserGlobalId : LuaNumber)

def IsIdNumber (n : LuaNumber) : Prop := ∃ q, n = .finite q ∧ IsId q

/-- An id that can be stored as the inviter of the user. -/
structure IsInviterOf (objUser : UserData) (n : LuaNumber) : Prop where
  id : IsIdNumber IsId n
  legal : checkUserIdLegal nUserGlobalId n = true
  other : n ≠ objUser.nUserId

structure Valid (objUser : UserData) : Prop where
  avatar : IsIdNumber IsId objUser.nAvatar ∧ objUser.nAvatar.lt 0 = false ∧ lt 15 objUser.nAvatar = false
  sex : objUser.nSex = 0 ∨ objUser.nSex = 1
  nickName : objUser.strNickName.length ≤ nickNameLength
  phoneNo : objUser.strPhoneNo.getD [] = [] ∨ IsPhoneNo (objUser.strPhoneNo.getD [])
  inviterId : objUser.nInviterId.getD 0 = 0 ∨ IsInviterOf IsId nUserGlobalId objUser (objUser.nInviterId.getD 0)

/-- The request does not reach one of the places where the source lets an argument through that is not valid: names are
stored whatever their length, and the ranges of ids do not keep out NaN, nor a number that is no id. -/
def Sound (objUser : UserData) : Request → Prop
  | .updateNickName (.string strNickName) => strNickName.length ≤ nickNameLength
  | .updateAvatar (.number n) => PassesCheck nUserGlobalId (.updateAvatar (.number n)) = true → IsIdNumber IsId n
  | .updateInviterId (.number n) =>
      PassesCheck nUserGlobalId (.updateInviterId (.number n)) = true →
        objUser.nInviterId.getD 0 ≠ 0 ∨ objUser.nUserId.eq n = true ∨ IsIdNumber IsId n
  | _ => True

/-- The two records differ in the field that the request is about, at most. -/
def SameButOwn (objUser other : UserData) : Request → Prop
  | .updateAvatar _ => other = { objUser with nAvatar := other.nAvatar }
  | .updateSex _ => other = { objUser with nSex := other.nSex }
  | .updateNickName _ => other = { objUser with strNickName := other.strNickName }
  | .updateInviterId _ => other = { objUser with nInviterId := other.nInviterId }
  | .bindingPhoneNo _ => other = { objUser with strPhoneNo := other.strPhoneNo }

end Validity

/-! ## One request

A request either leaves the record as it was, or stores its argument in its own field.
-/

/-- An inviter is stored when the record holds a number above 0. -/
def HasInviter (objUser : UserData) : Prop := ∃ n, objUser.nInviterId = some n ∧ lt 0 n = true

/-- A phone number is stored when the record holds a string that is not empty. -/
def HasPhoneNo (objUser : UserData) : Prop := ∃ s, objUser.strPhoneNo = some s ∧ s ≠ []

/-- The comparison that the source makes. -/
theorem hasInviter_iff_any (objUser : UserData) :
    HasInviter objUser ↔ (objUser.nInviterId.any fun nOldInviterId => lt 0 nOldInviterId) = true := by
  cases stored : objUser.nInviterId with
  | none => simp [HasInviter, stored]
  | some n => simp [HasInviter, stored]

/-- The comparison that the source makes. -/
theorem hasPhoneNo_iff (objUser : UserData) :
    HasPhoneNo objUser ↔ (objUser.strPhoneNo.any fun strOldPhoneNo => strOldPhoneNo.length > 0) = true := by
  cases stored : objUser.strPhoneNo with
  | none => simp [HasPhoneNo, stored]
  | some s => simp [HasPhoneNo, stored, List.length_pos_iff]

/-- The records that requests which are answered with OK leave behind. -/
inductive Accepted (nUserGlobalId : LuaNumber) (objUser : UserData) : Request → UserData → Prop
  | avatar (n : LuaNumber) (passes : PassesCheck nUserGlobalId (.updateAvatar (.number n)) = true) :
      Accepted nUserGlobalId objUser (.updateAvatar (.number n)) { objUser with nAvatar := n }
  | sex (n : LuaNumber) (passes : PassesCheck nUserGlobalId (.updateSex (.number n)) = true) :
      Accepted nUserGlobalId objUser (.updateSex (.number n)) { objUser with nSex := n }
  | nickName (s : List UInt8) :
      Accepted nUserGlobalId objUser (.updateNickName (.string s)) { objUser with strNickName := s }
  | inviterId (n : LuaNumber) (passes : PassesCheck nUserGlobalId (.updateInviterId (.number n)) = true)
      (unset : ¬ HasInviter objUser) (other : objUser.nUserId.eq n = false) :
      Accepted nUserGlobalId objUser (.updateInviterId (.number n)) { objUser with nInviterId := some n }
  | phoneNo (s : List UInt8) (passes : PassesCheck nUserGlobalId (.bindingPhoneNo (.string s)) = true)
      (unset : ¬ HasPhoneNo objUser) :
      Accepted nUserGlobalId objUser (.bindingPhoneNo (.string s)) { objUser with strPhoneNo := some s }

/-- Why requests are refused. -/
inductive Refused (nUserGlobalId : LuaNumber) (objUser : UserData) : Request → Prop
  | check {request : Request} (fails : PassesCheck nUserGlobalId request = false) :
      Refused nUserGlobalId objUser request
  | inviterId (n : LuaNumber) (reason : HasInviter objUser ∨ objUser.nUserId.eq n = true) :
      Refused nUserGlobalId objUser (.updateInviterId (.number n))
  | phoneNo (s : List UInt8) (has : HasPhoneNo objUser) :
      Refused nUserGlobalId objUser (.bindingPhoneNo (.string s))

section Requests

variable (nUserGlobalId : LuaNumber) (objUser : UserData)

/-- What a request can do: it is refused and nothing happens, or it is accepted and its field is set. -/
theorem handle_cases (request : Request) :
    (∃ nErrorCode, nErrorCode ≠ .ok ∧ handle nUserGlobalId request objUser = refuse nErrorCode objUser ∧
      Refused nUserGlobalId objUser request) ∨
    ∃ other, handle nUserGlobalId request objUser = accept other ∧ Accepted nUserGlobalId objUser request other := by
  cases request with
  | updateAvatar nAvatarId =>
      cases nAvatarId with
      | number n =>
          simp only [handle, updateAvatar]
          split
          · next outside => exact Or.inl ⟨_, by decide, rfl, .check (by rw [PassesCheck, outside]; rfl)⟩
          · next inside =>
            have passes : PassesCheck nUserGlobalId (.updateAvatar (.number n)) = true := by
              simpa [PassesCheck] using inside
            split
            · exact Or.inr ⟨_, rfl, .avatar n passes⟩
            · next same =>
              have equal : objUser.nAvatar = n := eq_of_eq (by simpa using same)
              have set : Accepted nUserGlobalId objUser _ _ := .avatar n passes
              refine Or.inr ⟨_, rfl, ?_⟩
              rwa [← equal] at set ⊢
      | _ => exact Or.inl ⟨.paramterError, by decide, rfl, .check rfl⟩
  | updateSex nSex =>
      cases nSex with
      | number n =>
          simp only [handle, updateSex]
          split
          · next outside => exact Or.inl ⟨_, by decide, rfl, .check (by simpa [PassesCheck] using outside)⟩
          · next inside =>
            have passes : PassesCheck nUserGlobalId (.updateSex (.number n)) = true := by
              rw [Bool.not_eq_true, ← Bool.not_or, Bool.not_eq_false'] at inside
              exact inside
            split
            · exact Or.inr ⟨_, rfl, .sex n passes⟩
            · next same =>
              have equal : objUser.nSex = n := eq_of_eq (by simpa using same)
              have set : Accepted nUserGlobalId objUser _ _ := .sex n passes
              refine Or.inr ⟨_, rfl, ?_⟩
              rwa [← equal] at set ⊢
      | _ => exact Or.inl ⟨.paramterError, by decide, rfl, .check rfl⟩
  | updateNickName strNickName =>
      cases strNickName with
      | string s => exact Or.inr ⟨_, rfl, .nickName s⟩
      | _ => exact Or.inl ⟨.paramterError, by decide, rfl, .check rfl⟩
  | updateInviterId nInviterId =>
      cases nInviterId with
      | number n =>
          simp only [handle, updateInviterId]
          split
          · next illegal => exact Or.inl ⟨_, by decide, rfl, .check (by simpa [PassesCheck] using illegal)⟩
          · next legal =>
            have passes : PassesCheck nUserGlobalId (.updateInviterId (.number n)) = true := by
              simpa [PassesCheck] using legal
            split
            · next above =>
              have has : HasInviter objUser := (hasInviter_iff_any objUser).mpr above
              exact Or.inl ⟨_, by decide, rfl, .inviterId n (Or.inl has)⟩
            · next empty =>
              have unset : ¬ HasInviter objUser := fun has => empty ((hasInviter_iff_any objUser).mp has)
              split
              · next self => exact Or.inl ⟨_, by decide, rfl, .inviterId n (Or.inr self)⟩
              · next notSelf =>
                have set : Accepted nUserGlobalId objUser _ _ := .inviterId n passes unset (by simpa using notSelf)
                split
                · exact Or.inr ⟨_, rfl, set⟩
                · next same =>
                  have equal : objUser.nInviterId = some n := by
                    cases stored : objUser.nInviterId with
                    | none => simp [stored] at same
                    | some old =>
                        have oldIs : old = n := eq_of_eq (by simpa [stored] using same)
                        rw [oldIs]
                  refine Or.inr ⟨_, rfl, ?_⟩
                  rwa [← equal] at set
      | _ => exact Or.inl ⟨.paramterError, by decide, rfl, .check rfl⟩
  | bindingPhoneNo strPhoneNo =>
      cases strPhoneNo with
      | string s =>
          simp only [handle, bindingPhoneNo]
          split
          · next illegal => exact Or.inl ⟨_, by decide, rfl, .check (by simpa [PassesCheck] using illegal)⟩
          · next format =>
            split
            · next bound => exact Or.inl ⟨_, by decide, rfl, .phoneNo s ((hasPhoneNo_iff objUser).mpr bound)⟩
            · next empty =>
              have unset : ¬ HasPhoneNo objUser := fun has => empty ((hasPhoneNo_iff objUser).mp has)
              exact Or.inr ⟨_, rfl, .phoneNo s (by simpa [PassesCheck] using format) unset⟩
      | _ => exact Or.inl ⟨.phoneNoIsIllegal, by decide, rfl, .check rfl⟩

/-- A request that is not answered with OK leaves the record as it is. -/
theorem after_of_refused (request : Request)
    (refused : (handle nUserGlobalId request objUser).1.nErrorCode ≠ .ok) :
    after nUserGlobalId objUser request = objUser := by
  rcases handle_cases nUserGlobalId objUser request with ⟨nErrorCode, -, result, -⟩ | ⟨other, result, -⟩
  · rw [after, result, refuse]
  · rw [result] at refused
    exact absurd rfl refused

/-- Whatever a request does, it does to its own field. -/
theorem sameButOwn_after (request : Request) :
    SameButOwn objUser (after nUserGlobalId objUser request) request := by
  rcases handle_cases nUserGlobalId objUser request with ⟨nErrorCode, -, result, -⟩ | ⟨other, result, accepted⟩
  · rw [after, result, refuse]
    cases request <;> rfl
  · rw [after, result, accept]
    cases accepted <;> rfl

/-- An argument that fails its check is refused, unless it is a name. -/
theorem refused_of_fails (request : Request) (fails : PassesCheck nUserGlobalId request = false)
    (notName : ∀ s, request ≠ .updateNickName (.string s)) :
    (handle nUserGlobalId request objUser).1.nErrorCode ≠ .ok := by
  rcases handle_cases nUserGlobalId objUser request with
    ⟨nErrorCode, notOk, result, refused⟩ | ⟨other, result, accepted⟩
  · rw [result]
    exact notOk
  · cases accepted with
    | nickName s => exact absurd rfl (notName s)
    | avatar n passes => exact absurd passes (by rw [fails]; decide)
    | sex n passes => exact absurd passes (by rw [fails]; decide)
    | inviterId n passes unset other => exact absurd passes (by rw [fails]; decide)
    | phoneNo s passes unset => exact absurd passes (by rw [fails]; decide)

/-- A phone number stays. -/
theorem phoneNo_after (has : HasPhoneNo objUser) (request : Request) :
    (after nUserGlobalId objUser request).strPhoneNo = objUser.strPhoneNo := by
  rcases handle_cases nUserGlobalId objUser request with ⟨nErrorCode, -, result, -⟩ | ⟨other, result, accepted⟩
  · rw [after, result, refuse]
  · rw [after, result, accept]
    cases accepted with
    | phoneNo s passes unset => exact absurd has unset
    | _ => rfl

/-- An inviter stays. -/
theorem inviterId_after (has : HasInviter objUser) (request : Request) :
    (after nUserGlobalId objUser request).nInviterId = objUser.nInviterId := by
  rcases handle_cases nUserGlobalId objUser request with ⟨nErrorCode, -, result, -⟩ | ⟨other, result, accepted⟩
  · rw [after, result, refuse]
  · rw [after, result, accept]
    cases accepted with
    | inviterId n passes unset other => exact absurd has unset
    | _ => rfl

end Requests

/-! ## Validity after a request

A request keeps the record valid exactly where it is sound.
-/

section Steps

variable {IsId : ℚ → Prop} {nUserGlobalId : LuaNumber} {objUser : UserData}

/-- A number that passes as a user id is above 0, unless it is NaN. -/
theorem positive_of_inviter {n : LuaNumber} (inviter : IsInviterOf IsId nUserGlobalId objUser n) : lt 0 n = true := by
  obtain ⟨q, rfl, -⟩ := inviter.id
  have legal := inviter.legal
  rw [checkUserIdLegal_iff] at legal
  have least : (100001 : ℚ) ≤ q := by simpa [defaultUserGlobalId, lt] using legal.1
  have positive : (0 : ℚ) < q := by linarith
  simpa [lt] using positive

/-- In a valid profile the inviter is set, or not, for both comparisons. -/
theorem hasInviter_iff (valid : Valid IsId nUserGlobalId objUser) :
    HasInviter objUser ↔ objUser.nInviterId.getD 0 ≠ 0 := by
  constructor
  · rintro ⟨n, stored, positive⟩ none
    rw [stored, Option.getD_some] at none
    rw [none] at positive
    exact absurd positive (by decide)
  · intro set
    have inviter := valid.inviterId.resolve_left set
    cases stored : objUser.nInviterId with
    | none => rw [stored] at set; exact absurd rfl set
    | some n =>
        rw [stored] at inviter
        exact ⟨n, stored, positive_of_inviter inviter⟩

/-- Setting another field keeps the inviter. -/
theorem IsInviterOf.congr {other : UserData} {n : LuaNumber} (inviter : IsInviterOf IsId nUserGlobalId objUser n)
    (sameUser : other.nUserId = objUser.nUserId) : IsInviterOf IsId nUserGlobalId other n :=
  ⟨inviter.id, inviter.legal, by rw [sameUser]; exact inviter.other⟩

/-- The record that an accepted request leaves behind is valid if and only if the request is sound. -/
theorem valid_accepted_iff (valid : Valid IsId nUserGlobalId objUser) {request : Request} {other : UserData}
    (accepted : Accepted nUserGlobalId objUser request other) :
    Valid IsId nUserGlobalId other ↔ Sound IsId nUserGlobalId objUser request := by
  have inviterStays : ∀ {u : UserData}, u.nUserId = objUser.nUserId → objUser.nInviterId.getD 0 = 0 ∨
      IsInviterOf IsId nUserGlobalId u (objUser.nInviterId.getD 0) :=
    fun sameUser => valid.inviterId.imp_right fun inviter => inviter.congr sameUser
  cases accepted with
  | avatar n passes =>
      have range : n.lt 0 = false ∧ lt 15 n = false := by simpa [PassesCheck] using passes
      constructor
      · intro stored _
        exact stored.avatar.1
      · intro sound
        exact ⟨⟨sound passes, range⟩, valid.sex, valid.nickName, valid.phoneNo, inviterStays rfl⟩
  | sex n passes =>
      have isSex : n = 0 ∨ n = 1 := by
        have passes : n.eq 0 = true ∨ n.eq 1 = true := by simpa [PassesCheck] using passes
        exact passes.imp eq_of_eq eq_of_eq
      exact iff_of_true ⟨valid.avatar, isSex, valid.nickName, valid.phoneNo, inviterStays rfl⟩ trivial
  | nickName s =>
      constructor
      · intro stored
        exact stored.nickName
      · intro short
        exact ⟨valid.avatar, valid.sex, short, valid.phoneNo, inviterStays rfl⟩
  | inviterId n passes unset notSelf =>
      have none : objUser.nInviterId.getD 0 = 0 := by
        by_contra set
        exact unset ((hasInviter_iff valid).mpr set)
      constructor
      · intro stored _
        refine Or.inr (Or.inr ?_)
        rcases stored.inviterId with isZero | inviter
        · rw [Option.getD_some] at isZero
          rw [isZero] at passes
          simp [PassesCheck, checkUserIdLegal_iff, defaultUserGlobalId, lt] at passes
        · exact inviter.id
      · intro sound
        rcases sound passes with set | self | id
        · exact absurd none set
        · rw [notSelf] at self
          exact absurd self (by simp)
        · have different : n ≠ objUser.nUserId := by
            rintro rfl
            obtain ⟨q, isFinite, -⟩ := id
            rw [eq_same (by rw [isFinite]; simp)] at notSelf
            exact absurd notSelf (by simp)
          exact ⟨valid.avatar, valid.sex, valid.nickName, valid.phoneNo, Or.inr ⟨id, passes, different⟩⟩
  | phoneNo s passes unset =>
      have isPhoneNo : IsPhoneNo s := (checkPhoneNoFormat_iff s).mp passes
      exact iff_of_true ⟨valid.avatar, valid.sex, valid.nickName, Or.inr isPhoneNo, inviterStays rfl⟩ trivial

/-- A request that is refused is sound. -/
theorem sound_of_refused (valid : Valid IsId nUserGlobalId objUser) {request : Request}
    (refused : Refused nUserGlobalId objUser request) (notName : ∀ s, request ≠ .updateNickName (.string s)) :
    Sound IsId nUserGlobalId objUser request := by
  cases refused with
  | check fails =>
      unfold Sound
      split
      · exact absurd rfl (notName _)
      · exact fun passes => absurd passes (by rw [fails]; decide)
      · exact fun passes => absurd passes (by rw [fails]; decide)
      · exact trivial
  | inviterId n reason =>
      intro _
      rcases reason with has | self
      · exact Or.inl ((hasInviter_iff valid).mp has)
      · exact Or.inr (Or.inl self)
  | phoneNo s has => exact trivial

/-- A valid profile stays valid if and only if the request is sound. -/
theorem valid_step_iff (valid : Valid IsId nUserGlobalId objUser) (request : Request) :
    Valid IsId nUserGlobalId (after nUserGlobalId objUser request) ↔ Sound IsId nUserGlobalId objUser request := by
  rcases handle_cases nUserGlobalId objUser request with
    ⟨nErrorCode, notOk, result, refused⟩ | ⟨other, result, accepted⟩
  · rw [after, result, refuse]
    refine iff_of_true valid (sound_of_refused valid refused ?_)
    rintro s rfl
    have ok : ProfileCode.ok = nErrorCode := congrArg (fun r => r.1.nErrorCode) result
    exact notOk ok.symm
  · rw [after, result, accept]
    exact valid_accepted_iff valid accepted

end Steps

/-! ## Runs of requests

A run of requests keeps the profile valid exactly where each of its requests is sound in the record it meets; an
inviter and a phone number stay once they are set.
-/

section Runs

variable (IsId : ℚ → Prop) (nUserGlobalId : LuaNumber)

/-- The record after some requests. -/
def profileAfter (objUser : UserData) (requests : List Request) : UserData :=
  requests.foldl (after nUserGlobalId) objUser

/-- All along the requests the profile is valid, arguments that fail their check change nothing and are not answered
with OK, and a request that is answered with OK changes its own field at most; the phone number and the inviter never
change once they are set. -/
structure ProfilesKept (start : UserData) (requests : List Request) : Prop where
  valid : ∀ pre, pre <+: requests → Valid IsId nUserGlobalId (profileAfter nUserGlobalId start pre)
  refused : ∀ pre request, pre ++ [request] <+: requests → PassesCheck nUserGlobalId request = false →
    (handle nUserGlobalId request (profileAfter nUserGlobalId start pre)).1.nErrorCode ≠ .ok ∧
      profileAfter nUserGlobalId start (pre ++ [request]) = profileAfter nUserGlobalId start pre
  own : ∀ pre request, pre ++ [request] <+: requests →
    (handle nUserGlobalId request (profileAfter nUserGlobalId start pre)).1.nErrorCode = .ok →
      SameButOwn (profileAfter nUserGlobalId start pre) (profileAfter nUserGlobalId start (pre ++ [request])) request
  phoneNo : ∀ pre later, pre ++ later <+: requests → (profileAfter nUserGlobalId start pre).strPhoneNo.getD [] ≠ [] →
    (profileAfter nUserGlobalId start (pre ++ later)).strPhoneNo = (profileAfter nUserGlobalId start pre).strPhoneNo
  inviterId : ∀ pre later, pre ++ later <+: requests → (profileAfter nUserGlobalId start pre).nInviterId.getD 0 ≠ 0 →
    (profileAfter nUserGlobalId start (pre ++ later)).nInviterId = (profileAfter nUserGlobalId start pre).nInviterId

variable {IsId nUserGlobalId}

theorem profileAfter_snoc (objUser : UserData) (requests : List Request) (request : Request) :
    profileAfter nUserGlobalId objUser (requests ++ [request]) =
      after nUserGlobalId (profileAfter nUserGlobalId objUser requests) request := by
  rw [profileAfter, List.foldl_append]
  rfl

theorem profileAfter_append (objUser : UserData) (requests later : List Request) :
    profileAfter nUserGlobalId objUser (requests ++ later) =
      profileAfter nUserGlobalId (profileAfter nUserGlobalId objUser requests) later :=
  List.foldl_append

/-- No later request changes a phone number. -/
theorem phoneNo_profileAfter {objUser : UserData} (has : HasPhoneNo objUser) (requests : List Request) :
    (profileAfter nUserGlobalId objUser requests).strPhoneNo = objUser.strPhoneNo := by
  induction requests generalizing objUser with
  | nil => rfl
  | cons request requests ih =>
      have stays := phoneNo_after nUserGlobalId objUser has request
      have still : HasPhoneNo (after nUserGlobalId objUser request) := by
        unfold HasPhoneNo
        rwa [stays]
      exact (ih still).trans stays

/-- No later request changes an inviter. -/
theorem inviterId_profileAfter {objUser : UserData} (has : HasInviter objUser) (requests : List Request) :
    (profileAfter nUserGlobalId objUser requests).nInviterId = objUser.nInviterId := by
  induction requests generalizing objUser with
  | nil => rfl
  | cons request requests ih =>
      have stays := inviterId_after nUserGlobalId objUser has request
      have still : HasInviter (after nUserGlobalId objUser request) := by
        unfold HasInviter
        rwa [stays]
      exact (ih still).trans stays

/-- Stored profiles stay valid, with all that goes with it, if and only if every request is sound where it is made. -/
theorem profilesKept_iff {start : UserData} (valid : Valid IsId nUserGlobalId start) (requests : List Request) :
    ProfilesKept IsId nUserGlobalId start requests ↔
      Guarded (always (after nUserGlobalId)) (Sound IsId nUserGlobalId) start requests := by
  have keeps :=
    forall_prefix_iff_guarded (fun s a (inv : Valid IsId nUserGlobalId s) => valid_step_iff inv a) valid requests
  constructor
  · intro kept
    exact keeps.mp kept.valid
  · intro guarded
    have always_valid := keeps.mpr guarded
    refine ⟨always_valid, ?_, ?_, ?_, ?_⟩
    · intro pre request isPrefix fails
      have sound : Sound IsId nUserGlobalId (profileAfter nUserGlobalId start pre) request := by
        obtain ⟨rest, whole⟩ := isPrefix
        rw [← whole] at guarded
        exact guarded.of_append.last (runSteps_always _ _ _)
      have notName : ∀ s, request ≠ .updateNickName (.string s) := by
        rintro s rfl
        have long : ¬ s.length ≤ nickNameLength := by
          simpa [PassesCheck, checkNickNameLegal, checkTextLegal] using fails
        exact long sound
      have notOk := refused_of_fails nUserGlobalId (profileAfter nUserGlobalId start pre) request fails notName
      exact ⟨notOk, (profileAfter_snoc _ _ _).trans (after_of_refused _ _ _ notOk)⟩
    · intro pre request _ _
      rw [profileAfter_snoc]
      exact sameButOwn_after _ _ _
    · intro pre later _ set
      rw [profileAfter_append]
      apply phoneNo_profileAfter
      cases stored : (profileAfter nUserGlobalId start pre).strPhoneNo with
      | none => rw [stored] at set; exact absurd rfl set
      | some s => rw [stored] at set; exact ⟨s, stored, set⟩
    · intro pre later isPrefix set
      rw [profileAfter_append]
      have here := always_valid pre ((List.prefix_append pre later).trans isPrefix)
      exact inviterId_profileAfter ((hasInviter_iff here).mpr set) later

end Runs

/-- A user as he is created, with the id 100002. -/
def guest : UserData where
  nUserId := 100002
  nGold := 5000
  nBalance := 0
  nAvatar := 0
  nSex := 0
  strNickName := [71, 117, 101, 115, 116]
  nInviterId := some 0
  strPhoneNo := some []

theorem valid_guest : Valid (fun _ => True) 100005 guest where
  avatar := ⟨⟨0, by simp [guest], trivial⟩, by decide +kernel, by decide +kernel⟩
  sex := Or.inl rfl
  nickName := by decide
  phoneNo := Or.inl rfl
  inviterId := Or.inl rfl

/-- An avatar, a name of ten bytes, an inviter and a phone number, and then another phone number, which is refused. -/
def exampleRequests : List Request :=
  [.updateAvatar (.number 7), .updateNickName (.string [65, 66, 67, 68, 69, 70, 71, 72, 73, 74]),
    .updateInviterId (.number 100004), .bindingPhoneNo (.string [49, 51, 56, 48, 48, 48, 48, 48, 48, 48, 48]),
    .bindingPhoneNo (.string [49, 51, 57, 48, 48, 48, 48, 48, 48, 48, 48])]

theorem profilesKept_iff_example : ProfilesKept (fun _ => True) 100005 guest exampleRequests := by
  refine (profilesKept_iff valid_guest exampleRequests).mpr ?_
  refine .always_cons (fun _ => ⟨7, by simp, trivial⟩) (.always_cons (Nat.le_refl 10) ?_)
  exact .always_cons (fun _ => Or.inr (Or.inr ⟨100004, by simp, trivial⟩))
    (.always_cons trivial (.always_cons trivial trivial))

/-- A name of eleven bytes is stored. -/
theorem long_nickName_stored :
    ¬ ∀ (nUserGlobalId : LuaNumber) (start : UserData) (requests : List Request),
      Valid (fun _ => True) nUserGlobalId start → ProfilesKept (fun _ => True) nUserGlobalId start requests := by
  intro claim
  have kept := claim 100005 guest [.updateNickName (.string (List.replicate 11 65))] valid_guest
  have short := (kept.valid _ (List.prefix_refl _)).nickName
  revert short
  decide +kernel

/-! ## Deposits

A deposit moves gold to the balance. The two numbers together stay the same, unless the amount is NaN.
-/

section Deposits

variable (objUser : UserData)

/-- What `UpdateBalance` can do: it is refused and nothing happens, or the balance is the number that was asked for and
the rest of the total is gold. -/
theorem updateBalance_cases (nBalance : Argument) :
    (∃ nErrorCode, nErrorCode ≠ .ok ∧ updateBalance nBalance objUser = refuse nErrorCode objUser ∧
      nBalance ≠ .number .nan) ∨
    ∃ n, nBalance = .number n ∧ n.lt 0 = false ∧ isFloat n = false ∧
      (objUser.nGold.add objUser.nBalance).lt n = false ∧
      updateBalance nBalance objUser =
        (⟨.ok, [n, (objUser.nGold.add objUser.nBalance).sub n]⟩,
          { objUser with nGold := (objUser.nGold.add objUser.nBalance).sub n, nBalance := n }) := by
  cases nBalance with
  | number n =>
      simp only [updateBalance]
      split
      · next negative => exact Or.inl ⟨_, by decide, rfl, by rintro ⟨⟩; exact absurd negative (by decide)⟩
      · next nonnegative =>
        split
        · next fraction => exact Or.inl ⟨_, by decide, rfl, by rintro ⟨⟩; exact absurd fraction (by decide)⟩
        · next noFraction =>
          split
          · next above =>
            refine Or.inl ⟨_, by decide, rfl, ?_⟩
            rintro ⟨⟩
            simp [lt] at above
          · next inside =>
            exact Or.inr ⟨n, rfl, by simpa using nonnegative, by simpa using noFraction, by simpa using inside, rfl⟩
  | _ => exact Or.inl ⟨.paramterError, by decide, rfl, by simp⟩

/-- The record after a request for a balance. -/
def afterDeposit (nBalance : Argument) : UserData := (clientUpdateBalance (some objUser) nBalance).2.getD objUser

theorem afterDeposit_eq (nBalance : Argument) : afterDeposit objUser nBalance = (updateBalance nBalance objUser).2 := by
  cases nBalance <;> rfl

/-- Gold and balance are whole numbers, and not negative. -/
def Wealthy : Prop := IsWhole objUser.nGold ∧ IsWhole objUser.nBalance

/-- A request that is answered with OK stores the balance it asks for and keeps the sum of gold and balance; otherwise
it changes neither. -/
def DepositConserves (nBalance : Argument) : Prop :=
  if (clientUpdateBalance (some objUser) nBalance).1.nErrorCode = .ok then
    (afterDeposit objUser nBalance).nGold.add (afterDeposit objUser nBalance).nBalance =
      objUser.nGold.add objUser.nBalance ∧
    nBalance = .number (afterDeposit objUser nBalance).nBalance
  else
    (afterDeposit objUser nBalance).nGold = objUser.nGold ∧ (afterDeposit objUser nBalance).nBalance = objUser.nBalance

/-- Every request conserves what the user owns, and gold and balance stay whole numbers that are not negative. -/
structure DepositsConserve (start : UserData) (requests : List Argument) : Prop where
  wealthy : ∀ pre, pre <+: requests → Wealthy (pre.foldl afterDeposit start)
  conserves : ∀ pre nBalance, pre ++ [nBalance] <+: requests →
    DepositConserves (pre.foldl afterDeposit start) nBalance

variable {objUser}

/-- A balance that is accepted is a part of the total. -/
theorem split_of_accepted (wealthy : Wealthy objUser) {n : LuaNumber} (ordered : n ≠ .nan)
    (nonnegative : n.lt 0 = false) (noFraction : isFloat n = false)
    (inside : (objUser.nGold.add objUser.nBalance).lt n = false) :
    ∃ gold balance : Nat, n = .finite balance ∧ (objUser.nGold.add objUser.nBalance).sub n = .finite gold ∧
      objUser.nGold.add objUser.nBalance = .finite (gold + balance : Nat) := by
  obtain ⟨⟨gold, isGold⟩, ⟨balance, isBalance⟩⟩ := wealthy
  have total : objUser.nGold.add objUser.nBalance = .finite (gold + balance : Nat) := by
    rw [isGold, isBalance, add, Nat.cast_add]
  rw [total] at inside ⊢
  rcases whole_or_of_not_lt_of_not_floor_lt nonnegative noFraction with ⟨k, rfl⟩ | rfl | rfl
  · have below : k ≤ gold + balance := by
      simp only [lt, decide_eq_false_iff_not, not_lt] at inside
      exact_mod_cast inside
    refine ⟨gold + balance - k, k, rfl, ?_, ?_⟩
    · rw [sub, neg, add, Nat.cast_sub below, sub_eq_add_neg]
    · rw [Nat.sub_add_cancel below]
  · simp [lt] at inside
  · exact absurd rfl ordered

/-- A user's gold and balance stay whole numbers if and only if the number is not NaN. -/
theorem wealthy_afterDeposit_iff (wealthy : Wealthy objUser) (nBalance : Argument) :
    Wealthy (afterDeposit objUser nBalance) ↔ nBalance ≠ .number .nan := by
  rw [afterDeposit_eq]
  rcases updateBalance_cases objUser nBalance with ⟨nErrorCode, -, result, ordered⟩ |
    ⟨n, rfl, nonnegative, noFraction, inside, result⟩
  · rw [result]
    exact iff_of_true wealthy ordered
  · rw [result]
    constructor
    · rintro ⟨-, k, isWhole⟩ isNan
      cases isNan
      exact absurd isWhole (by simp)
    · intro ordered
      have number : n ≠ .nan := fun isNan => ordered (by rw [isNan])
      obtain ⟨gold, balance, isBalance, isGold, -⟩ := split_of_accepted wealthy number nonnegative noFraction inside
      exact ⟨⟨gold, isGold⟩, ⟨balance, isBalance⟩⟩

/-- Of every amount but NaN, one deposit conserves what the user owns. -/
theorem depositConserves (wealthy : Wealthy objUser) {nBalance : Argument} (ordered : nBalance ≠ .number .nan) :
    DepositConserves objUser nBalance := by
  have code : (clientUpdateBalance (some objUser) nBalance).1 = (updateBalance nBalance objUser).1 := by
    cases nBalance <;> rfl
  unfold DepositConserves
  rw [code, afterDeposit_eq]
  rcases updateBalance_cases objUser nBalance with ⟨nErrorCode, notOk, result, -⟩ |
    ⟨n, rfl, nonnegative, noFraction, inside, result⟩
  · rw [result, refuse, if_neg notOk]
    exact ⟨rfl, rfl⟩
  · have number : n ≠ .nan := fun isNan => ordered (by rw [isNan])
    obtain ⟨gold, balance, isBalance, isGold, total⟩ := split_of_accepted wealthy number nonnegative noFraction inside
    rw [result, if_pos rfl]
    refine ⟨?_, rfl⟩
    rw [isGold, isBalance, total, add, Nat.cast_add]

/-- The requests conserve what the user owns if and only if none of them asks for NaN. -/
theorem deposits_conserve_iff {start : UserData} (gold : IsWhole start.nGold) (balance : IsWhole start.nBalance)
    (requests : List Argument) : DepositsConserve start requests ↔ .number .nan ∉ requests := by
  have keeps := forall_prefix_iff_guarded (fun s a (inv : Wealthy s) => wealthy_afterDeposit_iff inv a) ⟨gold, balance⟩
    requests
  rw [guarded_always_iff_forall] at keeps
  constructor
  · intro conserve asked
    exact keeps.mp conserve.wealthy _ asked rfl
  · intro ordered
    have always_wealthy := keeps.mpr fun nBalance asked isNan => ordered (isNan ▸ asked)
    refine ⟨always_wealthy, ?_⟩
    intro pre nBalance isPrefix
    have here := always_wealthy pre ((List.prefix_append pre [nBalance]).trans isPrefix)
    have asked : nBalance ∈ requests := isPrefix.subset (by simp)
    exact depositConserves here fun isNan => ordered (isNan ▸ asked)

/-- A deposit, a fraction, more than there is, both infinities, and all of it back. -/
theorem deposits_conserve_iff_example :
    DepositsConserve guest
      [.number 1200, .number (.finite (1 / 2)), .number 5001, .number .posInf, .number .negInf, .number 0] :=
  (deposits_conserve_iff ⟨5000, rfl⟩ ⟨0, rfl⟩ _).mpr (by simp)

/-- NaN passes all checks, and the user has neither gold nor balance. -/
theorem nan_deposit_stored :
    ¬ ∀ (start : UserData) (requests : List Argument),
      IsWhole start.nGold → IsWhole start.nBalance → DepositsConserve start requests := by
  intro claim
  have conserve := claim guest [.number .nan] ⟨5000, rfl⟩ ⟨0, rfl⟩
  obtain ⟨gold, isWhole⟩ := (conserve.wealthy _ (List.prefix_refl _)).1
  exact absurd isWhole (by simp [afterDeposit, clientUpdateBalance, onUser, updateBalance, isFloat, lt, floor, guest,
    add, sub, neg])

end Deposits

end GameServer.Logic.Profiles
