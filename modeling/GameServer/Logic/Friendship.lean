/-
Module: GameServer.Logic.Friendship
Purpose: What an accepted friend request leaves behind: in which runs of the logic server both users become
  friends, and the request is gone.
Trusted boundary: that of `FriendLogic`
Main exports: FriendAction, friendStep, Accepted, FriendshipSymmetric, FriendGuard, Stands, FriendsKept,
  friendshipSymmetric_of_guarded
-/
import GameServer.Logic.WholeRecords

namespace GameServer.Logic

open Lib Script

/-! ## The property and its condition

After all that an acceptance has to write was written, both users have each other in their lists.
-/

/-- Logins, friend requests and their acceptance, disconnects, and the work of the database. -/
inductive FriendAction where
  | enterGame (nHandlerId : Int) (nUserId : LuaValue)
  | addFriend (nHandlerId : Int) (nUserId : LuaValue)
  | passRequest (nHandlerId : Int) (nInviter : LuaValue)
  | disconnect (nHandlerId : LuaValue)
  | setUserGlobalId (nUserGlobalId : Int)
  | execute
  | deliver

def FriendAction.logic : FriendAction → LogicAction
  | .enterGame nHandlerId nUserId => .enterGame nHandlerId nUserId
  | .addFriend nHandlerId nUserId => .addFriend nHandlerId nUserId
  | .passRequest nHandlerId nInviter => .passRequest nHandlerId nInviter
  | .disconnect nHandlerId => .disconnect nHandlerId
  | .setUserGlobalId nUserGlobalId => .setUserGlobalId nUserGlobalId
  | .execute => .execute
  | .deliver => .deliver

def friendStep (nFirstUserId : Int) (w : LogicWorld) (a : FriendAction) : LogicWorld :=
  logicStep nFirstUserId w a.logic

/-- The first user's `PassRequest` for the second was answered with OK; no other request has this change. -/
def Accepted (w : LogicWorld) (strUserId strInviter : String) : Prop :=
  (strUserId, Change.delFriendRequest strInviter) ∈ w.acknowledged

instance (w : LogicWorld) (strUserId strInviter : String) : Decidable (Accepted w strUserId strInviter) :=
  inferInstanceAs (Decidable (_ ∈ _))

/-- When nothing is under way, whoever accepted a request has the inviter as a friend and his request no more, and
the inviter has him. -/
def FriendshipSymmetric (w : LogicWorld) : Prop :=
  w.users.commands = [] → w.responses = [] → ∀ strUserId strInviter, Accepted w strUserId strInviter →
    ∃ gameData inviterData, w.store strUserId = some gameData ∧ w.store strInviter = some inviterData ∧
      gameData.friendList strInviter = true ∧ gameData.friendRequest strInviter = false ∧
      inviterData.friendList strUserId = true

/-- What an acceptance changes. -/
def ofFriends : Change → Bool
  | .delFriendRequest _ => true
  | .addToFriendList _ => true
  | _ => false

/-- The change belongs to an acceptance, and no response is awaited for it. -/
structure Owed (w : LogicWorld) (strUserId : String) (c : Change) : Prop where
  acknowledged : (strUserId, c) ∈ w.acknowledged
  ofFriends : ofFriends c = true
  landed : (strUserId, c) ∉ w.underWay

/-- The record has what is owed to the user. -/
def UpToDate (w : LogicWorld) (strUserId : String) (gameData : UserRecord) : Prop :=
  ∀ c, Owed w strUserId c → gameData.apply c = gameData

/-- The steps that keep friends: nobody asks a user who has accepted him; a record that is put into the pool, or
changed and written, is not out of date as far as friends go; and when the record of an inviter returns, its
callback runs and finds it, and the inviter was not cached without the friend meanwhile. -/
def FriendGuard (w : LogicWorld) : FriendAction → Prop
  | .addFriend nHandlerId nUserId => (w.users.userDataPool nUserId.tostring).isSome →
      ∀ strUserId, w.currentUser nHandlerId = some strUserId → ¬ Accepted w nUserId.tostring strUserId
  | .deliver => ∀ response ∈ w.responses.head?,
      match response.get.event with
      | .logicGetGameData =>
          ∀ gameData, response.reply = some gameData → UpToDate w response.get.strKey gameData
      | .addFriendGetGameData =>
          (w.callbackUser response.get.nUserId).isSome → ∀ gameData, response.reply = some gameData →
            UpToDate w response.get.strKey gameData ∧ ¬ Accepted w response.get.strKey response.get.nUserId
      | .getFriendInviterData =>
          ((w.callbackUser response.get.nUserId).isSome → ∀ gameData, response.reply = some gameData →
            UpToDate w response.get.strKey gameData) ∧
          ((w.callbackUser response.get.nUserId).isSome ∧ response.reply.isSome ∨
            w.Has response.get.strKey (.addToFriendList response.get.nUserId)) ∧
          ∀ objUser, w.users.userDataPool response.get.strKey = some objUser →
            objUser.gameData.friendList response.get.nUserId = true
  | _ => True

/-! ## Changes that stay

What an acceptance changes is not undone by later changes, but for a request that is made again.
-/

section Changes

variable {gameData : UserRecord} {c d : Change}

theorem apply_twice (gameData : UserRecord) (friends : ofFriends c = true) :
    (gameData.apply c).apply c = gameData.apply c := by
  cases c with
  | delFriendRequest strUserId => simp [UserRecord.apply]
  | addToFriendList strUserId => simp [UserRecord.apply]
  | _ => exact absurd friends (by simp [ofFriends])

/-- The two changes do not undo each other. -/
def Apart (c d : Change) : Prop := ∀ strUserId, c = .delFriendRequest strUserId → d ≠ .addFriendRequest strUserId

theorem apart_of_ofFriends (friends : ofFriends d = true) : Apart c d := by
  intro strUserId _ same
  rw [same] at friends
  exact absurd friends (by simp [ofFriends])

/-- A record that has a change has it after others. -/
theorem apply_stays (friends : ofFriends c = true) (apart : Apart c d) (has : gameData.apply c = gameData) :
    (gameData.apply d).apply c = gameData.apply d := by
  have commute : (gameData.apply d).apply c = (gameData.apply c).apply d := by
    cases c with
    | addToFriendList strUserId => exact (UserRecord.addToFriendList_commutes strUserId gameData d).symm
    | delFriendRequest strUserId =>
        cases d with
        | addFriendRequest other =>
            have differs : other ≠ strUserId := by
              intro same
              exact apart strUserId rfl (by rw [same])
            simp only [UserRecord.apply]
            rw [Function.update_comm differs]
        | delFriendRequest other =>
            by_cases same : other = strUserId
            · rw [same]
            · simp only [UserRecord.apply]
              rw [Function.update_comm same]
        | _ => rfl
    | _ => exact absurd friends (by simp [ofFriends])
  rw [commute, has]

/-- The same for several later changes. -/
theorem replay_stays {cs : List Change} (friends : ofFriends c = true) (apart : ∀ d ∈ cs, Apart c d)
    (has : gameData.apply c = gameData) :
    (replay UserRecord.apply gameData cs).apply c = replay UserRecord.apply gameData cs := by
  induction cs generalizing gameData with
  | nil => exact has
  | cons d cs ih =>
      apply ih
      · intro e member
        exact apart e (List.mem_cons_of_mem d member)
      · exact apply_stays friends (apart d List.mem_cons_self) has

end Changes

/-! ## One change of one record

How one change of one record stands: the live record has it, or it will be written. The lemmas follow it through the
operations of the server.
-/

/-- The change is in the object of the pool, if there is one, and in the written record, unless the user is served
and his object will be written. -/
structure Stands (served : Option String) (w : LogicWorld) (strUserId : String) (c : Change) : Prop where
  inPool : ∀ objUser, w.users.userDataPool strUserId = some objUser → objUser.gameData.apply c = objUser.gameData
  inStore : w.Has strUserId c ∨
    served = some strUserId ∧ ∃ objUser, w.users.userDataPool strUserId = some objUser ∧ objUser.bIsDirty = true

namespace Stands

variable {served : Option String} {w w' : LogicWorld} {strUserId other : String} {c : Change} {objUser : UserObject}

theorem frame (stands : Stands served w strUserId c) (pool : w'.users.userDataPool = w.users.userDataPool)
    (written : w'.written = w.written) : Stands served w' strUserId c := by
  constructor
  · rw [pool]
    exact stands.inPool
  · unfold LogicWorld.Has
    rw [pool, written]
    exact stands.inStore

theorem serve (stands : Stands none w strUserId c) : Stands (some other) w strUserId c := by
  refine ⟨stands.inPool, ?_⟩
  rcases stands.inStore with has | ⟨isServed, _⟩
  · exact Or.inl has
  · exact absurd isServed (by simp)

theorem put (stands : Stands served w strUserId c)
    (has : other = strUserId → objUser.gameData.apply c = objUser.gameData) (dirty : objUser.bIsDirty = true) :
    Stands served (w.putUserObject other objUser) strUserId c := by
  constructor
  · intro object inPool
    change Function.update w.users.userDataPool other (some objUser) strUserId = some object at inPool
    by_cases same : strUserId = other
    · rw [same, Function.update_self] at inPool
      cases inPool
      exact has same.symm
    · rw [Function.update_of_ne same] at inPool
      exact stands.inPool object inPool
  · rcases stands.inStore with has | ⟨isServed, object, inPool, isDirty⟩
    · exact Or.inl has
    · refine Or.inr ⟨isServed, ?_⟩
      change ∃ object, Function.update w.users.userDataPool other (some objUser) strUserId = some object ∧ _
      by_cases same : strUserId = other
      · rw [same, Function.update_self]
        exact ⟨objUser, rfl, dirty⟩
      · rw [Function.update_of_ne same]
        exact ⟨object, inPool, isDirty⟩

theorem save (stands : Stands served w strUserId c)
    (has : other = strUserId → objUser.gameData.apply c = objUser.gameData) (dirty : objUser.bIsDirty = true) :
    Stands served (w.saveUserData other objUser) strUserId c := by
  constructor
  · rw [userDataPool_save w other dirty]
    exact stands.inPool
  · rw [userDataPool_save w other dirty]
    unfold LogicWorld.Has
    rw [written_save w other dirty]
    by_cases same : strUserId = other
    · rw [same, Function.update_self]
      exact Or.inl ⟨objUser.gameData, rfl, has same.symm⟩
    · rw [Function.update_of_ne same]
      exact stands.inStore

/-- `Commit` writes the object of the user who was served. -/
theorem commit (stands : Stands (some other) w strUserId c) : Stands none (w.commit other) strUserId c := by
  rcases w.users.commit_cases other with ⟨object, found, done⟩ | ⟨done, clean⟩
  · have committed : w.commit other = (w.push (.setValue other object.gameData)).putUserObject other
        { object with bIsDirty := false } := by
      rw [LogicWorld.commit, done]
      rfl
    have written : (w.commit other).written = Function.update w.written other (some object.gameData) := by
      rw [committed]
      exact written_push w (.setValue other object.gameData)
    constructor
    · intro objUser inPool
      rw [committed] at inPool
      change Function.update w.users.userDataPool other _ strUserId = some objUser at inPool
      by_cases same : strUserId = other
      · rw [same, Function.update_self] at inPool
        cases inPool
        exact stands.inPool object (by rw [same]; exact found)
      · rw [Function.update_of_ne same] at inPool
        exact stands.inPool objUser inPool
    · apply Or.inl
      unfold LogicWorld.Has
      rw [written]
      by_cases same : strUserId = other
      · rw [same, Function.update_self]
        exact ⟨object.gameData, rfl, stands.inPool object (by rw [same]; exact found)⟩
      · rw [Function.update_of_ne same]
        rcases stands.inStore with has | ⟨isServed, _⟩
        · exact has
        · exact absurd (Option.some.inj isServed).symm same
  · have nothing : w.commit other = w := by
      rw [LogicWorld.commit, done]
    rw [nothing]
    refine ⟨stands.inPool, Or.inl ?_⟩
    rcases stands.inStore with has | ⟨isServed, object, inPool, dirty⟩
    · exact has
    · cases isServed
      exact absurd dirty (by rw [clean object inPool]; simp)

end Stands

/-! ## The invariant

Everything that is owed stands. Each operation keeps this, or adds what it owes.
-/

/-- All that is owed stands. -/
def FriendsKept (served : Option String) (w : LogicWorld) : Prop :=
  ∀ strUserId c, Owed w strUserId c → Stands served w strUserId c

theorem owed_acknowledge {w : LogicWorld} {entries : List (String × Change)} {strUserId : String} {c : Change}
    (owed : Owed (w.acknowledge entries) strUserId c) : Owed w strUserId c ∨ (strUserId, c) ∈ entries := by
  rcases List.mem_append.mp owed.acknowledged with before | new
  · exact Or.inl ⟨before, owed.ofFriends, owed.landed⟩
  · exact Or.inr new

namespace FriendsKept

variable {served served' : Option String} {w w' : LogicWorld} {strUserId : String} {objUser : UserObject}

/-- Nothing new is owed, and what is owed stands. -/
theorem step (kept : FriendsKept served w) (acknowledged : w'.acknowledged = w.acknowledged)
    (underWay : ∀ entry ∈ w.underWay, entry ∈ w'.underWay)
    (stands : ∀ strUserId c, Owed w strUserId c → Stands served w strUserId c → Stands served' w' strUserId c) :
    FriendsKept served' w' := by
  intro strUserId c owed
  have before : Owed w strUserId c := by
    refine ⟨?_, owed.ofFriends, fun under => owed.landed (underWay _ under)⟩
    rw [← acknowledged]
    exact owed.acknowledged
  exact stands strUserId c before (kept strUserId c before)

theorem serve (kept : FriendsKept none w) (strUserId : String) : FriendsKept (some strUserId) w :=
  kept.step rfl (fun _ under => under) fun _ _ _ stands => stands.serve

theorem underWay_commit (w : LogicWorld) (strUserId : String) : (w.commit strUserId).underWay = w.underWay := by
  rcases w.users.commit_cases strUserId with ⟨object, found, done⟩ | ⟨done, _⟩
  · rw [LogicWorld.commit, done]
    exact (underWay_push w (.setValue strUserId object.gameData)).trans (List.append_nil _)
  · rw [LogicWorld.commit, done]

theorem commit (kept : FriendsKept (some strUserId) w) : FriendsKept none (w.commit strUserId) := by
  apply kept.step
  · rfl
  · intro entry under
    rw [underWay_commit]
    exact under
  · exact fun _ _ _ stands => stands.commit

theorem ask (kept : FriendsKept served w) (get : GameDataGet) : FriendsKept served (w.push (.getValue get)) := by
  apply kept.step
  · rfl
  · intro entry under
    rw [underWay_push]
    exact List.mem_append_left _ under
  · intro _ _ _ stands
    exact stands.frame rfl (written_push w (.getValue get))

/-- An object of the pool is changed. -/
theorem put (kept : FriendsKept served w) (found : w.users.userDataPool strUserId = some objUser)
    {cs : List Change} (dirty : (objUser.changes cs).bIsDirty = true)
    (apart : ∀ c, Owed w strUserId c → ∀ d ∈ cs, Apart c d) :
    FriendsKept served (w.putUserObject strUserId (objUser.changes cs)) := by
  apply kept.step
  · rfl
  · exact fun _ under => under
  · intro other c owed stands
    apply stands.put _ dirty
    intro same
    subst same
    rw [objUser.gameData_changes]
    exact replay_stays owed.ofFriends (apart c owed) (stands.inPool objUser found)

/-- What the object in the pool has of what is owed. -/
theorem upToDate (kept : FriendsKept served w) (found : w.users.userDataPool strUserId = some objUser) :
    UpToDate w strUserId objUser.gameData :=
  fun c owed => (kept strUserId c owed).inPool objUser found

/-- An object of the pool is changed and written. -/
theorem putAndSave (kept : FriendsKept served w) (found : w.users.userDataPool strUserId = some objUser) {c : Change}
    (apart : ∀ owed, Owed w strUserId owed → Apart owed c) :
    FriendsKept served ((w.putUserObject strUserId (objUser.change c)).saveUserData strUserId (objUser.change c)) := by
  have dirty : (objUser.change c).bIsDirty = true := rfl
  have has : ∀ d, Owed w strUserId d →
      (objUser.change c).gameData.apply d = (objUser.change c).gameData :=
    fun d owed => apply_stays owed.ofFriends (apart d owed) (kept.upToDate found d owed)
  apply kept.step
  · rw [save_eq _ strUserId dirty]
    rfl
  · intro entry under
    rw [underWay_save _ strUserId dirty]
    exact under
  · intro other d owed stands
    have his : strUserId = other → (objUser.change c).gameData.apply d = (objUser.change c).gameData := by
      intro same
      subst same
      exact has d owed
    exact (stands.put his dirty).save his dirty

/-- A copy of a record that has what is owed is changed and written. -/
theorem saveCopy (kept : FriendsKept served w) {gameData : UserRecord} {c : Change}
    (fresh : UpToDate w strUserId gameData) (apart : ∀ owed, Owed w strUserId owed → Apart owed c) :
    FriendsKept served (w.saveUserData strUserId ((UserObject.new gameData).change c)) := by
  have dirty : ((UserObject.new gameData).change c).bIsDirty = true := rfl
  apply kept.step
  · rw [save_eq w strUserId dirty]
    rfl
  · intro entry under
    rw [underWay_save w strUserId dirty]
    exact under
  · intro other d owed stands
    apply stands.save _ dirty
    intro same
    subst same
    exact apply_stays owed.ofFriends (apart d owed) (fresh d owed)

/-- Changes that are acknowledged stand, or are still under way. -/
theorem acknowledge (kept : FriendsKept served w) {entries : List (String × Change)}
    (new : ∀ strUserId c, (strUserId, c) ∈ entries → ofFriends c = true → (strUserId, c) ∉ w.underWay →
      Stands served w strUserId c) : FriendsKept served (w.acknowledge entries) := by
  intro strUserId c owed
  have stands : Stands served w strUserId c := by
    rcases owed_acknowledge owed with before | member
    · exact kept strUserId c before
    · exact new strUserId c member owed.ofFriends owed.landed
  exact stands.frame rfl rfl

end FriendsKept

/-! ## Requests

What a request for friendship and an acceptance add.
-/

section Requests

variable {w : LogicWorld} {strUserId strInviter : String}

/-- A request does not undo what is owed to a user who has not accepted this inviter. -/
theorem apart_of_not_accepted (fresh : ¬ Accepted w strUserId strInviter) {c : Change}
    (owed : Owed w strUserId c) : Apart c (.addFriendRequest strInviter) := by
  intro other same request
  cases request
  apply fresh
  rw [Accepted, ← same]
  exact owed.acknowledged

theorem addFriend_friends (nFirstUserId : Int) (nUserId : LuaValue) (kept : FriendsKept none w)
    (guard : (w.users.userDataPool nUserId.tostring).isSome → ¬ Accepted w nUserId.tostring strUserId) :
    FriendsKept (some strUserId) (w.addFriend nFirstUserId nUserId strUserId).answered := by
  unfold LogicWorld.addFriend
  repeat' split
  all_goals first
    | exact kept.serve strUserId
    | exact (kept.ask _).serve strUserId
    | skip
  next objInvitee found =>
    have fresh := guard (Option.isSome_iff_exists.mpr ⟨objInvitee, found⟩)
    have saved := kept.putAndSave found fun c owed => apart_of_not_accepted fresh owed
    apply (saved.serve strUserId).acknowledge
    intro other c member friends
    cases List.mem_singleton.mp member
    exact absurd friends (by simp [ofFriends])

/-- What stands when the friend is added to the inviter's list, or the inviter's record is asked for. -/
theorem Stands.addInviteeToInviter {served : Option String} {other strInvitee : String} {c : Change}
    (stands : Stands served w other c) (friends : ofFriends c = true) :
    Stands served (w.addInviteeToInviter strInvitee strInviter) other c := by
  unfold LogicWorld.addInviteeToInviter
  cases found : w.users.userDataPool strInviter with
  | none => exact stands.frame rfl (written_push w _)
  | some objInviterUser =>
      have his : strInviter = other → (objInviterUser.change (.addToFriendList strInvitee)).gameData.apply c =
          (objInviterUser.change (.addToFriendList strInvitee)).gameData := by
        intro same
        subst same
        exact apply_stays friends (apart_of_ofFriends rfl) (stands.inPool objInviterUser found)
      exact (stands.put his rfl).save his rfl

theorem underWay_addInviteeToInviter (strInvitee : String) :
    ∀ entry ∈ w.underWay, entry ∈ (w.addInviteeToInviter strInvitee strInviter).underWay := by
  intro entry under
  unfold LogicWorld.addInviteeToInviter
  cases w.users.userDataPool strInviter with
  | none =>
      rw [underWay_push]
      exact List.mem_append_left _ under
  | some objInviterUser =>
      dsimp only [LogicWorld.userAddFriend]
      rw [underWay_save _ strInviter rfl]
      exact under

/-- The inviter has the friend at once, unless his record was asked for. -/
theorem stands_addInviteeToInviter {served : Option String} {strInvitee : String}
    (landed : (strInviter, .addToFriendList strInvitee) ∉ (w.addInviteeToInviter strInvitee strInviter).underWay) :
    Stands served (w.addInviteeToInviter strInvitee strInviter) strInviter (.addToFriendList strInvitee) := by
  unfold LogicWorld.addInviteeToInviter at landed ⊢
  cases found : w.users.userDataPool strInviter with
  | none =>
      rw [found, underWay_push] at landed
      exact absurd (List.mem_append_right _ List.mem_cons_self) landed
  | some objInviterUser =>
      have dirty : (objInviterUser.change (.addToFriendList strInvitee)).bIsDirty = true := rfl
      have has := apply_twice (c := .addToFriendList strInvitee) objInviterUser.gameData rfl
      dsimp only [LogicWorld.userAddFriend]
      constructor
      · intro objUser inPool
        rw [userDataPool_save _ strInviter dirty] at inPool
        change Function.update w.users.userDataPool strInviter _ strInviter = some objUser at inPool
        rw [Function.update_self] at inPool
        cases inPool
        exact has
      · apply Or.inl
        refine ⟨_, ?_, has⟩
        rw [written_save _ strInviter dirty, Function.update_self]
        rfl

theorem acknowledged_addInviteeToInviter (strInvitee : String) :
    (w.addInviteeToInviter strInvitee strInviter).acknowledged = w.acknowledged := by
  unfold LogicWorld.addInviteeToInviter
  cases w.users.userDataPool strInviter with
  | none => rfl
  | some objInviterUser =>
      dsimp only [LogicWorld.userAddFriend]
      rw [save_eq _ strInviter rfl]
      rfl

/-- The record of the user who accepts has both of his changes. -/
theorem acceptance_has (gameData : UserRecord) :
    ∀ c ∈ LogicWorld.acceptance strInviter,
      (replay UserRecord.apply gameData (LogicWorld.acceptance strInviter)).apply c =
        replay UserRecord.apply gameData (LogicWorld.acceptance strInviter) := by
  intro c member
  simp only [LogicWorld.acceptance, List.mem_cons, List.not_mem_nil, or_false] at member
  rcases member with rfl | rfl
  · have deleted := apply_twice (c := .delFriendRequest strInviter) gameData rfl
    exact apply_stays (d := .addToFriendList strInviter) rfl (apart_of_ofFriends rfl) deleted
  · exact apply_twice (c := .addToFriendList strInviter) (gameData.apply (.delFriendRequest strInviter)) rfl

theorem ofFriends_acceptance : ∀ c ∈ LogicWorld.acceptance strInviter, ofFriends c = true := by
  intro c member
  simp only [LogicWorld.acceptance, List.mem_cons, List.not_mem_nil, or_false] at member
  rcases member with rfl | rfl
  · rfl
  · rfl

/-- An acceptance is written with the object of the user, and the friend of the inviter at once or later. -/
theorem passRequest_friends (nFirstUserId : Int) (nInviter : LuaValue) (kept : FriendsKept none w) :
    FriendsKept (some strUserId) (w.passRequest nFirstUserId nInviter strUserId).answered := by
  unfold LogicWorld.passRequest
  repeat' split
  all_goals first
    | exact kept.serve strUserId
    | skip
  next n _ objUser found _ _ =>
    let strInviter : String := (LuaValue.number n).tostring
    let accepted : LogicWorld := w.putUserObject strUserId (objUser.changes (LogicWorld.acceptance strInviter))
    have dirty : (objUser.changes (LogicWorld.acceptance strInviter)).bIsDirty = true := rfl
    have own : FriendsKept (some strUserId) accepted := by
      apply (kept.serve strUserId).put found dirty
      intro c _ d member
      exact apart_of_ofFriends (ofFriends_acceptance d member)
    have both : FriendsKept (some strUserId) (accepted.addInviteeToInviter strUserId strInviter) := by
      apply own.step
      · exact acknowledged_addInviteeToInviter strUserId
      · exact underWay_addInviteeToInviter strUserId
      · exact fun _ _ owed stands => stands.addInviteeToInviter owed.ofFriends
    have here : accepted.users.userDataPool strUserId = some (objUser.changes (LogicWorld.acceptance strInviter)) :=
      Function.update_self ..
    rw [Handled.answered, if_pos rfl]
    apply both.acknowledge
    intro other c member friends landed
    rcases List.mem_append.mp member with his | inviters
    · obtain ⟨d, accepts, same⟩ := List.mem_map.mp his
      cases same
      have stands : Stands (some strUserId) accepted strUserId c := by
        constructor
        · intro object inPool
          cases here.symm.trans inPool
          rw [objUser.gameData_changes]
          exact acceptance_has objUser.gameData c accepts
        · exact Or.inr ⟨rfl, _, here, dirty⟩
      exact stands.addInviteeToInviter friends
    · cases List.mem_singleton.mp inviters
      exact stands_addInviteeToInviter landed

end Requests

/-! ## Responses

A response is a record that may be older than the one of the server, so the condition says that it is up to date.
-/

section Responses

variable {w : LogicWorld} {response : DbResponse} {rest : List DbResponse}

/-- A response that keeps no promise is taken from the queue. -/
theorem next_friends (kept : FriendsKept none w) (next : w.responses = response :: rest)
    (promise : promiseOf response.get = none) : FriendsKept none { w with responses := rest } := by
  have underWay := underWay_next next
  rw [promise] at underWay
  apply kept.step
  · rfl
  · intro entry under
    rw [underWay] at under
    exact under
  · exact fun _ _ _ stands => stands.frame rfl rfl

theorem load_friends (kept : FriendsKept none w) {strUserId : String} {gameData : UserRecord}
    (fresh : UpToDate w strUserId gameData) : FriendsKept none (w.cacheUserObject strUserId gameData) := by
  apply kept.step
  · rfl
  · exact fun _ under => under
  · intro other c owed stands
    constructor
    · intro objUser inPool
      change Function.update w.users.userDataPool strUserId (some (.new gameData)) other = some objUser at inPool
      by_cases same : other = strUserId
      · subst same
        rw [Function.update_self] at inPool
        cases inPool
        exact fresh c owed
      · rw [Function.update_of_ne same] at inPool
        exact stands.inPool objUser inPool
    · rcases stands.inStore with has | ⟨isServed, _⟩
      · exact Or.inl has
      · exact absurd isServed (by simp)

theorem onAddFriendGameData_friends (kept : FriendsKept none w) {strInviter strInvitee : String}
    {reply : Option UserRecord}
    (fresh : ∀ gameData, reply = some gameData → UpToDate w strInvitee gameData ∧ ¬ Accepted w strInvitee strInviter) :
    FriendsKept none (LogicWorld.onAddFriendGameData strInviter strInvitee reply w).answered := by
  cases reply with
  | none => exact kept
  | some gameData =>
      obtain ⟨upToDate, notAccepted⟩ := fresh gameData rfl
      have saved := kept.saveCopy upToDate fun c owed => apart_of_not_accepted notAccepted owed
      apply saved.acknowledge
      intro other c member friends
      cases List.mem_singleton.mp member
      exact absurd friends (by simp [ofFriends])

/-- The server after the response to a promise: what was owed before stands, and so does the promised friend. -/
theorem FriendsKept.landed {v : LogicWorld} {strInvitee strInviter : String} (kept : FriendsKept none w)
    (next : w.responses = response :: rest)
    (promise : promiseOf response.get = some (strInviter, .addToFriendList strInvitee))
    (acknowledged : v.acknowledged = w.acknowledged)
    (underWay : v.underWay = LogicWorld.underWay { w with responses := rest })
    (stands : ∀ strUserId c, Owed w strUserId c → Stands none w strUserId c → Stands none v strUserId c)
    (kept_promise : Stands none v strInviter (.addToFriendList strInvitee)) : FriendsKept none v := by
  have before := underWay_next next
  rw [promise] at before
  intro strUserId c owed
  by_cases promised : (strUserId, c) = (strInviter, .addToFriendList strInvitee)
  · cases promised
    exact kept_promise
  · have owedBefore : Owed w strUserId c := by
      refine ⟨?_, owed.ofFriends, fun under => ?_⟩
      · rw [← acknowledged]
        exact owed.acknowledged
      · rw [before] at under
        apply owed.landed
        rw [underWay]
        rcases List.mem_append.mp under with this | later
        · exact absurd (List.mem_singleton.mp this) promised
        · exact later
    exact stands strUserId c owedBefore (kept strUserId c owedBefore)

/-- The record of an inviter gets the friend when the callback finds it, or has him already. -/
theorem promise_friends {v : LogicWorld} {strInvitee strInviter : String} (kept : FriendsKept none w)
    (next : w.responses = response :: rest) (taken : v = { w with responses := rest })
    (promise : promiseOf response.get = some (strInviter, .addToFriendList strInvitee))
    (inPool : ∀ objUser, w.users.userDataPool strInviter = some objUser →
      objUser.gameData.friendList strInvitee = true) :
    (w.Has strInviter (.addToFriendList strInvitee) → FriendsKept none v) ∧
      ∀ gameData, UpToDate w strInviter gameData →
        FriendsKept none
          (LogicWorld.onGetFriendInviterData strInvitee strInviter (some gameData) v).answered := by
  subst taken
  have objects : ∀ objUser, w.users.userDataPool strInviter = some objUser →
      objUser.gameData.apply (.addToFriendList strInvitee) = objUser.gameData := by
    intro objUser found
    have listed := inPool objUser found
    have same : Function.update objUser.gameData.friendList strInvitee true = objUser.gameData.friendList := by
      rw [← listed, Function.update_eq_self]
    rw [UserRecord.apply, same]
  constructor
  · intro has
    apply kept.landed next promise
    · rfl
    · rfl
    · exact fun _ _ _ stands => stands.frame rfl rfl
    · exact ⟨objects, Or.inl has⟩
  · intro gameData upToDate
    let v : LogicWorld := { w with responses := rest }
    let added : UserObject := (UserObject.new gameData).change (.addToFriendList strInvitee)
    have dirty : added.bIsDirty = true := rfl
    have acknowledged : (v.saveUserData strInviter added).acknowledged = w.acknowledged := by
      rw [save_eq v strInviter dirty]
      rfl
    apply kept.landed next promise acknowledged (underWay_save v strInviter dirty)
    · intro strUserId c owed stands
      have before : Stands none v strUserId c := stands.frame rfl rfl
      apply before.save _ dirty
      intro same
      subst same
      exact apply_stays owed.ofFriends (apart_of_ofFriends rfl) (upToDate c owed)
    · constructor
      · intro objUser found
        change (v.saveUserData strInviter added).users.userDataPool strInviter = some objUser at found
        rw [userDataPool_save v strInviter dirty] at found
        exact objects objUser found
      · refine Or.inl ⟨added.gameData, ?_, apply_twice (c := .addToFriendList strInvitee) gameData rfl⟩
        rw [written_save v strInviter dirty, Function.update_self]

theorem onRedisCallback_friends {v : LogicWorld} {nUserId : String} {handle : String → LogicWorld → Handled}
    (idle : v.callbackUser nUserId = none → FriendsKept none v)
    (runs : (v.callbackUser nUserId).isSome → ∀ strUserId, FriendsKept none (handle strUserId v).answered) :
    FriendsKept none (v.onRedisCallback nUserId handle) := by
  rcases onRedisCallback_cases v nUserId handle with ⟨none, nothing⟩ | ⟨strUserId, some, done⟩
  · rw [nothing]
    exact idle none
  · rw [done]
    exact ((runs (Option.isSome_iff_exists.mpr ⟨strUserId, some⟩) strUserId).serve strUserId).commit

theorem onRedisRespone_friends (kept : FriendsKept none w) (next : w.responses = response :: rest)
    (guard : FriendGuard w .deliver) {v : LogicWorld} (taken : v = { w with responses := rest }) :
    FriendsKept none (v.onRedisRespone response) := by
  have guarded := guard response (by rw [next]; rfl)
  have sameUser : v.callbackUser response.get.nUserId = w.callbackUser response.get.nUserId := by
    rw [taken]
    rfl
  have owedBefore : promiseOf response.get = none → ∀ strUserId c, Owed v strUserId c → Owed w strUserId c := by
    intro promise strUserId c owed
    have underWay := underWay_next next
    rw [promise] at underWay
    subst taken
    refine ⟨owed.acknowledged, owed.ofFriends, fun under => owed.landed ?_⟩
    rw [underWay] at under
    exact under
  unfold LogicWorld.onRedisRespone
  cases event : response.get.event with
  | logicGetGameData =>
      rw [event] at guarded
      have promise : promiseOf response.get = none := by rw [promiseOf, event]
      have keep := next_friends kept next promise
      rw [← taken] at keep
      cases reply : response.reply with
      | none => exact keep
      | some gameData =>
          apply load_friends keep
          intro c owed
          exact guarded gameData reply c (owedBefore promise _ c owed)
  | addFriendGetGameData =>
      rw [event] at guarded
      have promise : promiseOf response.get = none := by rw [promiseOf, event]
      have keep := next_friends kept next promise
      rw [← taken] at keep
      apply onRedisCallback_friends
      · intro _
        exact keep
      · intro runs _
        apply onAddFriendGameData_friends keep
        intro gameData reply
        obtain ⟨upToDate, notAccepted⟩ := guarded (sameUser ▸ runs) gameData reply
        constructor
        · intro c owed
          exact upToDate c (owedBefore promise _ c owed)
        · rw [taken]
          exact notAccepted
  | getFriendInviterData =>
      rw [event] at guarded
      obtain ⟨fresh, lands, inPool⟩ := guarded
      obtain ⟨skipped, copied⟩ := promise_friends kept next taken (by rw [promiseOf, event]) inPool
      apply onRedisCallback_friends
      · intro idle
        apply skipped
        apply lands.resolve_left
        rw [← sameUser, idle]
        simp
      · intro runs _
        cases reply : response.reply with
        | none =>
            apply skipped
            apply lands.resolve_left
            rw [reply]
            simp
        | some gameData => exact copied gameData (fresh (sameUser ▸ runs) gameData reply)

end Responses

/-! ## Both sides of an acceptance

What is acknowledged comes in pairs, a friend on either side.
-/

/-- With an accepted request goes a friend on either side. -/
def BothSides (entries : List (String × Change)) : Prop :=
  ∀ strUserId strInviter, (strUserId, Change.delFriendRequest strInviter) ∈ entries →
    (strUserId, .addToFriendList strInviter) ∈ entries ∧ (strInviter, .addToFriendList strUserId) ∈ entries

theorem BothSides.append {first second : List (String × Change)} (before : BothSides first)
    (new : BothSides second) : BothSides (first ++ second) := by
  intro strUserId strInviter member
  rcases List.mem_append.mp member with here | there
  · obtain ⟨own, inviters⟩ := before strUserId strInviter here
    exact ⟨List.mem_append_left _ own, List.mem_append_left _ inviters⟩
  · obtain ⟨own, inviters⟩ := new strUserId strInviter there
    exact ⟨List.mem_append_right _ own, List.mem_append_right _ inviters⟩

theorem bothSides_nil : BothSides [] := fun _ _ member => absurd member (by simp)

theorem bothSides_request (strInvitee strInviter : String) :
    BothSides [(strInvitee, .addFriendRequest strInviter)] :=
  fun _ _ member => absurd member (by simp)

theorem bothSides_acceptance (strUserId strInviter : String) :
    BothSides ((LogicWorld.acceptance strInviter).map (fun c => (strUserId, c)) ++
      [(strInviter, .addToFriendList strUserId)]) := by
  intro other another member
  simp only [LogicWorld.acceptance, List.map_cons, List.map_nil, List.mem_append, List.mem_cons, Prod.mk.injEq,
    Change.delFriendRequest.injEq, reduceCtorEq, and_false, List.not_mem_nil, or_false] at member
  obtain ⟨rfl, rfl⟩ := member
  simp [LogicWorld.acceptance]

/-- Handlers acknowledge nothing themselves, and both sides or none for the request. -/
def Balanced (handle : String → LogicWorld → Handled) : Prop :=
  ∀ strUserId w, (handle strUserId w).world.acknowledged = w.acknowledged ∧
    BothSides (handle strUserId w).changes

section Balanced

variable {w : LogicWorld} {handle : String → LogicWorld → Handled}

theorem answered_balanced (balanced : Balanced handle) (strUserId : String) (both : BothSides w.acknowledged) :
    BothSides (handle strUserId w).answered.acknowledged := by
  obtain ⟨same, changes⟩ := balanced strUserId w
  unfold Handled.answered
  split
  · change BothSides ((handle strUserId w).world.acknowledged ++ (handle strUserId w).changes)
    rw [same]
    exact both.append changes
  · rw [same]
    exact both

theorem clientRequest_balanced (balanced : Balanced handle) (nHandlerId : Int) (both : BothSides w.acknowledged) :
    BothSides (w.clientRequest nHandlerId handle).acknowledged := by
  unfold LogicWorld.clientRequest
  cases w.currentUser nHandlerId with
  | none => exact both
  | some strUserId => exact answered_balanced balanced strUserId both

theorem onRedisCallback_balanced (balanced : Balanced handle) (nUserId : String) (both : BothSides w.acknowledged) :
    BothSides (w.onRedisCallback nUserId handle).acknowledged := by
  unfold LogicWorld.onRedisCallback
  cases w.net.userHanderIdMap nUserId with
  | none => exact both
  | some nHandlerId => exact clientRequest_balanced balanced nHandlerId both

theorem addFriend_balanced (nFirstUserId : Int) (nUserId : LuaValue) :
    Balanced (LogicWorld.addFriend nFirstUserId nUserId) := by
  intro strUserId w
  unfold LogicWorld.addFriend
  repeat' split
  all_goals first
    | exact ⟨rfl, bothSides_nil⟩
    | exact ⟨rfl, bothSides_request _ _⟩

theorem passRequest_balanced (nFirstUserId : Int) (nInviter : LuaValue) :
    Balanced (LogicWorld.passRequest nFirstUserId nInviter) := by
  intro strUserId w
  unfold LogicWorld.passRequest
  repeat' split
  all_goals first
    | exact ⟨rfl, bothSides_nil⟩
    | exact ⟨acknowledged_addInviteeToInviter strUserId, bothSides_acceptance _ _⟩

theorem onAddFriendGameData_balanced (strInviter strInvitee : String) (reply : Option UserRecord) :
    Balanced fun _ => LogicWorld.onAddFriendGameData strInviter strInvitee reply := by
  intro _ w
  cases reply with
  | none => exact ⟨rfl, bothSides_nil⟩
  | some gameData => exact ⟨rfl, bothSides_request _ _⟩

theorem onGetFriendInviterData_balanced (strInvitee strInviter : String) (reply : Option UserRecord) :
    Balanced fun _ => LogicWorld.onGetFriendInviterData strInvitee strInviter reply := by
  intro _ w
  cases reply with
  | none => exact ⟨rfl, bothSides_nil⟩
  | some gameData => exact ⟨rfl, bothSides_nil⟩

end Balanced

/-- No step acknowledges one side only. -/
theorem friendStep_bothSides (nFirstUserId : Int) {w : LogicWorld} (a : FriendAction)
    (both : BothSides w.acknowledged) : BothSides (friendStep nFirstUserId w a).acknowledged := by
  cases a with
  | enterGame nHandlerId nUserId =>
      simp only [friendStep, FriendAction.logic, logicStep, LogicWorld.onClientEnterHall]
      repeat' split
      all_goals exact both
  | addFriend nHandlerId nUserId => exact clientRequest_balanced (addFriend_balanced nFirstUserId nUserId) nHandlerId both
  | passRequest nHandlerId nInviter =>
      exact clientRequest_balanced (passRequest_balanced nFirstUserId nInviter) nHandlerId both
  | disconnect nHandlerId =>
      simp only [friendStep, FriendAction.logic, logicStep, LogicWorld.userDisconnect]
      split
      · exact both
      · exact both
  | setUserGlobalId nUserGlobalId => exact both
  | execute =>
      simp only [friendStep, FriendAction.logic, logicStep, LogicWorld.execute]
      repeat' split
      all_goals exact both
  | deliver =>
      simp only [friendStep, FriendAction.logic, logicStep, LogicWorld.deliver]
      split
      · exact both
      · next response rest _ =>
        unfold LogicWorld.onRedisRespone
        repeat' split
        · exact both
        · exact both
        · exact onRedisCallback_balanced (onAddFriendGameData_balanced _ _ _) _ both
        · exact onRedisCallback_balanced (onGetFriendInviterData_balanced _ _ _) _ both

/-! ## Runs

The steps keep what is owed, and at the end nothing is owed any more.
-/

section Runs

variable {nFirstUserId : Int} {w : LogicWorld}

theorem execute_friends (kept : FriendsKept none w) : FriendsKept none w.execute := by
  apply kept.step
  · unfold LogicWorld.execute
    repeat' split
    all_goals rfl
  · intro entry under
    rw [underWay_execute]
    exact under
  · intro strUserId c _ stands
    apply stands.frame
    · unfold LogicWorld.execute
      repeat' split
      all_goals rfl
    · exact written_execute w

/-- A user who goes takes his object with him. -/
theorem userDisconnect_friends (kept : FriendsKept none w) (nHandlerId : LuaValue) :
    FriendsKept none (w.userDisconnect nHandlerId) := by
  unfold LogicWorld.userDisconnect
  cases w.net.userOfDisconnect nHandlerId with
  | none => exact kept
  | some found =>
      obtain ⟨_, nUserId⟩ := found
      apply kept.step
      · rfl
      · exact fun _ under => under
      · intro strUserId c _ stands
        constructor
        · intro objUser inPool
          change Function.update w.users.userDataPool nUserId.tostring none strUserId = some objUser at inPool
          by_cases same : strUserId = nUserId.tostring
          · rw [same, Function.update_self] at inPool
            exact absurd inPool (by simp)
          · rw [Function.update_of_ne same] at inPool
            exact stands.inPool objUser inPool
        · rcases stands.inStore with has | ⟨isServed, _⟩
          · exact Or.inl has
          · exact absurd isServed (by simp)

theorem clientRequest_friends {handle : String → LogicWorld → Handled} (nHandlerId : Int)
    (kept : FriendsKept none w)
    (keeps : ∀ strUserId, w.currentUser nHandlerId = some strUserId →
      FriendsKept (some strUserId) (handle strUserId w).answered) :
    FriendsKept none (w.clientRequest nHandlerId handle) := by
  unfold LogicWorld.clientRequest
  cases user : w.currentUser nHandlerId with
  | none => exact kept
  | some strUserId => exact (keeps strUserId user).commit

/-- One case for each action, by the lemmas above. -/
theorem friendStep_friends {a : FriendAction} (kept : FriendsKept none w) (guard : FriendGuard w a) :
    FriendsKept none (friendStep nFirstUserId w a) := by
  cases a with
  | enterGame nHandlerId nUserId =>
      have updated : FriendsKept none { w with net := w.net.updateHandlerIdAndUserId nUserId nHandlerId } := by
        apply kept.step
        · rfl
        · exact fun _ under => under
        · exact fun _ _ _ stands => stands.frame rfl rfl
      simp only [friendStep, FriendAction.logic, logicStep, LogicWorld.onClientEnterHall]
      split
      · split
        · exact updated.ask _
        · exact updated
      · exact updated
  | addFriend nHandlerId nUserId =>
      apply clientRequest_friends nHandlerId kept
      intro strUserId user
      exact addFriend_friends nFirstUserId nUserId kept fun cached => guard cached strUserId user
  | passRequest nHandlerId nInviter =>
      apply clientRequest_friends nHandlerId kept
      intro strUserId _
      exact passRequest_friends nFirstUserId nInviter kept
  | disconnect nHandlerId => exact userDisconnect_friends kept nHandlerId
  | setUserGlobalId nUserGlobalId =>
      apply kept.step
      · rfl
      · exact fun _ under => under
      · exact fun _ _ _ stands => stands.frame rfl rfl
  | execute => exact execute_friends kept
  | deliver =>
      simp only [friendStep, FriendAction.logic, logicStep, LogicWorld.deliver]
      cases next : w.responses with
      | nil => exact kept
      | cons response rest => exact onRedisRespone_friends kept next guard rfl

/-- When nothing is under way, what is owed is stored. -/
theorem FriendsKept.friendshipSymmetric (kept : FriendsKept none w) (both : BothSides w.acknowledged) :
    FriendshipSymmetric w := by
  intro noCommands noResponses strUserId strInviter accepted
  have nothing : w.underWay = [] := by
    rw [LogicWorld.underWay, noCommands, noResponses]
    rfl
  have written : w.written = w.store := by
    rw [LogicWorld.written, noCommands]
    rfl
  have stored : ∀ other c, (other, c) ∈ w.acknowledged → ofFriends c = true →
      ∃ gameData, w.store other = some gameData ∧ gameData.apply c = gameData := by
    intro other c member friends
    have owed : Owed w other c := ⟨member, friends, by rw [nothing]; simp⟩
    rcases (kept other c owed).inStore with has | ⟨isServed, _⟩
    · rw [← written]
      exact has
    · exact absurd isServed (by simp)
  have listed : ∀ (gameData : UserRecord) (other : String), gameData.apply (.addToFriendList other) = gameData →
      gameData.friendList other = true := by
    intro gameData other same
    rw [← same]
    exact Function.update_self ..
  obtain ⟨own, inviters⟩ := both strUserId strInviter accepted
  obtain ⟨gameData, hasRecord, deleted⟩ := stored strUserId _ accepted rfl
  obtain ⟨sameRecord, hasSame, added⟩ := stored strUserId _ own rfl
  obtain ⟨inviterData, hasInviter, addedThere⟩ := stored strInviter _ inviters rfl
  cases hasRecord.symm.trans hasSame
  have gone : gameData.friendRequest strInviter = false := by
    rw [← deleted]
    exact Function.update_self ..
  exact ⟨gameData, inviterData, hasRecord, hasInviter, listed gameData strInviter added, gone,
    listed inviterData strUserId addedThere⟩

/-- **Friends on both sides.** In every run whose steps meet the condition, an accepted request makes friends of
both users. -/
theorem friendshipSymmetric_of_guarded (nFirstUserId nUserGlobalId : Int) (stored : String → Option UserRecord)
    (actions : List FriendAction)
    (guarded : Guarded (always (friendStep nFirstUserId)) FriendGuard (.init nUserGlobalId stored) actions) :
    FriendshipSymmetric (actions.foldl (friendStep nFirstUserId) (.init nUserGlobalId stored)) := by
  have run := runSteps_always (friendStep nFirstUserId) (.init nUserGlobalId stored) actions
  let Inv : LogicWorld → Prop := fun w => FriendsKept none w ∧ BothSides w.acknowledged
  have start : Inv (.init nUserGlobalId stored) := by
    constructor
    · intro strUserId c owed
      exact absurd owed.acknowledged (by simp [LogicWorld.init])
    · exact bothSides_nil
  have keep : ∀ s a s', Inv s → FriendGuard s a → always (friendStep nFirstUserId) s a = some s' → Inv s' := by
    intro s a s' inv guard step
    cases step
    exact ⟨friendStep_friends inv.1 guard, friendStep_bothSides nFirstUserId a inv.2⟩
  obtain ⟨kept, both⟩ := guarded_invariant keep start guarded run
  exact kept.friendshipSymmetric both

/-- User 8 asks user 7 to be his friend and goes; user 7 accepts, and stays until all is stored. -/
def acceptedInTime : List FriendAction :=
  [.enterGame 1 (.number 7), .enterGame 2 (.number 8), .execute, .execute, .deliver, .deliver,
    .addFriend 2 (.number 7), .execute, .disconnect (.number 2), .passRequest 1 (.number 8), .execute, .execute,
    .deliver, .execute]

theorem friendshipSymmetric_of_guarded_acceptedInTime :
    FriendshipSymmetric (acceptedInTime.foldl (friendStep 1) (.init 8 twoUsers)) := by
  apply friendshipSymmetric_of_guarded
  have noneOwed : ∀ {w : LogicWorld} {strUserId gameData}, w.acknowledged = [] → UpToDate w strUserId gameData := by
    intro w strUserId gameData nothing c owed
    exact absurd owed.acknowledged (by simp [nothing])
  apply Guarded.always_cons trivial
  apply Guarded.always_cons trivial
  apply Guarded.always_cons trivial
  apply Guarded.always_cons trivial
  apply Guarded.always_cons
  · intro response next
    cases next
    exact fun _ _ => noneOwed rfl
  apply Guarded.always_cons
  · intro response next
    cases next
    exact fun _ _ => noneOwed rfl
  apply Guarded.always_cons
  · intro _ strUserId _ accepted
    exact List.not_mem_nil (show _ ∈ ([] : List (String × Change)) from accepted)
  apply Guarded.always_cons trivial
  apply Guarded.always_cons trivial
  apply Guarded.always_cons trivial
  apply Guarded.always_cons trivial
  apply Guarded.always_cons trivial
  apply Guarded.always_cons
  · intro response next
    cases next
    refine ⟨fun _ gameData _ c owed => ?_, Or.inl ⟨rfl, rfl⟩, fun objUser inPool => ?_⟩
    · have entry : ("8", c) ∈ [("7", Change.addFriendRequest "8"), ("7", .delFriendRequest "8"),
          ("7", .addToFriendList "8"), ("8", .addToFriendList "7")] := owed.acknowledged
      have promised : c = .addToFriendList "7" := by simpa using entry
      subst promised
      exact absurd List.mem_cons_self owed.landed
    · exact absurd (show (none : Option UserObject) = some objUser from inPool) (by simp)
  exact Guarded.always_cons trivial trivial

/-- User 7 goes when he has accepted, before the record of user 8 returns. -/
def acceptedAndGone : List FriendAction :=
  [.enterGame 1 (.number 7), .enterGame 2 (.number 8), .execute, .execute, .deliver, .deliver,
    .addFriend 2 (.number 7), .execute, .disconnect (.number 2), .passRequest 1 (.number 8),
    .disconnect (.number 1), .execute, .execute, .deliver]

/-- User 8 does not have user 7 as a friend. -/
theorem friend_lost_after_disconnect :
    ¬ FriendshipSymmetric (acceptedAndGone.foldl (friendStep 1) (.init 8 twoUsers)) := by
  intro symmetric
  obtain ⟨gameData, inviterData, _, there, _, _, listed⟩ := symmetric rfl rfl "7" "8" (by decide +kernel)
  cases there
  exact absurd listed (by decide +kernel)

end Runs

end GameServer.Logic
