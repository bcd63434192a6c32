/-
Module: GameServer.Logic.Consent
Purpose: Where the entries of friend lists come from: in every interleaving of requests, responses and disconnects, a
  user is in a list only when one of the two asked and the other one accepted, or he was in a list that was stored.
Trusted boundary: that of `FriendLogic`
Main exports: Asked, Agreed, Befriended, LogicWorld.Holds, Founded, FriendsFounded, MakesNoFriends, Advances,
  logicStep_advances
-/
import GameServer.Logic.Friendship

namespace GameServer.Logic

open Lib Script

/-! ## Consent

What must have happened before two users are friends. `Founded` says it of one record.
-/

section Consent

variable (stored : String → Option UserRecord) (entries : List (String × Change)) (strUserId strInviter : String)

/-- The inviter has asked the user, or his request was stored. -/
def Asked : Prop :=
  (strUserId, Change.addFriendRequest strInviter) ∈ entries ∨
    ∃ gameData, stored strUserId = some gameData ∧ gameData.friendRequest strInviter = true

/-- The user accepted the inviter, who had asked before. -/
def Agreed : Prop :=
  ∃ before after, entries = before ++ (strUserId, Change.delFriendRequest strInviter) :: after ∧
    Asked stored before strUserId strInviter

/-- One of the two asked and the other one accepted, or the second is in the stored list of the first. -/
def Befriended : Prop :=
  (∃ gameData, stored strUserId = some gameData ∧ gameData.friendList strInviter = true) ∨
    Agreed stored entries strUserId strInviter ∨ Agreed stored entries strInviter strUserId

/-- A request is allowed at any time, a friend only with consent. -/
def Supported : Change → Prop
  | .addFriendRequest strInviter => Asked stored entries strUserId strInviter
  | .addToFriendList strFriend => Befriended stored entries strUserId strFriend
  | _ => True

/-- All requests and friends of a record are accounted for. -/
structure Founded (gameData : UserRecord) : Prop where
  requests : ∀ strInviter, gameData.friendRequest strInviter = true → Asked stored entries strUserId strInviter
  friends : ∀ strFriend, gameData.friendList strFriend = true → Befriended stored entries strUserId strFriend

end Consent

section Growing

variable {stored : String → Option UserRecord} {entries more : List (String × Change)} {strUserId strInviter : String}
  {gameData : UserRecord} {c : Change}

theorem Asked.append (asked : Asked stored entries strUserId strInviter) :
    Asked stored (entries ++ more) strUserId strInviter := by
  rcases asked with member | inStore
  · exact Or.inl (List.mem_append_left more member)
  · exact Or.inr inStore

theorem Agreed.append (agreed : Agreed stored entries strUserId strInviter) :
    Agreed stored (entries ++ more) strUserId strInviter := by
  obtain ⟨before, after, rfl, asked⟩ := agreed
  exact ⟨before, after ++ more, by rw [List.append_assoc, List.cons_append], asked⟩

theorem Befriended.append (friends : Befriended stored entries strUserId strInviter) :
    Befriended stored (entries ++ more) strUserId strInviter := by
  rcases friends with inStore | own | other
  · exact Or.inl inStore
  · exact Or.inr (Or.inl own.append)
  · exact Or.inr (Or.inr other.append)

theorem Founded.append (founded : Founded stored entries strUserId gameData) :
    Founded stored (entries ++ more) strUserId gameData where
  requests strInviter has := (founded.requests strInviter has).append
  friends strFriend has := (founded.friends strFriend has).append

/-- A change that is supported leaves a record founded. -/
theorem Founded.apply (founded : Founded stored entries strUserId gameData)
    (supported : Supported stored entries strUserId c) : Founded stored entries strUserId (gameData.apply c) := by
  cases c with
  | addFriendRequest strAsking =>
      refine ⟨fun strInviter has => ?_, founded.friends⟩
      by_cases same : strInviter = strAsking
      · exact same ▸ supported
      · simp only [UserRecord.apply, Function.update_of_ne same] at has
        exact founded.requests strInviter has
  | delFriendRequest strAsking =>
      refine ⟨fun strInviter has => ?_, founded.friends⟩
      by_cases same : strInviter = strAsking
      · simp [UserRecord.apply, same] at has
      · simp only [UserRecord.apply, Function.update_of_ne same] at has
        exact founded.requests strInviter has
  | addToFriendList strAdded =>
      refine ⟨founded.requests, fun strFriend has => ?_⟩
      by_cases same : strFriend = strAdded
      · exact same ▸ supported
      · simp only [UserRecord.apply, Function.update_of_ne same] at has
        exact founded.friends strFriend has
  | setGold nVal => exact ⟨founded.requests, founded.friends⟩
  | setBaseInfo strField value => exact ⟨founded.requests, founded.friends⟩

/-- Several changes in turn, each of them supported. -/
theorem Founded.replay {cs : List Change} (founded : Founded stored entries strUserId gameData)
    (supported : ∀ c ∈ cs, Supported stored entries strUserId c) :
    Founded stored entries strUserId (replay UserRecord.apply gameData cs) := by
  induction cs generalizing gameData with
  | nil => exact founded
  | cons c cs ih =>
      rw [replay_cons]
      apply ih
      · exact founded.apply (supported c List.mem_cons_self)
      · exact fun d member => supported d (List.mem_cons_of_mem c member)

/-- What was stored at the start is founded. -/
theorem founded_stored (found : stored strUserId = some gameData) : Founded stored entries strUserId gameData where
  requests _ has := Or.inr ⟨gameData, found, has⟩
  friends _ has := Or.inl ⟨gameData, found, has⟩

end Growing

/-! ## All records of a user

A user's record can be in the pool, in a command that is not executed yet, in the database and in a response. All of
these are founded, and each operation of the server keeps them so.
-/

/-- A record that the server or its database has for the user. -/
inductive LogicWorld.Holds (w : LogicWorld) (strUserId : String) : UserRecord → Prop where
  | inPool {objUser : UserObject} (found : w.users.userDataPool strUserId = some objUser) :
      Holds w strUserId objUser.gameData
  | inStore {gameData : UserRecord} (found : w.store strUserId = some gameData) : Holds w strUserId gameData
  | toWrite {gameData : UserRecord} (waits : .setValue strUserId gameData ∈ w.users.commands) :
      Holds w strUserId gameData
  | read {response : DbResponse} {gameData : UserRecord} (waits : response ∈ w.responses)
      (key : response.get.strKey = strUserId) (reply : response.reply = some gameData) : Holds w strUserId gameData

/-- All records are founded, and so are the friends that are still to be added. -/
structure FriendsFounded (stored : String → Option UserRecord) (entries : List (String × Change))
    (w : LogicWorld) : Prop where
  records : ∀ strUserId gameData, w.Holds strUserId gameData → Founded stored entries strUserId gameData
  promised : ∀ strUserId strFriend, (strUserId, .addToFriendList strFriend) ∈ w.underWay →
    Befriended stored entries strUserId strFriend

namespace FriendsFounded

variable {stored : String → Option UserRecord} {entries more : List (String × Change)} {w w' : LogicWorld}
  {strUserId : String} {objUser : UserObject} {gameData : UserRecord}

theorem append (founded : FriendsFounded stored entries w) : FriendsFounded stored (entries ++ more) w where
  records strUserId gameData holds := (founded.records strUserId gameData holds).append
  promised strUserId strFriend under := (founded.promised strUserId strFriend under).append

/-- Only users, stored records and responses matter. -/
theorem frame (founded : FriendsFounded stored entries w) (users : w'.users = w.users) (store : w'.store = w.store)
    (responses : w'.responses = w.responses) : FriendsFounded stored entries w' := by
  constructor
  · intro strUserId gameData holds
    apply founded.records
    cases holds with
    | inPool found => exact .inPool (users ▸ found)
    | inStore found => exact .inStore (store ▸ found)
    | toWrite waits => exact .toWrite (users ▸ waits)
    | read waits key reply => exact .read (responses ▸ waits) key reply
  · intro strUserId strFriend under
    apply founded.promised
    rw [LogicWorld.underWay, users, responses] at under
    exact under

theorem put (founded : FriendsFounded stored entries w) (own : Founded stored entries strUserId objUser.gameData) :
    FriendsFounded stored entries (w.putUserObject strUserId objUser) := by
  constructor
  · intro other gameData holds
    cases holds with
    | @inPool object found =>
        change Function.update w.users.userDataPool strUserId (some objUser) other = some object at found
        by_cases same : other = strUserId
        · subst same
          rw [Function.update_self] at found
          cases found
          exact own
        · rw [Function.update_of_ne same] at found
          exact founded.records other _ (.inPool found)
    | inStore found => exact founded.records other gameData (.inStore found)
    | toWrite waits => exact founded.records other gameData (.toWrite waits)
    | read waits key reply => exact founded.records other gameData (.read waits key reply)
  · exact founded.promised

theorem push (founded : FriendsFounded stored entries w) {command : DbCommand}
    (written : ∀ other gameData, command = .setValue other gameData → Founded stored entries other gameData)
    (promised : ∀ other strFriend, promiseOfCommand command = some (other, .addToFriendList strFriend) →
      Befriended stored entries other strFriend) : FriendsFounded stored entries (w.push command) := by
  constructor
  · intro other gameData holds
    cases holds with
    | inPool found => exact founded.records other _ (.inPool found)
    | inStore found => exact founded.records other gameData (.inStore found)
    | toWrite waits =>
        rcases List.mem_append.mp waits with before | new
        · exact founded.records other gameData (.toWrite before)
        · exact written other gameData (List.mem_singleton.mp new).symm
    | read waits key reply => exact founded.records other gameData (.read waits key reply)
  · intro other strFriend under
    rw [underWay_push] at under
    rcases List.mem_append.mp under with before | new
    · exact founded.promised other strFriend before
    · exact promised other strFriend (Option.mem_toList.mp new)

theorem ask (founded : FriendsFounded stored entries w) {get : GameDataGet}
    (promised : ∀ other strFriend, promiseOf get = some (other, .addToFriendList strFriend) →
      Befriended stored entries other strFriend) : FriendsFounded stored entries (w.push (.getValue get)) :=
  founded.push (fun _ _ same => by cases same) promised

theorem write (founded : FriendsFounded stored entries w) (own : Founded stored entries strUserId gameData) :
    FriendsFounded stored entries (w.push (.setValue strUserId gameData)) := by
  apply founded.push
  · intro other record same
    cases same
    exact own
  · intro other strFriend promise
    cases promise

theorem save (founded : FriendsFounded stored entries w) (own : Founded stored entries strUserId objUser.gameData) :
    FriendsFounded stored entries (w.saveUserData strUserId objUser) := by
  cases dirty : objUser.bIsDirty with
  | true =>
      rw [save_eq w strUserId dirty]
      exact founded.write own
  | false =>
      rw [LogicWorld.saveUserData, UserManager.saveUserData, dirty]
      exact founded

theorem commit (founded : FriendsFounded stored entries w) (strUserId : String) :
    FriendsFounded stored entries (w.commit strUserId) := by
  rcases w.users.commit_cases strUserId with ⟨objUser, found, done⟩ | ⟨done, _⟩
  · have own := founded.records strUserId objUser.gameData (.inPool found)
    have committed : w.commit strUserId = (w.push (.setValue strUserId objUser.gameData)).putUserObject strUserId
        { objUser with bIsDirty := false } := by
      rw [LogicWorld.commit, done]
      rfl
    rw [committed]
    exact (founded.write own).put own
  · rw [LogicWorld.commit, done]
    exact founded

theorem release (founded : FriendsFounded stored entries w) (strUserId : String) :
    FriendsFounded stored entries { w with users := w.users.releaseUserObject strUserId } := by
  constructor
  · intro other gameData holds
    cases holds with
    | @inPool object found =>
        change Function.update w.users.userDataPool strUserId none other = some object at found
        by_cases same : other = strUserId
        · rw [same, Function.update_self] at found
          cases found
        · rw [Function.update_of_ne same] at found
          exact founded.records other _ (.inPool found)
    | inStore found => exact founded.records other gameData (.inStore found)
    | toWrite waits => exact founded.records other gameData (.toWrite waits)
    | read waits key reply => exact founded.records other gameData (.read waits key reply)
  · exact founded.promised

theorem execute (founded : FriendsFounded stored entries w) : FriendsFounded stored entries w.execute := by
  constructor
  · intro other gameData holds
    apply founded.records
    unfold LogicWorld.execute at holds
    cases commands : w.users.commands with
    | nil =>
        rw [commands] at holds
        exact holds
    | cons command rest =>
        rw [commands] at holds
        cases command with
        | getValue get =>
            cases holds with
            | inPool found => exact .inPool found
            | inStore found => exact .inStore found
            | toWrite waits => exact .toWrite (commands ▸ List.mem_cons_of_mem _ waits)
            | read waits key reply =>
                rcases List.mem_append.mp waits with before | new
                · exact .read before key reply
                · cases List.mem_singleton.mp new
                  exact .inStore (key ▸ reply)
        | setValue strKey written =>
            cases holds with
            | inPool found => exact .inPool found
            | inStore found =>
                change Function.update w.store strKey (some written) other = some gameData at found
                by_cases same : other = strKey
                · subst same
                  rw [Function.update_self] at found
                  cases found
                  exact .toWrite (commands ▸ List.mem_cons_self)
                · rw [Function.update_of_ne same] at found
                  exact .inStore found
            | toWrite waits => exact .toWrite (commands ▸ List.mem_cons_of_mem _ waits)
            | read waits key reply => exact .read waits key reply
  · intro other strFriend under
    rw [underWay_execute] at under
    exact founded.promised other strFriend under

/-- A response is taken from the queue: its record and its promise are founded. -/
theorem next (founded : FriendsFounded stored entries w) {response : DbResponse} {rest : List DbResponse}
    (queue : w.responses = response :: rest) :
    FriendsFounded stored entries { w with responses := rest } ∧
      (∀ gameData, response.reply = some gameData → Founded stored entries response.get.strKey gameData) ∧
      ∀ other strFriend, promiseOf response.get = some (other, .addToFriendList strFriend) →
        Befriended stored entries other strFriend := by
  have underWay := underWay_next queue
  refine ⟨⟨fun other gameData holds => ?_, fun other strFriend under => ?_⟩, ?_, ?_⟩
  · apply founded.records
    cases holds with
    | inPool found => exact .inPool found
    | inStore found => exact .inStore found
    | toWrite waits => exact .toWrite waits
    | read waits key reply => exact .read (queue ▸ List.mem_cons_of_mem response waits) key reply
  · apply founded.promised
    rw [underWay]
    exact List.mem_append_right _ under
  · intro gameData reply
    exact founded.records _ gameData (.read (queue ▸ List.mem_cons_self) rfl reply)
  · intro other strFriend promise
    apply founded.promised
    rw [underWay, promise]
    exact List.mem_append_left _ List.mem_cons_self

end FriendsFounded

/-! ## Handlers

What a handler must do to be admitted to the run: leave what is founded so, once its changes are acknowledged.
-/

/-- What a handler leaves is founded on what it acknowledges, which is nothing when it refuses. -/
structure Supports (stored : String → Option UserRecord) (w : LogicWorld) (handled : Handled) : Prop where
  acknowledged : handled.world.acknowledged = w.acknowledged
  founded : FriendsFounded stored (w.acknowledged ++ handled.changes) handled.world
  refused : handled.nErrorCode ≠ .ok → handled.changes = []

/-- The server goes on: what was acknowledged stays so, and all friends are founded. -/
structure Advances (stored : String → Option UserRecord) (w w' : LogicWorld) : Prop where
  grows : ∃ more, w'.acknowledged = w.acknowledged ++ more
  founded : FriendsFounded stored w'.acknowledged w'

/-- The handler of a profile request changes neither requests nor friends. -/
def MakesNoFriends (handler : ProfileHandler) : Prop :=
  ∀ gameData cs, handler gameData = .ok cs → ∀ c ∈ cs,
    (∃ nVal, c = .setGold nVal) ∨ ∃ strField value, c = .setBaseInfo strField value

/-- `UpdateAvatar` and `UpdateSex` make no friends. -/
theorem updateNumber_makesNoFriends (strField : String) (inRange : Int → Bool) (outOfRange : ErrorCode)
    (value : LuaValue) : MakesNoFriends (updateNumber strField inRange outOfRange value) := by
  intro gameData cs made c member
  unfold updateNumber at made
  repeat' split at made
  all_goals cases made
  · exact Or.inr ⟨strField, _, List.mem_singleton.mp member⟩
  · cases member

section Handlers

variable {stored : String → Option UserRecord} {w : LogicWorld} {strUserId strInviter strInvitee : String}

/-- A handler that is answered takes the server to a state in which all is founded again. -/
theorem Supports.answered {handled : Handled} (supports : Supports stored w handled) :
    Advances stored w handled.answered := by
  unfold Handled.answered
  split
  · constructor
    · exact ⟨handled.changes, by rw [LogicWorld.acknowledge, supports.acknowledged]⟩
    · rw [LogicWorld.acknowledge, supports.acknowledged]
      exact supports.founded.frame rfl rfl rfl
  · next notOk =>
    have founded := supports.founded
    rw [supports.refused notOk, List.append_nil] at founded
    constructor
    · exact ⟨[], by rw [supports.acknowledged, List.append_nil]⟩
    · rw [supports.acknowledged]
      exact founded

theorem supports_nothing (founded : FriendsFounded stored w.acknowledged w) (nErrorCode : ErrorCode) :
    Supports stored w ⟨nErrorCode, [], w⟩ where
  acknowledged := rfl
  founded := founded.append
  refused _ := rfl

/-- What the handler of a user's request must do. -/
def Consensual (stored : String → Option UserRecord) (handle : String → LogicWorld → Handled) : Prop :=
  ∀ strUserId w, FriendsFounded stored w.acknowledged w → Supports stored w (handle strUserId w)

theorem profile_consensual {handler : ProfileHandler} (none : MakesNoFriends handler) :
    Consensual stored (LogicWorld.profile handler) := by
  intro strUserId w founded
  unfold LogicWorld.profile
  cases found : w.users.userDataPool strUserId with
  | none => exact supports_nothing founded .unknownError
  | some objUser =>
      dsimp only
      cases made : handler objUser.gameData with
      | error nErrorCode => exact supports_nothing founded nErrorCode
      | ok cs =>
          refine ⟨rfl, founded.append.put ?_, fun notOk => absurd rfl notOk⟩
          rw [UserObject.gameData_changes]
          apply (founded.records strUserId _ (.inPool found)).append.replay
          intro c member
          rcases none objUser.gameData cs made c member with ⟨nVal, rfl⟩ | ⟨strField, value, rfl⟩
          · exact trivial
          · exact trivial

/-- A request that is added is acknowledged. -/
theorem founded_asked {gameData : UserRecord} (own : Founded stored w.acknowledged strInvitee gameData) :
    Founded stored (w.acknowledged ++ [(strInvitee, .addFriendRequest strInviter)]) strInvitee
      (gameData.apply (.addFriendRequest strInviter)) :=
  own.append.apply (Or.inl (List.mem_append_right _ List.mem_cons_self))

theorem addFriendRequest_supports (founded : FriendsFounded stored w.acknowledged w) {objInvitee : UserObject}
    (found : w.users.userDataPool strInvitee = some objInvitee) :
    Supports stored w (w.addFriendRequest strInviter strInvitee objInvitee) := by
  let asked : UserObject := objInvitee.change (.addFriendRequest strInviter)
  have own : Founded stored (w.acknowledged ++ [(strInvitee, .addFriendRequest strInviter)]) strInvitee asked.gameData :=
    founded_asked (founded.records strInvitee _ (.inPool found))
  refine ⟨?_, ?_, fun notOk => absurd rfl notOk⟩
  · rw [LogicWorld.addFriendRequest, save_eq _ strInvitee rfl]
    rfl
  · have put := founded.append.put own
    exact put.save own

/-- A request to be a friend only asks, which is supported at any time. -/
theorem addFriend_consensual (nFirstUserId : Int) (nUserId : LuaValue) :
    Consensual stored (LogicWorld.addFriend nFirstUserId nUserId) := by
  intro strUserId w founded
  unfold LogicWorld.addFriend
  repeat' split
  all_goals first
    | exact supports_nothing founded _
    | skip
  · refine ⟨rfl, founded.append.ask fun other strFriend promise => ?_, fun _ => rfl⟩
    cases promise
  · next objInvitee found => exact addFriendRequest_supports founded found

theorem onAddFriendGameData_supports {reply : Option UserRecord} (founded : FriendsFounded stored w.acknowledged w)
    (own : ∀ gameData, reply = some gameData → Founded stored w.acknowledged strInvitee gameData) :
    Supports stored w (w.onAddFriendGameData strInviter strInvitee reply) := by
  cases reply with
  | none => exact supports_nothing founded .paramterError
  | some gameData =>
      refine ⟨?_, ?_, fun notOk => absurd rfl notOk⟩
      · rw [LogicWorld.onAddFriendGameData, save_eq w strInvitee rfl]
        rfl
      · exact founded.append.save (founded_asked (own gameData rfl))

/-- The friend of an inviter was promised when his request was accepted. -/
theorem onGetFriendInviterData_supports {reply : Option UserRecord} (founded : FriendsFounded stored w.acknowledged w)
    (own : ∀ gameData, reply = some gameData → Founded stored w.acknowledged strInviter gameData)
    (promised : Befriended stored w.acknowledged strInviter strInvitee) :
    Supports stored w (w.onGetFriendInviterData strInvitee strInviter reply) := by
  cases reply with
  | none => exact supports_nothing founded .fail
  | some gameData =>
      refine ⟨?_, ?_, fun _ => rfl⟩
      · rw [LogicWorld.onGetFriendInviterData, save_eq w strInviter rfl]
        rfl
      · have friends : Supported stored (w.acknowledged ++ []) strInviter (.addToFriendList strInvitee) :=
          promised.append
        exact founded.append.save ((own gameData rfl).append.apply friends)

/-- The changes that an acceptance acknowledges. -/
def acceptedBy (strUserId strInviter : String) : List (String × Change) :=
  (LogicWorld.acceptance strInviter).map (fun c => (strUserId, c)) ++ [(strInviter, .addToFriendList strUserId)]

/-- Who accepts a request has agreed. -/
theorem agreed_acceptance {entries : List (String × Change)} (asked : Asked stored entries strUserId strInviter) :
    Agreed stored (entries ++ acceptedBy strUserId strInviter) strUserId strInviter :=
  ⟨entries, _, rfl, asked⟩

theorem addInviteeToInviter_founded {entries : List (String × Change)} (founded : FriendsFounded stored entries w)
    (friends : Befriended stored entries strInviter strInvitee) :
    FriendsFounded stored entries (w.addInviteeToInviter strInvitee strInviter) := by
  unfold LogicWorld.addInviteeToInviter
  cases found : w.users.userDataPool strInviter with
  | none =>
      apply founded.ask
      intro other strFriend promise
      cases promise
      exact friends
  | some objInviterUser =>
      let befriended : UserObject := objInviterUser.change (.addToFriendList strInvitee)
      have supported : Supported stored entries strInviter (.addToFriendList strInvitee) := friends
      have own : Founded stored entries strInviter befriended.gameData :=
        (founded.records strInviter _ (.inPool found)).apply supported
      have put := founded.put own
      exact put.save own

/-- An acceptance goes through only where the inviter has asked, so that both have agreed. -/
theorem passRequest_consensual (nFirstUserId : Int) (nInviter : LuaValue) :
    Consensual stored (LogicWorld.passRequest nFirstUserId nInviter) := by
  intro strUserId w founded
  unfold LogicWorld.passRequest
  repeat' split
  all_goals first
    | exact supports_nothing founded _
    | skip
  next n _ objUser found _ requested =>
    let strInviter : String := (LuaValue.number n).tostring
    have own := founded.records strUserId _ (.inPool found)
    have asked : Asked stored w.acknowledged strUserId strInviter :=
      own.requests strInviter (not_not.mp requested)
    have agreed := agreed_acceptance asked
    refine ⟨acknowledged_addInviteeToInviter strUserId, ?_, fun notOk => absurd rfl notOk⟩
    apply addInviteeToInviter_founded
    · apply founded.append.put
      rw [UserObject.gameData_changes]
      apply own.append.replay
      intro c member
      simp only [LogicWorld.acceptance, List.mem_cons, List.not_mem_nil, or_false] at member
      rcases member with rfl | rfl
      · exact trivial
      · exact Or.inr (Or.inl agreed)
    · exact Or.inr (Or.inr agreed)

end Handlers

/-! ## Steps

Requests, responses and disconnects, by what their handlers do.
-/

section Steps

variable {stored : String → Option UserRecord} {w : LogicWorld} {handle : String → LogicWorld → Handled}

theorem Advances.of_same {w' : LogicWorld} (same : w'.acknowledged = w.acknowledged)
    (founded : FriendsFounded stored w.acknowledged w') : Advances stored w w' where
  grows := ⟨[], by rw [same, List.append_nil]⟩
  founded := same ▸ founded

theorem Advances.commit {w' : LogicWorld} (advances : Advances stored w w') (strUserId : String) :
    Advances stored w (w'.commit strUserId) where
  grows := advances.grows
  founded := advances.founded.commit strUserId

/-- `Commit` comes after the handler, and writes a record that is founded already. -/
theorem clientRequest_advances (consensual : Consensual stored handle) (nHandlerId : Int)
    (founded : FriendsFounded stored w.acknowledged w) : Advances stored w (w.clientRequest nHandlerId handle) := by
  unfold LogicWorld.clientRequest
  cases w.currentUser nHandlerId with
  | none => exact .of_same rfl founded
  | some strUserId => exact (consensual strUserId w founded).answered.commit strUserId

theorem onRedisCallback_advances {nUserId : String} (founded : FriendsFounded stored w.acknowledged w)
    (runs : ∀ strUserId, Supports stored w (handle strUserId w)) :
    Advances stored w (w.onRedisCallback nUserId handle) := by
  rcases onRedisCallback_cases w nUserId handle with ⟨-, nothing⟩ | ⟨strUserId, -, done⟩
  · rw [nothing]
    exact .of_same rfl founded
  · rw [done]
    exact (runs strUserId).answered.commit strUserId

theorem deliver_advances (founded : FriendsFounded stored w.acknowledged w) : Advances stored w w.deliver := by
  unfold LogicWorld.deliver
  cases queue : w.responses with
  | nil => exact .of_same rfl founded
  | cons response rest =>
      obtain ⟨left, own, promised⟩ := founded.next queue
      suffices advances : Advances stored { w with responses := rest }
          (LogicWorld.onRedisRespone response { w with responses := rest }) from ⟨advances.grows, advances.founded⟩
      unfold LogicWorld.onRedisRespone
      cases event : response.get.event with
      | logicGetGameData =>
          cases reply : response.reply with
          | none => exact .of_same rfl left
          | some gameData => exact .of_same rfl (left.put (own gameData reply))
      | addFriendGetGameData =>
          apply onRedisCallback_advances left
          exact fun _ => onAddFriendGameData_supports left own
      | getFriendInviterData =>
          apply onRedisCallback_advances left
          intro _
          have friends : Befriended stored w.acknowledged response.get.strKey response.get.nUserId := by
            apply promised
            rw [promiseOf, event]
          exact onGetFriendInviterData_supports left own friends

theorem userDisconnect_advances (founded : FriendsFounded stored w.acknowledged w) (nHandlerId : LuaValue) :
    Advances stored w (w.userDisconnect nHandlerId) := by
  unfold LogicWorld.userDisconnect
  cases w.net.userOfDisconnect nHandlerId with
  | none => exact .of_same rfl founded
  | some found => exact .of_same rfl ((founded.release found.2.tostring).frame rfl rfl rfl)

theorem onClientEnterHall_advances (founded : FriendsFounded stored w.acknowledged w) (nHandlerId : Int)
    (nUserId : LuaValue) : Advances stored w (w.onClientEnterHall nHandlerId nUserId) := by
  have updated : FriendsFounded stored w.acknowledged
      { w with net := w.net.updateHandlerIdAndUserId nUserId nHandlerId } := founded.frame rfl rfl rfl
  unfold LogicWorld.onClientEnterHall
  repeat' split
  · refine .of_same rfl (updated.ask fun other strFriend promise => ?_)
    cases promise
  · exact .of_same rfl updated
  · exact .of_same rfl updated

/-- A step keeps all friends founded, whatever the order of requests, responses and disconnects. -/
theorem logicStep_advances (nFirstUserId : Int) {a : LogicAction}
    (profiles : ∀ nHandlerId handler, a = .profile nHandlerId handler → MakesNoFriends handler)
    (founded : FriendsFounded stored w.acknowledged w) : Advances stored w (logicStep nFirstUserId w a) := by
  cases a with
  | enterGame nHandlerId nUserId => exact onClientEnterHall_advances founded nHandlerId nUserId
  | profile nHandlerId handler =>
      exact clientRequest_advances (profile_consensual (profiles nHandlerId handler rfl)) nHandlerId founded
  | addFriend nHandlerId nUserId =>
      exact clientRequest_advances (addFriend_consensual nFirstUserId nUserId) nHandlerId founded
  | passRequest nHandlerId nInviter =>
      exact clientRequest_advances (passRequest_consensual nFirstUserId nInviter) nHandlerId founded
  | disconnect nHandlerId => exact userDisconnect_advances founded nHandlerId
  | setUserGlobalId nUserGlobalId => exact .of_same rfl (founded.frame rfl rfl rfl)
  | execute =>
      apply Advances.of_same
      · dsimp only [logicStep, LogicWorld.execute]
        repeat' split
        all_goals rfl
      · exact founded.execute
  | deliver => exact deliver_advances founded

/-- At the start only the database has records, and their friends were agreed on before. -/
theorem friendsFounded_init (nUserGlobalId : Int) :
    FriendsFounded stored (LogicWorld.init nUserGlobalId stored).acknowledged (.init nUserGlobalId stored) := by
  constructor
  · intro strUserId gameData holds
    cases holds with
    | inPool found => cases found
    | inStore found => exact founded_stored found
    | toWrite waits => cases waits
    | read waits key reply => cases waits
  · intro strUserId strFriend under
    cases under

end Steps

end GameServer.Logic
