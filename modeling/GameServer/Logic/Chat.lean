/-
Module: GameServer.Logic.Chat
Purpose: Chatting on the logic server: private messages are only written to a friend both have agreed on, and a message
  on the world channel is written once to the connection of every other user.
Trusted boundary: that of `FriendLogic`; the values of `CHAT_TYPE` and the names of the fields are in `dev_share`, which
  is not in the repository; `tonumber` reads what `tostring` wrote of a whole number
Main exports: ChatTypes, ChatNotice, chat, clientChat, ChatWorld, chatStep, private_messages_agreed,
  world_message_reaches_once
-/
import GameServer.Logic.Consent
import GameServer.Script.Presence

namespace GameServer.Logic

open Lib Script

/-! ## Messages

A chat request ends in notices, one for each connection that is written to.
-/

/-- `CHAT_TYPE`. -/
structure ChatTypes where
  friend : Int
  world : Int
  differ : friend ≠ world

/-- What others see of a user. -/
structure ClientFriendData where
  gold : ℚ
  baseInfo : String → LuaValue

/-- The fields of `BaseInfo` beside the gold that `GetClientFriendData` copies. -/
def shownFields : List String := ["UserId", "Avatar", "Sex", "Name", "Signature", "AvatarUrl"]

def getClientFriendData (gameData : UserRecord) : ClientFriendData where
  gold := gameData.gold
  baseInfo strField := if strField ∈ shownFields then gameData.baseInfo strField else .nil

/-- `tbRetData` of `Chat`. -/
structure ChatData where
  nChatType : Int
  sender : ClientFriendData
  strContent : String
  nUserId : LuaValue

/-- A notice `RECEIVE_CHAT`, the connection that it is written to and the user for whom it is. -/
structure ChatNotice where
  nHandlerId : Int
  nReceiver : LuaValue
  tbRetData : ChatData

inductive ChatCode where
  | ok
  | unknownError
  | paramterError
  | isNotYourFriend
deriving Repr, DecidableEq

/-- The keys of a table in an order in which `pairs` may pass them. -/
structure PairsOf (map : String → Option Int) (strUserIds : List String) : Prop where
  nodup : strUserIds.Nodup
  complete : ∀ strUserId, strUserId ∈ strUserIds ↔ (map strUserId).isSome = true

/-! ## The handlers

As in `friend_logic.lua`: a message for the world goes to all users who are online but its sender, and a private one
to the user that the request names, if the sender has him as a friend.
-/

/-- `tonumber`. -/
def tonumber (s : String) : Option Int := s.toInt?

/-- `GetAllOnlineUserId`; `table.insert` leaves out a user id that is not a number. -/
def getAllOnlineUserId (strUserIds : List String) : List Int := strUserIds.filterMap tonumber

/-- `SendNoticeToUser`. -/
def sendNoticeToUser (net : NetManager) (tbRetData : ChatData) (nUserId : LuaValue) : Option ChatNotice :=
  (net.sendNoticeToUser nUserId).map fun nHandlerId => ⟨nHandlerId, nUserId, tbRetData⟩

/-- `IsFriend`; a table with an entry is not empty. -/
def isFriend (gameData : UserRecord) (nUserId : LuaValue) : Bool :=
  nUserId.isNumber && gameData.friendList nUserId.tostring

def sendChattingToWorldChannel (net : NetManager) (strUserIds : List String) (strSender : String)
    (tbRetData : ChatData) : List ChatNotice :=
  (getAllOnlineUserId strUserIds).filterMap fun nUserId =>
    if (LuaValue.number nUserId).tostring ≠ strSender then sendNoticeToUser net tbRetData (.number nUserId) else none

/-- `FriendLogic:Chat`, from the type of the chat on. -/
def chat (types : ChatTypes) (net : NetManager) (strUserIds : List String) (strSender : String) (gameData : UserRecord)
    (nChatType : Int) (strContent : String) (nUserId : LuaValue) : ChatCode × List ChatNotice :=
  if nChatType ≠ types.friend ∧ nChatType ≠ types.world then (.paramterError, [])
  else if nChatType = types.friend ∧ ¬ nUserId.isNumber then (.paramterError, [])
  else if nChatType = types.friend ∧ ¬ isFriend gameData nUserId then (.isNotYourFriend, [])
  else
    let tbRetData := ⟨nChatType, getClientFriendData gameData, strContent, nUserId⟩
    if nChatType = types.friend then
      (.ok, if net.userIsOnline nUserId then (sendNoticeToUser net tbRetData nUserId).toList else [])
    else
      (.ok, sendChattingToWorldChannel net strUserIds strSender tbRetData)

/-- `ClientChat`, and the checks at the beginning of `Chat`. -/
def clientChat (types : ChatTypes) (net : NetManager) (strUserIds : List String) (strSender : String)
    (objUser : Option UserObject) (nChatType strContent nUserId : LuaValue) : ChatCode × List ChatNotice :=
  match nChatType, strContent with
  | .number nChatType, .string strContent =>
      match objUser with
      | some objUser => chat types net strUserIds strSender objUser.gameData nChatType strContent nUserId
      | none => (.unknownError, [])
  | _, _ => (.paramterError, [])

/-! ## The server with chats

The server of `FriendLogic` with one more kind of request. What it has written is kept, for the statements only.
-/

/-- The server, and the messages that it has written with who sent them. -/
structure ChatWorld where
  logic : LogicWorld
  written : List (String × ChatNotice)

inductive ChatAction where
  | logic (a : LogicAction)
  /-- A chat request; `pairs` passes the users who are online in the given order. -/
  | clientChat (nHandlerId : Int) (nChatType strContent nUserId : LuaValue) (strUserIds : List String)

/-- What a chat request of the user writes. -/
def LogicWorld.chatNotices (types : ChatTypes) (w : LogicWorld) (strUserId : String) (strUserIds : List String)
    (nChatType strContent nUserId : LuaValue) : List ChatNotice :=
  (Logic.clientChat types w.net strUserIds strUserId (w.users.userDataPool strUserId) nChatType strContent nUserId).2

def chatStep (types : ChatTypes) (nFirstUserId : Int) (s : ChatWorld) : ChatAction → ChatWorld
  | .logic a => { s with logic := logicStep nFirstUserId s.logic a }
  | .clientChat nHandlerId nChatType strContent nUserId strUserIds =>
      match s.logic.currentUser nHandlerId with
      | none => s
      | some strUserId =>
          { logic := s.logic.commit strUserId
            written := s.written ++
              (s.logic.chatNotices types strUserId strUserIds nChatType strContent nUserId).map fun notice =>
                (strUserId, notice) }

def ChatWorld.init (nUserGlobalId : Int) (stored : String → Option UserRecord) : ChatWorld where
  logic := .init nUserGlobalId stored
  written := []

/-! ## Private messages

A private message needs a friend in the record of its sender, and by the theorem about consent a friend is there only
where both have agreed.
-/

section Private

variable {types : ChatTypes} {net : NetManager} {strUserIds : List String} {strSender : String}
  {gameData : UserRecord} {strContent : String} {nChatType : Int} {nUserId : LuaValue} {notice : ChatNotice}

theorem sendNoticeToUser_spec {tbRetData : ChatData} (sent : sendNoticeToUser net tbRetData nUserId = some notice) :
    net.getHandlerId nUserId = some notice.nHandlerId ∧ notice.nReceiver = nUserId ∧ notice.tbRetData = tbRetData := by
  obtain ⟨nHandlerId, online, rfl⟩ := Option.map_eq_some_iff.mp sent
  rw [NetManager.sendNoticeToUser] at online
  split at online
  · exact ⟨online, rfl, rfl⟩
  · cases online

/-- Every notice to the world carries the same data. -/
theorem mem_world {tbRetData : ChatData} (sent : notice ∈ sendChattingToWorldChannel net strUserIds strSender tbRetData) :
    notice.tbRetData = tbRetData := by
  obtain ⟨nReceiver, -, written⟩ := List.mem_filterMap.mp sent
  split at written
  · exact (sendNoticeToUser_spec written).2.2
  · cases written

/-- A private message goes to a friend of the sender only. -/
theorem chat_private (sent : notice ∈ (chat types net strUserIds strSender gameData nChatType strContent nUserId).2)
    (isPrivate : notice.tbRetData.nChatType = types.friend) :
    gameData.friendList notice.nReceiver.tostring = true ∧
      net.getHandlerId notice.nReceiver = some notice.nHandlerId := by
  unfold chat at sent
  split at sent
  · cases sent
  split at sent
  · cases sent
  split at sent
  · cases sent
  next listed =>
    split at sent
    · next private' =>
      have friend : isFriend gameData nUserId = true := by
        by_contra stranger
        exact listed ⟨private', stranger⟩
      split at sent
      · obtain ⟨online, receiver, -⟩ := sendNoticeToUser_spec (Option.mem_toList.mp sent)
        rw [receiver]
        exact ⟨(Bool.and_eq_true_iff.mp friend).2, online⟩
      · cases sent
    · next toWorld =>
      rw [mem_world sent] at isPrivate
      exact absurd isPrivate toWorld

/-- Only the shown fields of the sender are written. -/
theorem chat_shows {other : UserRecord} (gold : gameData.gold = other.gold)
    (shown : ∀ strField ∈ shownFields, gameData.baseInfo strField = other.baseInfo strField)
    (friends : gameData.friendList = other.friendList) :
    chat types net strUserIds strSender gameData nChatType strContent nUserId =
      chat types net strUserIds strSender other nChatType strContent nUserId := by
  have same : getClientFriendData gameData = getClientFriendData other := by
    unfold getClientFriendData
    rw [gold]
    congr 1
    funext strField
    split
    · next member => exact shown strField member
    · rfl
  unfold chat isFriend
  rw [same, friends]

/-- The same for the whole request: the sender has an object in the pool. -/
theorem clientChat_private {objUser : Option UserObject} {nChatType strContent : LuaValue}
    (sent : notice ∈ (clientChat types net strUserIds strSender objUser nChatType strContent nUserId).2)
    (isPrivate : notice.tbRetData.nChatType = types.friend) :
    ∃ object, objUser = some object ∧ object.gameData.friendList notice.nReceiver.tostring = true ∧
      net.getHandlerId notice.nReceiver = some notice.nHandlerId := by
  unfold clientChat at sent
  split at sent
  · split at sent
    · next object => exact ⟨object, rfl, chat_private sent isPrivate⟩
    · cases sent
  · cases sent

end Private

section Runs

variable {types : ChatTypes} {nFirstUserId : Int} {stored : String → Option UserRecord}

/-- The friends are founded, and so is every private message that was written. -/
structure MessagesFounded (types : ChatTypes) (stored : String → Option UserRecord) (s : ChatWorld) : Prop where
  friends : FriendsFounded stored s.logic.acknowledged s.logic
  messages : ∀ strSender notice, (strSender, notice) ∈ s.written → notice.tbRetData.nChatType = types.friend →
    Befriended stored s.logic.acknowledged strSender notice.nReceiver.tostring

/-- One step of the server; the handlers of the profile must leave the friends as they are. -/
theorem messagesFounded_step {s : ChatWorld} {a : ChatAction}
    (profiles : ∀ nHandlerId handler, a = .logic (.profile nHandlerId handler) → MakesNoFriends handler)
    (founded : MessagesFounded types stored s) : MessagesFounded types stored (chatStep types nFirstUserId s a) := by
  cases a with
  | logic a =>
      have profilesOf : ∀ nHandlerId handler, a = .profile nHandlerId handler → MakesNoFriends handler :=
        fun nHandlerId handler same => profiles nHandlerId handler (by rw [same])
      obtain ⟨⟨more, grows⟩, friends⟩ := logicStep_advances nFirstUserId profilesOf founded.friends
      refine ⟨friends, fun strSender notice member isPrivate => ?_⟩
      have before : Befriended stored (s.logic.acknowledged ++ more) strSender notice.nReceiver.tostring :=
        (founded.messages strSender notice member isPrivate).append
      rw [← grows] at before
      exact before
  | clientChat nHandlerId nChatType strContent nUserId strUserIds =>
      dsimp only [chatStep]
      split
      · exact founded
      · next strUserId _ =>
        refine ⟨founded.friends.commit strUserId, fun strSender notice member isPrivate => ?_⟩
        rcases List.mem_append.mp member with before | new
        · exact founded.messages strSender notice before isPrivate
        · obtain ⟨sent, written, same⟩ := List.mem_map.mp new
          cases same
          obtain ⟨objUser, found, listed, -⟩ := clientChat_private written isPrivate
          exact (founded.friends.records strUserId _ (.inPool found)).friends _ listed

/-- In every interleaving of requests, chats, responses and disconnects, a private message is only written to a user
with whom the sender has agreed on being friends, or was friends before. -/
theorem private_messages_agreed (nUserGlobalId : Int) (as : List ChatAction)
    (profiles : ∀ nHandlerId handler, .logic (.profile nHandlerId handler) ∈ as → MakesNoFriends handler) :
    ∀ strSender notice,
      (strSender, notice) ∈ (as.foldl (chatStep types nFirstUserId) (.init nUserGlobalId stored)).written →
      notice.tbRetData.nChatType = types.friend →
      Befriended stored (as.foldl (chatStep types nFirstUserId) (.init nUserGlobalId stored)).logic.acknowledged
        strSender notice.nReceiver.tostring := by
  suffices run : ∀ s, MessagesFounded types stored s →
      MessagesFounded types stored (as.foldl (chatStep types nFirstUserId) s) by
    have start : MessagesFounded types stored (.init nUserGlobalId stored) :=
      ⟨friendsFounded_init nUserGlobalId, fun _ _ member => by cases member⟩
    exact (run _ start).messages
  induction as with
  | nil => exact fun _ founded => founded
  | cons a as ih =>
      intro s founded
      apply ih
      · exact fun nHandlerId handler member => profiles nHandlerId handler (List.mem_cons_of_mem a member)
      · apply messagesFounded_step _ founded
        rintro nHandlerId handler rfl
        exact profiles nHandlerId handler List.mem_cons_self

def twoTypes : ChatTypes where
  friend := 1
  world := 2
  differ := by decide

/-- One user asks the other, who accepts and writes to him. -/
def acceptAndChat : List ChatAction :=
  [.logic (.enterGame 1 (.number 7)), .logic .execute, .logic .deliver, .logic (.enterGame 2 (.number 8)),
    .logic .execute, .logic .deliver, .logic (.addFriend 1 (.number 8)), .logic (.passRequest 2 (.number 7)),
    .clientChat 2 (.number 1) (.string "hello") (.number 7) []]

theorem private_messages_agreed_acceptAndChat :
    ∃ strSender notice, (strSender, notice) ∈ (acceptAndChat.foldl (chatStep twoTypes 1)
        (.init 9 fun _ => some .initial)).written ∧
      Befriended (fun _ => some .initial) (acceptAndChat.foldl (chatStep twoTypes 1)
        (.init 9 fun _ => some .initial)).logic.acknowledged strSender notice.nReceiver.tostring := by
  have profiles : ∀ nHandlerId handler, .logic (.profile nHandlerId handler) ∈ acceptAndChat →
      MakesNoFriends handler := by
    intro nHandlerId handler member
    simp [acceptAndChat] at member
  have wrote : (acceptAndChat.foldl (chatStep twoTypes 1) (.init 9 fun _ => some .initial)).written =
      [("8", _)] := rfl
  have member : ("8", _) ∈ (acceptAndChat.foldl (chatStep twoTypes 1)
      (.init 9 fun _ => some .initial)).written := wrote ▸ List.mem_singleton_self _
  exact ⟨"8", _, member, private_messages_agreed 9 acceptAndChat profiles "8" _ member rfl⟩

end Runs

/-! ## The world channel

The users are taken from the keys of a table, in the order of `pairs`, and each of them is looked up in the map to his
connection.
-/

section World

/-- Users who are online are named by numbers. -/
def NumericKeys (net : NetManager) : Prop :=
  ∀ strUserId, (net.userHanderIdMap strUserId).isSome = true → ∃ nUserId : Int, strUserId = nUserId.repr

variable {net : NetManager} {strUserIds : List String} {strSender : String} {tbRetData : ChatData}

/-- A user id that is written as a key is read back. -/
theorem tonumber_repr (n : Int) : tonumber n.repr = some n := Int.toInt?_repr n

/-- Who is written to: whoever is online and is not the sender. -/
theorem mem_handlers (order : PairsOf net.userHanderIdMap strUserIds) (h : Int) :
    h ∈ (sendChattingToWorldChannel net strUserIds strSender tbRetData).map ChatNotice.nHandlerId ↔
      ∃ n : Int, (LuaValue.number n).tostring ≠ strSender ∧ net.getHandlerId (.number n) = some h := by
  constructor
  · intro member
    obtain ⟨notice, sent, rfl⟩ := List.mem_map.mp member
    obtain ⟨n, -, written⟩ := List.mem_filterMap.mp sent
    split at written
    · next other => exact ⟨n, other, (sendNoticeToUser_spec written).1⟩
    · cases written
  · rintro ⟨n, other, online⟩
    have listed : n.repr ∈ strUserIds := (order.complete n.repr).mpr (Option.isSome_of_eq_some online)
    have sent : sendNoticeToUser net tbRetData (.number n) = some ⟨h, .number n, tbRetData⟩ := by
      have isOnline : net.userIsOnline (.number n) = true := Option.isSome_of_eq_some online
      rw [sendNoticeToUser, NetManager.sendNoticeToUser, if_pos isOnline, online]
      rfl
    apply List.mem_map.mpr
    have online' : n ∈ getAllOnlineUserId strUserIds := List.mem_filterMap.mpr ⟨n.repr, listed, tonumber_repr n⟩
    refine ⟨⟨h, .number n, tbRetData⟩, List.mem_filterMap.mpr ⟨n, online', ?_⟩, rfl⟩
    exact (if_pos other).trans sent

/-- No connection is written to twice. -/
theorem handlers_nodup (order : PairsOf net.userHanderIdMap strUserIds) (inverse : net.Inverse)
    (numeric : NumericKeys net) :
    ((sendChattingToWorldChannel net strUserIds strSender tbRetData).map ChatNotice.nHandlerId).Nodup := by
  unfold sendChattingToWorldChannel getAllOnlineUserId
  rw [List.Nodup, List.pairwise_map, List.pairwise_filterMap, List.pairwise_filterMap]
  apply order.nodup.imp_of_mem
  intro k k' member member' differs n isN n' isN' notice written notice' written' same
  have named : ∀ key m, key ∈ strUserIds → tonumber key = some m → key = m.repr := by
    intro key m listed reads
    obtain ⟨number, rfl⟩ := numeric key ((order.complete key).mp listed)
    rw [tonumber_repr] at reads
    cases reads
    rfl
  split at written
  · split at written'
    · have online := (sendNoticeToUser_spec written).1
      have online' := (sendNoticeToUser_spec written').1
      rw [← same] at online'
      have users := inverse.free_of_same online online'
      rw [named k n member isN, named k' n' member' isN', users] at differs
      exact differs rfl
    · cases written'
  · cases written

/-! ### Runs -/

/-- Users enter the game under numbers, on connections that no other user is on. -/
def Orderly (w : LogicWorld) : LogicAction → Prop
  | .enterGame nHandlerId nUserId => 0 < nHandlerId ∧ ∃ u, nUserId = .number u ∧ w.net.FreeFor nHandlerId u
  | _ => True

/-- What holds of the maps in an orderly run. -/
structure OnePlaceEach (net : NetManager) : Prop where
  inverse : net.Inverse
  positive : net.Positive
  numeric : NumericKeys net

/-- The keys after an update are those before and the user's. -/
theorem userHanderIdMap_update_of_ne (u h : Int) {strUserId : String} (other : strUserId ≠ u.repr) :
    (net.updateHandlerIdAndUserId (.number u) h).userHanderIdMap strUserId = net.userHanderIdMap strUserId := by
  have differs : strUserId ≠ (LuaValue.number u).tostring := other
  simp only [NetManager.updateHandlerIdAndUserId, NetManager.setUserId, NetManager.setHandlerId,
    NetManager.releaseUserId, NetManager.releaseHandler]
  repeat' split
  all_goals simp [Function.update_of_ne differs]

theorem onePlaceEach_update (one : OnePlaceEach net) {u h : Int} (positive : 0 < h) (free : net.FreeFor h u) :
    OnePlaceEach (net.updateHandlerIdAndUserId (.number u) h) := by
  constructor
  · exact (NetManager.update_inverse_iff one.inverse one.positive positive).mpr free
  · intro v k online
    rw [NetManager.getHandlerId_update net u v h positive] at online
    split at online
    · cases online
      exact positive
    · exact one.positive v k online
  · intro strUserId online
    by_cases own : strUserId = u.repr
    · exact ⟨u, own⟩
    · rw [userHanderIdMap_update_of_ne u h own] at online
      exact one.numeric strUserId online

/-- Who is online after a disconnect was so before. -/
theorem online_of_disconnect {nHandlerId : LuaValue} {strUserId : String}
    (online : ((net.onUserDisconnect nHandlerId).userHanderIdMap strUserId).isSome = true) :
    (net.userHanderIdMap strUserId).isSome = true := by
  have released : ∀ (before : NetManager) (user : LuaValue),
      ((before.releaseHandler user).userHanderIdMap strUserId).isSome = true →
        (before.userHanderIdMap strUserId).isSome = true := by
    intro before user after
    unfold NetManager.releaseHandler at after
    split at after
    · by_cases same : strUserId = user.tostring
      · simp [same] at after
      · simpa [Function.update_of_ne same] using after
    · exact after
  unfold NetManager.onUserDisconnect at online
  split at online
  · have before := released _ _ online
    rw [NetManager.releaseUserId, NetManager.setUserId] at before
    split at before
    · exact before
    · exact before
  · exact online

theorem onePlaceEach_disconnect (one : OnePlaceEach net) (nHandlerId : LuaValue) :
    OnePlaceEach (net.onUserDisconnect nHandlerId) := by
  cases nHandlerId with
  | number h =>
      exact ⟨(NetManager.disconnect_inverse one.inverse one.positive h).1, positive_apply one.positive (.disconnect h),
        fun strUserId online => one.numeric strUserId (online_of_disconnect online)⟩
  | _ => exact one

section Steps

variable {w : LogicWorld} {handle : String → LogicWorld → Handled}

/-- A handler leaves the maps as they are. -/
def KeepsNet (handle : String → LogicWorld → Handled) : Prop := ∀ strUserId w, (handle strUserId w).world.net = w.net

theorem answered_net (handled : Handled) : handled.answered.net = handled.world.net := by
  unfold Handled.answered
  split
  · rfl
  · rfl

theorem clientRequest_net (keeps : KeepsNet handle) (nHandlerId : Int) :
    (w.clientRequest nHandlerId handle).net = w.net := by
  unfold LogicWorld.clientRequest
  split
  · rfl
  · exact (answered_net _).trans (keeps _ w)

theorem onRedisCallback_net (keeps : KeepsNet handle) (nUserId : String) :
    (w.onRedisCallback nUserId handle).net = w.net := by
  unfold LogicWorld.onRedisCallback
  split
  · rfl
  · exact clientRequest_net keeps _

theorem profile_net (handler : ProfileHandler) : KeepsNet (LogicWorld.profile handler) := by
  intro strUserId w
  unfold LogicWorld.profile
  repeat' split
  all_goals rfl

theorem addFriend_net (nFirstUserId : Int) (nUserId : LuaValue) : KeepsNet (LogicWorld.addFriend nFirstUserId nUserId) := by
  intro strUserId w
  unfold LogicWorld.addFriend
  repeat' split
  all_goals rfl

theorem addInviteeToInviter_net (strInvitee strInviter : String) :
    (w.addInviteeToInviter strInvitee strInviter).net = w.net := by
  unfold LogicWorld.addInviteeToInviter
  split
  · rfl
  · rfl

theorem passRequest_net (nFirstUserId : Int) (nInviter : LuaValue) :
    KeepsNet (LogicWorld.passRequest nFirstUserId nInviter) := by
  intro strUserId w
  unfold LogicWorld.passRequest
  repeat' split
  all_goals first
    | rfl
    | exact addInviteeToInviter_net strUserId _

theorem onRedisRespone_net (response : DbResponse) : (w.onRedisRespone response).net = w.net := by
  unfold LogicWorld.onRedisRespone
  repeat' split
  · rfl
  · rfl
  · apply onRedisCallback_net
    intro _ w
    cases response.reply <;> rfl
  · apply onRedisCallback_net
    intro _ w
    cases response.reply <;> rfl

theorem onePlaceEach_step (nFirstUserId : Int) {a : LogicAction} (one : OnePlaceEach w.net) (orderly : Orderly w a) :
    OnePlaceEach (logicStep nFirstUserId w a).net := by
  cases a with
  | enterGame nHandlerId nUserId =>
      obtain ⟨positive, u, rfl, free⟩ := orderly
      have entered : (w.onClientEnterHall nHandlerId (.number u)).net =
          w.net.updateHandlerIdAndUserId (.number u) nHandlerId := by
        unfold LogicWorld.onClientEnterHall
        repeat' split
        all_goals rfl
      rw [logicStep, entered]
      exact onePlaceEach_update one positive free
  | profile nHandlerId handler => exact (clientRequest_net (profile_net handler) nHandlerId).symm ▸ one
  | addFriend nHandlerId nUserId =>
      exact (clientRequest_net (addFriend_net nFirstUserId nUserId) nHandlerId).symm ▸ one
  | passRequest nHandlerId nInviter =>
      exact (clientRequest_net (passRequest_net nFirstUserId nInviter) nHandlerId).symm ▸ one
  | disconnect nHandlerId =>
      have after := onePlaceEach_disconnect one nHandlerId
      dsimp only [logicStep, LogicWorld.userDisconnect]
      split
      · exact after
      · exact one
  | setUserGlobalId nUserGlobalId => exact one
  | execute =>
      dsimp only [logicStep, LogicWorld.execute]
      repeat' split
      all_goals exact one
  | deliver =>
      dsimp only [logicStep, LogicWorld.deliver]
      split
      · exact one
      · rw [onRedisRespone_net]
        exact one

end Steps

theorem onePlaceEach_ctor : OnePlaceEach .ctor where
  inverse := inverse_ctor
  positive := positive_ctor
  numeric := fun _ online => by cases online

/-- As long as users enter on connections of their own, a message on the world channel is written once to each
connection with another user than the sender, and to no other. -/
theorem world_message_reaches_once {nFirstUserId nUserGlobalId : Int} {stored : String → Option UserRecord}
    {as : List LogicAction} {w : LogicWorld}
    (guarded : Guarded (always (logicStep nFirstUserId)) Orderly (.init nUserGlobalId stored) as)
    (run : runSteps (always (logicStep nFirstUserId)) (.init nUserGlobalId stored) as = some w)
    (order : PairsOf w.net.userHanderIdMap strUserIds) (types : ChatTypes) (strSender : String) {objUser : UserObject}
    (found : w.users.userDataPool strSender = some objUser) (strContent : String) (nUserId : LuaValue) :
    let notices := w.chatNotices types strSender strUserIds (.number types.world) (.string strContent) nUserId
    (notices.map ChatNotice.nHandlerId).Nodup ∧
      (∀ h, h ∈ notices.map ChatNotice.nHandlerId ↔
        ∃ n : Int, w.net.getUserId h = .number n ∧ (LuaValue.number n).tostring ≠ strSender) ∧
      ∀ notice ∈ notices,
        notice.tbRetData = ⟨types.world, getClientFriendData objUser.gameData, strContent, nUserId⟩ := by
  have one : OnePlaceEach w.net := by
    have keep : ∀ (before : LogicWorld) a after, OnePlaceEach before.net → Orderly before a →
        always (logicStep nFirstUserId) before a = some after → OnePlaceEach after.net := by
      intro before a after one orderly step
      cases step
      exact onePlaceEach_step nFirstUserId one orderly
    exact @guarded_invariant _ _ _ _ (fun w => OnePlaceEach w.net) keep _ _ _ onePlaceEach_ctor guarded run
  have differ : types.world ≠ types.friend := types.differ.symm
  have notices : w.chatNotices types strSender strUserIds (.number types.world) (.string strContent) nUserId =
      sendChattingToWorldChannel w.net strUserIds strSender
        ⟨types.world, getClientFriendData objUser.gameData, strContent, nUserId⟩ := by
    simp [LogicWorld.chatNotices, clientChat, found, chat, differ]
  dsimp only
  rw [notices]
  refine ⟨handlers_nodup order one.inverse one.numeric, fun h => ?_, fun notice sent => mem_world sent⟩
  rw [mem_handlers order]
  constructor
  · rintro ⟨n, other, online⟩
    exact ⟨n, (one.inverse n h).mp online, other⟩
  · rintro ⟨n, user, other⟩
    exact ⟨n, other, (one.inverse n h).mpr user⟩

/-- Two users on two connections. -/
def twoUsersOnline : List LogicAction :=
  [.enterGame 1 (.number 7), .execute, .deliver, .enterGame 2 (.number 8), .execute, .deliver]

theorem world_message_reaches_once_twoUsers :
    ∃ w, runSteps (always (logicStep 1)) (.init 9 fun _ => some .initial) twoUsersOnline = some w ∧
      ((w.chatNotices twoTypes "7" ["7", "8"] (.number twoTypes.world) (.string "hello") .nil).map
        ChatNotice.nHandlerId).Nodup ∧
      2 ∈ (w.chatNotices twoTypes "7" ["7", "8"] (.number twoTypes.world) (.string "hello") .nil).map
        ChatNotice.nHandlerId := by
  have guarded : Guarded (always (logicStep 1)) Orderly (.init 9 fun _ => some .initial) twoUsersOnline := by
    apply Guarded.always_cons ⟨by decide, 7, rfl, by decide⟩
    apply Guarded.always_cons trivial
    apply Guarded.always_cons trivial
    apply Guarded.always_cons ⟨by decide, 8, rfl, by decide +kernel⟩
    exact .always_cons trivial (.always_cons trivial trivial)
  have order : PairsOf (Function.update (Function.update (fun _ => none) "7" (some 1)) "8" (some 2)) ["7", "8"] := by
    refine ⟨by decide, fun strUserId => ?_⟩
    by_cases eighth : strUserId = "8"
    · simp [eighth]
    · by_cases seventh : strUserId = "7"
      · simp [seventh]
      · simp [eighth, seventh]
  obtain ⟨nodup, reached, -⟩ := world_message_reaches_once guarded rfl order twoTypes "7" rfl "hello" .nil
  exact ⟨_, rfl, nodup, (reached 2).mpr ⟨8, rfl, by decide⟩⟩

end World

end GameServer.Logic
