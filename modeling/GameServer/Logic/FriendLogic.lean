/-
Module: GameServer.Logic.FriendLogic
Purpose: The logic server's requests that read or change the records of users, as `logic_protocol.lua` and
  `friend_logic.lua` serve them, and the database behind them.
Trusted boundary: a response reaches the handler of its own request with its parameters, and the queues of
  requests let every answer through; the handlers do not raise; the responses to `set` change nothing
Main exports: LogicWorld, Handled, addFriend, passRequest, clientRequest, onClientEnterHall,
  onRedisRespone, LogicAction, logicStep
-/
import GameServer.Logic.UserInfoLogic

namespace GameServer.Logic

open Lib Script

/-! ## The server

The state that the functions of `friend_logic.lua` work on, with the operations on the pool and on the queue of
commands that they use.
-/

/-- The response to a `get`; none for an empty string. -/
structure DbResponse where
  get : GameDataGet
  reply : Option UserRecord

/-- The logic server and its database.  `acknowledged` has the changes that were answered with OK, in the order
of the answers; no function reads it. -/
structure LogicWorld where
  net : NetManager
  users : UserManager
  userGlobalId : Int
  responses : List DbResponse
  store : String → Option UserRecord
  acknowledged : List (String × Change)

/-- A server that has just been started. -/
def LogicWorld.init (nUserGlobalId : Int) (stored : String → Option UserRecord) : LogicWorld where
  net := .ctor
  users := .ctor
  userGlobalId := nUserGlobalId
  responses := []
  store := stored
  acknowledged := []

namespace LogicWorld

variable (w : LogicWorld)

def push (command : DbCommand) : LogicWorld := { w with users := w.users.push command }

def putUserObject (strUserId : String) (objUser : UserObject) : LogicWorld :=
  { w with users := w.users.putUserObject strUserId objUser }

def cacheUserObject (strUserId : String) (gameData : UserRecord) : LogicWorld :=
  { w with users := w.users.cacheUserObject strUserId gameData }

def saveUserData (strUserId : String) (objUser : UserObject) : LogicWorld :=
  { w with users := w.users.saveUserData strUserId objUser }

def commit (strUserId : String) : LogicWorld := { w with users := w.users.commit strUserId }

def acknowledge (changes : List (String × Change)) : LogicWorld :=
  { w with acknowledged := w.acknowledged ++ changes }

/-- `CheckUserIdLegal`. -/
def checkUserIdLegal (nFirstUserId nUserId : Int) : Bool :=
  !(nUserId < nFirstUserId || nUserId > w.userGlobalId)

end LogicWorld

/-! ## Handlers

The handlers of the requests, and the parts of them that run when a record has come from the database.
-/

/-- What a handler returned: its code, the changes it made for the request, and the server afterwards. -/
structure Handled where
  nErrorCode : ErrorCode
  changes : List (String × Change)
  world : LogicWorld

/-- The changes of a request that is answered with OK are acknowledged. -/
def Handled.answered (handled : Handled) : LogicWorld :=
  if handled.nErrorCode = .ok then handled.world.acknowledge handled.changes else handled.world

namespace LogicWorld

/-- A profile request of the user. -/
def profile (handler : ProfileHandler) (strUserId : String) (w : LogicWorld) : Handled :=
  match w.users.userDataPool strUserId with
  | none => ⟨.unknownError, [], w⟩
  | some objUser =>
      match handler objUser.gameData with
      | .error nErrorCode => ⟨nErrorCode, [], w⟩
      | .ok cs => ⟨.ok, cs.map fun c => (strUserId, c), w.putUserObject strUserId (objUser.changes cs)⟩

/-- `AddFriendRequest` on an object of the pool. -/
def addFriendRequest (strInviter strInvitee : String) (objInvitee : UserObject) (w : LogicWorld) : Handled :=
  let asked := objInvitee.change (.addFriendRequest strInviter)
  ⟨.ok, [(strInvitee, .addFriendRequest strInviter)],
    (w.putUserObject strInvitee asked).saveUserData strInvitee asked⟩

/-- `AddFriendRequest` on an object that was made from a response. -/
def onAddFriendGameData (strInviter strInvitee : String) (reply : Option UserRecord) (w : LogicWorld) : Handled :=
  match reply with
  | none => ⟨.paramterError, [], w⟩
  | some gameData =>
      let asked := (UserObject.new gameData).change (.addFriendRequest strInviter)
      ⟨.ok, [(strInvitee, .addFriendRequest strInviter)], w.saveUserData strInvitee asked⟩

variable (nFirstUserId : Int)

/-- `ClientAddFriend` and `AddFriend`. -/
def addFriend (nUserId : LuaValue) (strUserId : String) (w : LogicWorld) : Handled :=
  match nUserId with
  | .number n =>
      match w.users.userDataPool strUserId with
      | none => ⟨.unknownError, [], w⟩
      | some _ =>
          if ¬ w.checkUserIdLegal nFirstUserId n then ⟨.userNoRegister, [], w⟩
          else if strUserId = nUserId.tostring then ⟨.friendIdIsOneself, [], w⟩
          else
            match w.users.userDataPool nUserId.tostring with
            | none =>
                ⟨.asynEvent, [], w.push (.getValue ⟨.addFriendGetGameData, strUserId, nUserId.tostring⟩)⟩
            | some objInvitee => w.addFriendRequest strUserId nUserId.tostring objInvitee
  | _ => ⟨.paramterError, [], w⟩

/-- `UserAddFriend` on an object of the pool. -/
def userAddFriend (strUserId strFriend : String) (objUser : UserObject) (w : LogicWorld) : LogicWorld :=
  let added := objUser.change (.addToFriendList strFriend)
  (w.putUserObject strUserId added).saveUserData strUserId added

/-- `OnGetFriendInviterData`: `UserAddFriend` on an object that was made from a response. -/
def onGetFriendInviterData (strInvitee strInviter : String) (reply : Option UserRecord) (w : LogicWorld) : Handled :=
  match reply with
  | none => ⟨.fail, [], w⟩
  | some gameData =>
      let added := (UserObject.new gameData).change (.addToFriendList strInvitee)
      ⟨.asynEvent, [], w.saveUserData strInviter added⟩

/-- The last part of `PassRequest`: the inviter's list. -/
def addInviteeToInviter (strInvitee strInviter : String) (w : LogicWorld) : LogicWorld :=
  match w.users.userDataPool strInviter with
  | none => w.push (.getValue ⟨.getFriendInviterData, strInvitee, strInviter⟩)
  | some objInviterUser => w.userAddFriend strInviter strInvitee objInviterUser

/-- What `PassRequest` changes in the record of the user who accepts. -/
def acceptance (strInviter : String) : List Change :=
  [.delFriendRequest strInviter, .addToFriendList strInviter]

/-- `ClientPassRequest` and `PassRequest`. -/
def passRequest (nInviter : LuaValue) (strUserId : String) (w : LogicWorld) : Handled :=
  match nInviter with
  | .number n =>
      match w.users.userDataPool strUserId with
      | none => ⟨.unknownError, [], w⟩
      | some objUser =>
          if ¬ w.checkUserIdLegal nFirstUserId n then ⟨.userNoRegister, [], w⟩
          else if ¬ objUser.gameData.friendRequest nInviter.tostring then ⟨.inviterRequestIsNull, [], w⟩
          else
            let accepted := w.putUserObject strUserId (objUser.changes (acceptance nInviter.tostring))
            ⟨.ok,
              (acceptance nInviter.tostring).map (fun c => (strUserId, c)) ++
                [(nInviter.tostring, .addToFriendList strUserId)],
              accepted.addInviteeToInviter strUserId nInviter.tostring⟩
  | _ => ⟨.paramterError, [], w⟩

/-! ## Requests and responses

`ClientRequest` and `OnRedisCallback` find the user, call the handler, answer and commit.
-/

/-- The user of the connection.  `SetCurrentUserObject` raises for what is neither a number nor a string. -/
def currentUser (w : LogicWorld) (nHandlerId : Int) : Option String :=
  match w.net.getUserId nHandlerId with
  | .number n => some (LuaValue.number n).tostring
  | .string s => some s
  | _ => none

/-- `ClientRequest`, from `GetUserId` on. -/
def clientRequest (nHandlerId : Int) (handle : String → LogicWorld → Handled) (w : LogicWorld) : LogicWorld :=
  match w.currentUser nHandlerId with
  | none => w
  | some strUserId => (handle strUserId w).answered.commit strUserId

/-- `OnClientEnterHall`. -/
def onClientEnterHall (nHandlerId : Int) (nUserId : LuaValue) (w : LogicWorld) : LogicWorld :=
  let updated := { w with net := w.net.updateHandlerIdAndUserId nUserId nHandlerId }
  if nUserId.isNumber then
    match w.users.userDataPool nUserId.tostring with
    | none => updated.push (.getValue ⟨.logicGetGameData, nUserId.tostring, nUserId.tostring⟩)
    | some _ => updated
  else
    updated

/-- The user for whom the callback of a response runs: the one on the connection of the user who asked. -/
def callbackUser (w : LogicWorld) (nUserId : String) : Option String :=
  (w.net.userHanderIdMap nUserId).bind w.currentUser

/-- `OnRedisCallback`, and the `ClientRequest` that it makes. -/
def onRedisCallback (nUserId : String) (handle : String → LogicWorld → Handled) (w : LogicWorld) : LogicWorld :=
  match w.net.userHanderIdMap nUserId with
  | none => w
  | some nHandlerId => w.clientRequest nHandlerId handle

/-- `OnRedisRespone`. -/
def onRedisRespone (response : DbResponse) (w : LogicWorld) : LogicWorld :=
  match response.get.event with
  | .logicGetGameData =>
      match response.reply with
      | none => w
      | some gameData => w.cacheUserObject response.get.strKey gameData
  | .addFriendGetGameData =>
      w.onRedisCallback response.get.nUserId fun _ =>
        onAddFriendGameData response.get.nUserId response.get.strKey response.reply
  | .getFriendInviterData =>
      w.onRedisCallback response.get.nUserId fun _ =>
        onGetFriendInviterData response.get.nUserId response.get.strKey response.reply

/-- `OnUserDisconnect`. -/
def userDisconnect (nHandlerId : LuaValue) (w : LogicWorld) : LogicWorld :=
  match w.net.userOfDisconnect nHandlerId with
  | some (_, nUserId) =>
      { w with
        net := w.net.onUserDisconnect nHandlerId
        users := w.users.releaseUserObject nUserId.tostring }
  | none => w

/-- Redis executes the next command. -/
def execute (w : LogicWorld) : LogicWorld :=
  match w.users.commands with
  | [] => w
  | command :: rest =>
      let executed := { w with users := { w.users with commands := rest }, store := command.run w.store }
      match command with
      | .getValue get => { executed with responses := w.responses ++ [⟨get, w.store get.strKey⟩] }
      | .setValue _ _ => executed

/-- The next response reaches the server. -/
def deliver (w : LogicWorld) : LogicWorld :=
  match w.responses with
  | [] => w
  | response :: rest => { w with responses := rest }.onRedisRespone response

end LogicWorld

/-- What may happen next.  The global user id changes when a new user was registered. -/
inductive LogicAction where
  | enterGame (nHandlerId : Int) (nUserId : LuaValue)
  | profile (nHandlerId : Int) (handler : ProfileHandler)
  | addFriend (nHandlerId : Int) (nUserId : LuaValue)
  | passRequest (nHandlerId : Int) (nInviter : LuaValue)
  | disconnect (nHandlerId : LuaValue)
  | setUserGlobalId (nUserGlobalId : Int)
  | execute
  | deliver

def logicStep (nFirstUserId : Int) (w : LogicWorld) : LogicAction → LogicWorld
  | .enterGame nHandlerId nUserId => w.onClientEnterHall nHandlerId nUserId
  | .profile nHandlerId handler => w.clientRequest nHandlerId (LogicWorld.profile handler)
  | .addFriend nHandlerId nUserId => w.clientRequest nHandlerId (LogicWorld.addFriend nFirstUserId nUserId)
  | .passRequest nHandlerId nInviter =>
      w.clientRequest nHandlerId (LogicWorld.passRequest nFirstUserId nInviter)
  | .disconnect nHandlerId => w.userDisconnect nHandlerId
  | .setUserGlobalId nUserGlobalId => { w with userGlobalId := nUserGlobalId }
  | .execute => w.execute
  | .deliver => w.deliver

end GameServer.Logic
