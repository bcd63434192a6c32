/-
Module: GameServer.Login.LoginProtocol
Purpose: The login server's handling of a `LOGIN_DIRECT` request: the lookup of the device, registration or
  login, and the answer.
Trusted boundary: the parameters of a request are the array that `json.decode` made; a record is read back
  as it was written; logging does not raise but where it joins strings
Main exports: onClientRequest, onRedisRespone, LoginReply
-/
import GameServer.Login.UserManager

namespace GameServer.Login

open Lib Lib.LuaM Script

/-- What a response of the database brings. -/
inductive LoginReply where
  | empty
  | ok
  | number (n : Int)
  | record (value : String → String → LuaValue)

variable (cfg : LoginConfig)

/-! ## The gateway

An answer takes its request from the queue of the connection.
-/

/-- `PopRequestFromSquence`, which does nothing but log when there is no connection. -/
def popRequestFromSquence (nHandlerId : Option Int) : LuaM LoginState Unit := do
  match nHandlerId with
  | none => pure ()
  | some nHandlerId => do
      let s ← get
      match s.net.popRequestFromSquence nHandlerId with
      | .ok net => modify fun s => { s with net := net }
      | .error net => do
          modify fun s => { s with net := net }
          raise

/-- `SendToGateway`, for the answer to a `LOGIN_DIRECT`.  The binding makes 0 of a connection that is nil. -/
def sendToGateway (nSequenceId : Int) (nErrorCode : ErrorCode) (nHandlerId : Option Int)
    (nUserId : Option Int) : LuaM LoginState Unit := do
  popRequestFromSquence nHandlerId
  modify fun s =>
    { s with toGateway := s.toGateway ++ [⟨nSequenceId, nErrorCode, nHandlerId.getD 0, nUserId⟩] }

/-! ## The request

`LOGIN_DIRECT` asks the database for the id under which the device is registered.
-/

/-- The value can be joined to a string. -/
def joins : LuaValue → Bool
  | .number _ | .string _ => true
  | _ => false

/-- `CheckRegisterParam`.  Logging what is neither string nor number raises. -/
def checkRegisterParam (tbParam : List LuaValue) : LuaM LoginState ErrorCode :=
  let strDeviceId := tbParam.getD 0 .nil
  let strIp := tbParam.getD 1 .nil
  if joins strDeviceId && joins strIp then
    match strDeviceId, strIp with
    | .string _, .string _ => pure .ok
    | _, _ => pure .paramterError
  else
    raise

/-- `OnClientLoginDirect`.  The connection stands in the place of the user. -/
def onClientLoginDirect (nHandlerId nSequenceId : Int) (tbParam : List LuaValue) : LuaM LoginState Unit := do
  let nErrorCode ← checkRegisterParam tbParam
  if nErrorCode = .ok then
    toRedis (.get .register nHandlerId .getDeviceId (tbParam.getD 0 .nil).tostring)
  else do
    popRequestFromSquence (some nHandlerId)
    sendToGateway nSequenceId nErrorCode (some nHandlerId) none

/-- `OnClientRequest`, for a `LOGIN_DIRECT` whose parameters are a table. -/
def onClientRequest (nHandlerId : Int) (request : Request) : LuaM LoginState Unit := do
  let bRet ← pcall do
    modify fun s => { s with net := s.net.pushRequestToSquence nHandlerId request }
    onClientLoginDirect nHandlerId request.nSequenceId request.tbParam
  if bRet.isNone then
    popRequestFromSquence (some nHandlerId)
  else
    pure ()

/-! ## Responses of the database

A device without an id is registered; one with an id logs in, for which its record may have to be loaded first.
-/

/-- `OnResponeClientLogin`. -/
def onResponeClientLogin (nUserId : Int) (nErrorCode : ErrorCode) (nRetInfo : Option Int) :
    LuaM LoginState Unit := do
  let s ← get
  let nHandlerId := s.net.getHandlerId (.number nUserId)
  sendToGateway (s.net.getSquenceIdFromSquence nHandlerId) nErrorCode nHandlerId nRetInfo

/-- The login of a user whose object is cached, and its answer. -/
def answerLogin (nUserId : Int) : LuaM LoginState Unit := do
  let s ← get
  onResponeClientLogin nUserId (login s nUserId).1 (login s nUserId).2

/-- `OnClientRegister`. -/
def onClientRegister (nHandlerId nSequenceId : Int) (tbParam : List LuaValue) : LuaM LoginState Unit := do
  let nErrorCode ← register cfg nHandlerId tbParam
  if nErrorCode = .paramterError then
    sendToGateway nSequenceId nErrorCode (some nHandlerId) none
  else
    pure ()

/-- `OnClientLogin`. -/
def onClientLogin (nHandlerId nUserId : Int) : LuaM LoginState Unit := do
  modify fun s => { s with net := s.net.updateHandlerIdAndUserId (.number nUserId) nHandlerId }
  let s ← get
  match s.getUserObject nUserId with
  | none => toRedis (.get .gameData nUserId .getGameData nUserId.repr)
  | some _ => answerLogin nUserId

/-- The tables that `json.decode` makes of a record; the record itself is the last one. -/
def decodeRecord (heap : TableHeap String LuaValue) (value : String → String → LuaValue) :
    TableHeap String LuaValue :=
  ((((heap.alloc (value baseInfo)).alloc (value cfg.friendInfo)).alloc fun _ => .nil).write (heap.next + 2)
    baseInfo (.table heap.next)).write (heap.next + 2) cfg.friendInfo (.table (heap.next + 1))

/-- `json.decode` and `CacheUserObject`. -/
def cacheRecord (value : String → String → LuaValue) : LuaM LoginState Unit :=
  modify fun s =>
    { s with
      heap := decodeRecord cfg s.heap value
      userDataPool := Function.update s.userDataPool (value baseInfo userIdField).tostring
        (some (s.heap.next + 2)) }

theorem recordAt_decodeRecord (heap : TableHeap String LuaValue) (value : String → String → LuaValue)
    (field : String) :
    recordAt (decodeRecord cfg heap value) (heap.next + 2) baseInfo field = value baseInfo field := by
  have behind : heap.next < heap.next + 2 := Nat.lt_add_of_pos_right (by decide)
  have notLast : heap.next ≠ heap.next + 2 := Nat.ne_of_lt behind
  have table : tableOf (decodeRecord cfg heap value) (heap.next + 2) baseInfo = some heap.next := by
    rw [tableOf, decodeRecord, TableHeap.read_write_of_ne _ _ (Or.inr (Ne.symm cfg.friendInfo_ne)),
      TableHeap.read_write_self]
  rw [recordAt, table]
  change (decodeRecord cfg heap value).read heap.next field = _
  rw [decodeRecord, TableHeap.read_write_of_ne _ _ (Or.inl notLast),
    TableHeap.read_write_of_ne _ _ (Or.inl notLast),
    TableHeap.read_alloc_of_lt _ _ behind, TableHeap.read_alloc_of_lt _ _ (Nat.lt_succ_self heap.next),
    TableHeap.read_alloc_next]

/-- `OnResponseLoginEvent`.  What is no record cannot be decoded as one, or has no tables. -/
def onResponseLoginEvent (nUserId : Int) (nEventId : AsyncEvent) (reply : LoginReply) :
    LuaM LoginState Unit := do
  match nEventId with
  | .getDeviceId => do
      let nHandlerId := nUserId
      let s ← get
      match s.net.getParamFromSquence nHandlerId with
      | none => raise
      | some tbParam =>
          match reply with
          | .empty =>
              onClientRegister cfg nHandlerId (s.net.getSquenceIdFromSquence (some nHandlerId)) tbParam
          | .number n => onClientLogin nHandlerId n
          | _ =>
              -- `tonumber` gives nil
              modify fun s => { s with net := s.net.updateHandlerIdAndUserId .nil nHandlerId }
  | .registering => answerLogin nUserId
  | .getGameData =>
      match reply with
      | .record value => do
          cacheRecord cfg value
          answerLogin nUserId
      | _ => raise
  | _ => pure ()

/-- `OnRedisRespone`. -/
def onRedisRespone (nUserId : Int) (nEventId : AsyncEvent) (reply : LoginReply) : LuaM LoginState Unit := do
  match nEventId with
  | .getUserGlobalId =>
      onResponseGlobalConfigEvent
        (match reply with
          | .number n => some n
          | _ => none)
  | _ => onResponseLoginEvent cfg nUserId nEventId reply

end GameServer.Login
