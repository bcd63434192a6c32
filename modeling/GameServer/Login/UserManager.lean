/-
Module: GameServer.Login.UserManager
Purpose: The login server's registration of users: the templates of the database fields, the pool of user
  objects, the global user id, and the requests to the database.
Trusted boundary: names and contents of the templates come from `dev_share` and are a parameter, and so does
  `UserData:new`, which wraps the table it is given; requests are kept as they are made
Main exports: LoginConfig, LoginState, cacheUserObject, register, login
-/
import GameServer.Lib.LuaM
import GameServer.Lib.TableHeap
import GameServer.Script.NetManager

namespace GameServer.Login

open Lib Lib.LuaM Script

/-! ## Definitions of the database

The names of tables and fields, and the state of the login server.
-/

/-- `GAME_DATA_TABLE_NAME.BASE_INFO`. -/
def baseInfo : String := "BaseInfo"

/-- `GAME_DATA_FIELD_NAME.BaseInfo.USER_ID`, and that of `UserInfo`. -/
def userIdField : String := "UserId"

/-- `GAME_DATA_FIELD_NAME.UserInfo.DEVICE_ID`. -/
def deviceIdField : String := "DeviceId"

/-- `GAME_DATA_FIELD_NAME.UserInfo.REGISTER_IP`. -/
def registerIpField : String := "RegisterIp"

/-- `DATABASE_TABLE_GLOBAL_DEFALUT.USER_ID`. -/
def userGlobalIdDefault : Int := 100001

/-- `DATABASE_TABLE_FIELD` as the file leaves it, and `GAME_DATA_TABLE_NAME.FRIEND_INFO`. -/
structure LoginConfig where
  friendInfo : String
  friendInfo_ne : friendInfo ≠ baseInfo
  userInfoFields : String → LuaValue
  baseInfoFields : String → LuaValue
  friendInfoFields : String → LuaValue

/-- Where the tables of `DATABASE_TABLE_FIELD` stand. -/
def userInfoTemplate : Nat := 0

def baseInfoTemplate : Nat := 1

def friendInfoTemplate : Nat := 2

/-- The tables of the database. -/
inductive DbTable where
  | global
  | account
  | register
  | gameData
deriving Repr, DecidableEq

/-- `EVENT_ID.GET_ASYN_DATA` and `EVENT_ID.GLOBAL_CONFIG`; `none` is the event 0. -/
inductive AsyncEvent where
  | none
  | getDeviceId
  | registering
  | getGameData
  | getUserGlobalId
deriving Repr, DecidableEq

/-- What is written as JSON: a number, the fields of a table, or the fields of the tables of a record. -/
inductive DbValue where
  | number (n : Int)
  | fields (value : String → LuaValue)
  | record (value : String → String → LuaValue)

/-- A call of `RedisInterface:GetValue` or `SetValue`. -/
inductive RedisCall where
  | get (table : DbTable) (nUserId : Int) (event : AsyncEvent) (strKey : String)
  | set (table : DbTable) (nUserId : Int) (event : AsyncEvent) (strKey : String) (value : DbValue)

/-- `ERROR_CODE.SYSTEM`. -/
inductive ErrorCode where
  | ok
  | unknownError
  | paramterError
  | userDataNil
  | userNoRegister
  | userRegistering
deriving Repr, DecidableEq

/-- A message to the gateway: the answer to a `LOGIN_DIRECT`, with the user id in its result. -/
structure LoginAnswer where
  nSequenceId : Int
  nErrorCode : ErrorCode
  nHandlerId : Int
  nUserId : Option Int
deriving Repr, DecidableEq

/-- A user id was given to a device; no function reads these. -/
structure Registered where
  nUserId : Int
  strDeviceId : String
deriving Repr, DecidableEq

/-- The scripts of the login server.  The pool holds the addresses of game data. -/
structure LoginState where
  heap : TableHeap String LuaValue
  userDataPool : String → Option Nat
  userGlobalId : Option Int
  net : NetManager
  toRedis : List RedisCall
  toGateway : List LoginAnswer
  toLogic : List Int
  registered : List Registered

variable (cfg : LoginConfig)

/-- The state after loading the scripts, but for the request for the global user id. -/
def LoginState.ctor : LoginState where
  heap :=
    { tables := fun
        | 0 => cfg.userInfoFields
        | 1 => cfg.baseInfoFields
        | 2 => cfg.friendInfoFields
        | _ => fun _ => .nil
      next := 3 }
  userDataPool _ := none
  userGlobalId := none
  net := .ctor
  toRedis := []
  toGateway := []
  toLogic := []
  registered := []

/-! ## Tables

Lua's tables have addresses, so that two records may share one.
-/

def toRedis (call : RedisCall) : LuaM LoginState Unit :=
  modify fun s => { s with toRedis := s.toRedis ++ [call] }

/-- The table `tbGameData[strTable]`, if it is one. -/
def tableOf (heap : TableHeap String LuaValue) (gameData : Nat) (strTable : String) : Option Nat :=
  match heap.read gameData strTable with
  | .table address => some address
  | _ => none

/-- The contents of a record, as `json.encode` writes them. -/
def recordAt (heap : TableHeap String LuaValue) (gameData : Nat) (strTable field : String) : LuaValue :=
  match tableOf heap gameData strTable with
  | some address => heap.read address field
  | none => .nil

/-! ## Global configuration

The functions of `global_config_manager.lua` for the user id.
-/

/-- The id that `SetUserGlobalId` keeps: the default for 0 and for what is no number. -/
def globalIdOr (nUserGlobalId : Option Int) : Int :=
  match nUserGlobalId with
  | some n => if n = 0 then userGlobalIdDefault else n
  | none => userGlobalIdDefault

/-- `SetUserGlobalId`, with the number `tonumber` found. -/
def setUserGlobalId (nUserGlobalId : Option Int) (bOnlyCache : Bool) : LuaM LoginState Unit := do
  modify fun s => { s with userGlobalId := some (globalIdOr nUserGlobalId) }
  if !bOnlyCache then
    toRedis (.set .global 0 .none "UserGlobalId" (.number (globalIdOr nUserGlobalId)))
  else
    pure ()

/-- `InitUserGlobalId`. -/
def initUserGlobalId : LuaM LoginState Unit := do
  let s ← get
  if s.userGlobalId.isNone then
    toRedis (.get .global 0 .getUserGlobalId "UserGlobalId")
  else
    pure ()

/-- `OnResponseGlobalConfigEvent`, for a reply that is a number or empty. -/
def onResponseGlobalConfigEvent (reply : Option Int) : LuaM LoginState Unit :=
  setUserGlobalId reply reply.isSome

/-- `IncrementGlobalUserId`; adding to nil raises. -/
def incrementGlobalUserId : LuaM LoginState Unit := do
  let s ← get
  match s.userGlobalId with
  | none => raise
  | some n => do
      setUserGlobalId (some (n + 1)) false
      modify fun s => { s with toLogic := s.toLogic ++ [n + 1] }

/-! ## Users

The functions of `user_manager.lua` that a registration and a login call.
-/

/-- `CacheUserObject`; indexing what is no table raises. -/
def cacheUserObject (tbGameData : Nat) : LuaM LoginState Unit := do
  let s ← get
  match tableOf s.heap tbGameData baseInfo with
  | none => raise
  | some address =>
      let nUserId := s.heap.read address userIdField
      modify fun s =>
        { s with userDataPool := Function.update s.userDataPool nUserId.tostring (some tbGameData) }

/-- What `GetInitUser` does to the template of accounts. -/
def initUser (heap : TableHeap String LuaValue) (nUserId : LuaValue) (strDeviceId strIp : String) :
    TableHeap String LuaValue :=
  ((heap.write userInfoTemplate userIdField nUserId).write userInfoTemplate deviceIdField
    (.string strDeviceId)).write userInfoTemplate registerIpField (.string strIp)

/-- `GetInitUser`: the template itself. -/
def getInitUser (strDeviceId strIp : String) : LuaM LoginState Nat := do
  let s ← get
  let nUserId : LuaValue :=
    match s.userGlobalId with
    | some n => .number n
    | none => .nil
  modify fun s => { s with heap := initUser s.heap nUserId strDeviceId strIp }
  return userInfoTemplate

/-- What `GetInitGameData` does: the template gets the user id, and the new table refers to the tables of
the template. -/
def initGameData (heap : TableHeap String LuaValue) (nUserId : LuaValue) : TableHeap String LuaValue :=
  ((((heap.alloc fun _ => .nil).write baseInfoTemplate userIdField nUserId).write heap.next baseInfo
    (.table baseInfoTemplate)).write heap.next cfg.friendInfo (.table friendInfoTemplate))

/-- `GetInitGameData`: the new table. -/
def getInitGameData (nUserId : LuaValue) : LuaM LoginState Nat := do
  let s ← get
  modify fun s => { s with heap := initGameData cfg s.heap nUserId }
  return s.heap.next

/-- `RegisterProcess`. -/
def registerProcess (nUserId : Int) (nHandlerId : Int) (strDeviceId : String) (tbUserInfo tbGameData : Nat) :
    LuaM LoginState Unit := do
  cacheUserObject tbGameData
  incrementGlobalUserId
  modify fun s => { s with net := s.net.registerProcess (.number nUserId) nHandlerId }
  let s ← get
  toRedis (.set .register 0 .none strDeviceId (.number nUserId))
  toRedis (.set .account 0 .none nUserId.repr (.fields fun field => s.heap.read tbUserInfo field))
  toRedis (.set .gameData nUserId .registering nUserId.repr (.record (recordAt s.heap tbGameData)))
  modify fun s => { s with registered := s.registered ++ [⟨nUserId, strDeviceId⟩] }

/-- `Register`.  While the global user id is not known, it raises when it is to be increased. -/
def register (nHandlerId : Int) (tbParam : List LuaValue) : LuaM LoginState ErrorCode := do
  match tbParam with
  | .string strDeviceId :: .string strIp :: _ => do
      let tbUserInfo ← getInitUser strDeviceId strIp
      let s ← get
      let tbGameData ← getInitGameData cfg (s.heap.read tbUserInfo userIdField)
      match s.userGlobalId with
      | none => do
          cacheUserObject tbGameData
          raise
      | some nUserId => do
          registerProcess nUserId nHandlerId strDeviceId tbUserInfo tbGameData
          return .userRegistering
  | _ => return .paramterError

/-- `GetUserObject`: the address of the game data. -/
def LoginState.getUserObject (s : LoginState) (nUserId : Int) : Option Nat :=
  s.userDataPool (LuaValue.number nUserId).tostring

/-- `objUser:GetUserId()`. -/
def userIdOf (heap : TableHeap String LuaValue) (gameData : Nat) : LuaValue :=
  recordAt heap gameData baseInfo userIdField

/-- `Login`: the error code, and the user id in the result. -/
def login (s : LoginState) (nUserId : Int) : ErrorCode × Option Int :=
  match s.getUserObject nUserId with
  | none => (.userNoRegister, none)
  | some gameData =>
      if userIdOf s.heap gameData = .number nUserId then
        (.ok, some nUserId)
      else
        (.userNoRegister, none)

end GameServer.Login
