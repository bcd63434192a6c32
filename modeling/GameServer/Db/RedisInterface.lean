/-
Module: GameServer.Db.RedisInterface
Purpose: `AsyncManager` and `RedisInterface` with the C bindings they call: how the arguments of a call
  become a request.
Trusted boundary: parameters of a call can be written as JSON for the log; user ids and events are whole
  numbers; how numbers and tables are written is a parameter
Main exports: AsyncManager, LuaArg, Binding, RedisInterface.getValue, setValue, deleteValue, mGetValue,
  DbCall
-/
import GameServer.Db.Buffers
import GameServer.Login.UserManager

namespace GameServer.Db

open Script (LuaValue)
open Login (DbTable)

/-! ## Asynchronous calls

A call is kept under its sequence id until its response comes.
-/

/-- The parameters kept for a call, and the number of the call, which no function reads. -/
structure Parameters where
  values : List LuaValue
  call : Nat
deriving Repr, DecidableEq

/-- `AsyncManager`.  The keys of `m_tbSquence` are sequence ids as `tostring` writes them. -/
structure AsyncManager where
  squence : String → Option Parameters
  squenceIdToTableName : Nat → Option DbTable
  squenceId : Nat

namespace AsyncManager

/-- `tostring` of a sequence id. -/
def key (nSquenceId : Nat) : String := (LuaValue.number nSquenceId).tostring

/-- Different sequence ids have different keys. -/
theorem key_inj {m n : Nat} : key m = key n ↔ m = n :=
  LuaValue.tostring_number_inj.trans Int.ofNat_inj

/-- `ctor`. -/
def ctor : AsyncManager where
  squence _ := none
  squenceIdToTableName _ := none
  squenceId := 1

variable (async : AsyncManager)

def incrementSquenceId : AsyncManager :=
  let nTempId := (async.squenceId + 1) % 10000000
  { async with squenceId := if nTempId = 0 then 1 else nTempId }

def getSquenceIdToTableName (nSquenceId : Nat) : Option DbTable := async.squenceIdToTableName nSquenceId

def setSquenceIdToTableName (nSquenceId : Nat) (strTableName : DbTable) : AsyncManager :=
  { async with
    squenceIdToTableName := Function.update async.squenceIdToTableName nSquenceId (some strTableName) }

def setSquenceIdToTableNameNil (nSquenceId : Nat) : AsyncManager :=
  match async.squenceIdToTableName nSquenceId with
  | some _ => { async with squenceIdToTableName := Function.update async.squenceIdToTableName nSquenceId none }
  | none => async

def push (tbParameters : Parameters) : Nat × AsyncManager :=
  (async.squenceId,
    incrementSquenceId
      { async with squence := Function.update async.squence (key async.squenceId) (some tbParameters) })

/-- `SetParameter`; no parameters are an empty table. -/
def setParameter (tbParameters : Parameters) (strTableName : DbTable) : Nat × AsyncManager :=
  let (nSquenceId, async) := async.push tbParameters
  (nSquenceId, async.setSquenceIdToTableName nSquenceId strTableName)

/-- `Pop`, for a number. -/
def pop (nSquenceId : Nat) : Option Parameters × AsyncManager :=
  (async.squence (key nSquenceId),
    { async with squence := Function.update async.squence (key nSquenceId) none })

end AsyncManager

/-! ## Arguments

What a script may pass as a key or a value, and what becomes of it on the way to a C string.
-/

/-- A key or a value that a script passes, with numbers of type `ν` and tables of type `τ`. -/
inductive LuaArg (ν τ : Type) where
  | string (s : Bytes)
  | number (x : ν)
  | table (t : τ)
deriving DecidableEq

/-- How numbers and tables are written: `tostring` of a number, which `lua_tostring` writes as well; what
`tostring` writes behind `table: `; and `json.encode`. -/
structure LuaText (ν τ : Type) where
  number : ν → Bytes
  address : τ → Bytes
  encode : τ → Bytes

variable {ν τ : Type} (text : LuaText ν τ)

/-- What `tostring` writes before the address of a table. -/
def tablePrefix : Bytes := [116, 97, 98, 108, 101, 58, space]

/-- `tostring`. -/
def LuaArg.tostring : LuaArg ν τ → Bytes
  | .string s => s
  | .number x => text.number x
  | .table t => tablePrefix ++ text.address t

/-- What the wrappers make of a key or a value: numbers by `tostring`, tables by `json.encode`. -/
def LuaArg.convert : LuaArg ν τ → Bytes
  | .string s => s
  | .number x => text.number x
  | .table t => text.encode t

/-- `lua_tostring`, which has no string for a table. -/
def LuaArg.toCString : LuaArg ν τ → Option Bytes
  | .string s => some (cString s)
  | .number x => some (cString (text.number x))
  | .table _ => none

/-- The bytes of an ASCII string. -/
def ascii (s : String) : Bytes := s.toList.map fun c => UInt8.ofNat c.toNat

/-- Numbers as `tostring` writes them; an empty table is the only one. -/
def plainText : LuaText Int Unit where
  number n := ascii n.repr
  address _ := ascii "0x1"
  encode _ := ascii "[]"

/-- `DATABASE_TABLE_NAME`. -/
def tableName : DbTable → Bytes
  | .global => ascii "global"
  | .account => ascii "account"
  | .register => ascii "register"
  | .gameData => ascii "gamedata"

/-! ## The C bindings

Each binding reads its arguments from the Lua stack, and fails for what is no string.
-/

/-- What a binding did: nothing but a line on the console; the process ended, since a `std::string` was made
of a null pointer; or a request was pushed. -/
inductive Binding where
  | dropped
  | crashed
  | pushed (request : Request)
deriving DecidableEq

/-- An argument of a binding. -/
inductive BindingArg (ν τ : Type) where
  | id (n : Nat)
  | value (v : LuaArg ν τ)

/-- `lua_tonumber`, converted to `unsigned int`; scripts pass whole numbers in the places it is used for. -/
def BindingArg.toUInt : BindingArg ν τ → UInt32
  | .id n => UInt32.ofNat n
  | .value _ => 0

def BindingArg.toCString : BindingArg ν τ → Option Bytes
  | .id n => some (ascii n.repr)
  | .value v => v.toCString text

variable (fresh : RequestHead)

/-- `PushRedisSet`. -/
def pushRedisSet : List (BindingArg ν τ) → Binding
  | [uUserId, uEventType, szTableName, szKey, szValue] =>
      match szTableName.toCString text, szKey.toCString text, szValue.toCString text with
      | some szTableName, some szKey, some szValue =>
          .pushed (setBufferHead (createSetBuffer fresh szTableName szKey szValue) uUserId.toUInt
            uEventType.toUInt)
      | _, _, _ => .crashed
  | _ => .dropped

/-- `PushRedisGet`. -/
def pushRedisGet : List (BindingArg ν τ) → Binding
  | [uSquenceId, uUserId, uEventType, szTableName, szKey] =>
      match szTableName.toCString text, szKey.toCString text with
      | some szTableName, some szKey =>
          .pushed (setBufferHeadSquence (createGetBuffer fresh szTableName szKey) uUserId.toUInt
            uEventType.toUInt uSquenceId.toUInt)
      | _, _ => .crashed
  | _ => .dropped

/-- `PushRedisGets`. -/
def pushRedisGets : List (BindingArg ν τ) → Binding
  | [uSquenceId, uUserId, uEventType, szKeys] =>
      match szKeys.toCString text with
      | some szKeys =>
          .pushed (setBufferHeadSquence (createGetsBuffer fresh szKeys) uUserId.toUInt uEventType.toUInt
            uSquenceId.toUInt)
      | none => .crashed
  | _ => .dropped

/-- `PushRedisDel`, which no script calls. -/
def pushRedisDel : List (BindingArg ν τ) → Binding
  | [uUserId, uEventType, szTableName, szKey] =>
      match szTableName.toCString text, szKey.toCString text with
      | some szTableName, some szKey =>
          .pushed (setBufferHead (createDelBuffer fresh szTableName szKey) uUserId.toUInt uEventType.toUInt)
      | _, _ => .crashed
  | _ => .dropped

/-! ## The wrappers

The four functions that scripts call.
-/

/-- `%s` in `string.format`: a short string is copied as a C string. -/
def formatString (s : Bytes) : Bytes := if 100 ≤ s.length then s else cString s

/-- `strKeys` of `MGetValue`, when it is `strKeys` before the loop comes to `tbKeys`. -/
def moreKeys (strTableName : Bytes) (strKeys : Bytes) : List (LuaArg ν τ) → Bytes
  | [] => strKeys
  | strKey :: tbKeys =>
      moreKeys strTableName
        (formatString strKeys ++ space :: formatString strTableName ++
          underlined :: formatString (strKey.tostring text))
        tbKeys

/-- `strKeys` of `MGetValue`. -/
def joinKeys (strTableName : Bytes) : List (LuaArg ν τ) → Bytes
  | [] => []
  | strKey :: tbKeys =>
      moreKeys text strTableName
        (formatString strTableName ++ underlined :: formatString (strKey.tostring text)) tbKeys

namespace RedisInterface

variable (table : DbTable) (async : AsyncManager)

def getValue (nUserId nEventType : Nat) (strKey : LuaArg ν τ) (tbParameters : Parameters) :
    AsyncManager × Binding :=
  let (nAsyncSquenceId, async) := async.setParameter tbParameters table
  (async, pushRedisGet text fresh [.id nAsyncSquenceId, .id nUserId, .id nEventType,
    .value (.string (tableName table)), .value (.string (strKey.convert text))])

/-- `MGetValue`; for no keys it returns without asking. -/
def mGetValue (nUserId nEventType : Nat) (tbKeys : List (LuaArg ν τ)) (tbParameters : Parameters) :
    AsyncManager × Option Binding :=
  if tbKeys.length ≤ 0 then
    (async, none)
  else
    let (nAsyncSquenceId, async) := async.setParameter tbParameters table
    (async, some (pushRedisGets text fresh [.id nAsyncSquenceId, .id nUserId, .id nEventType,
      .value (.string (joinKeys text (tableName table) tbKeys))]))

/-- `SetValue`; the key is passed on as it is.  The call gets an empty table of parameters. -/
def setValue (nUserId nEventType : Nat) (strKey strValue : LuaArg ν τ) (call : Nat) :
    AsyncManager × Binding :=
  let (_, async) := async.setParameter ⟨[], call⟩ table
  (async, pushRedisSet text fresh [.id nUserId, .id nEventType, .value (.string (tableName table)),
    .value strKey, .value (.string (strValue.convert text))])

/-- `DeleteValue`, which calls `PushRedisGet` and not `PushRedisDel`. -/
def deleteValue (nUserId nEventType : Nat) (strKey : LuaArg ν τ) (call : Nat) : AsyncManager × Binding :=
  let (_, async) := async.setParameter ⟨[], call⟩ table
  (async, pushRedisGet text fresh [.id nUserId, .id nEventType, .value (.string (tableName table)),
    .value (.string (strKey.convert text))])

end RedisInterface

/-! ## Calls

One call, from the arguments of the script to the request that is pushed.
-/

inductive DbOperation (ν τ : Type) where
  | set (key value : LuaArg ν τ)
  | get (key : LuaArg ν τ)
  | delete (key : LuaArg ν τ)
  | mget (keys : List (LuaArg ν τ))
deriving DecidableEq

/-- A call of one of the four functions, and what stands in the new buffer. -/
structure DbCall (ν τ : Type) where
  table : DbTable
  operation : DbOperation ν τ
  nUserId : Nat
  nEventType : Nat
  tbParameters : List LuaValue
  fresh : RequestHead

/-- The call with the given number, up to its binding. -/
def DbCall.issue (c : DbCall ν τ) (call : Nat) (async : AsyncManager) : AsyncManager × Option Binding :=
  match c.operation with
  | .set key value =>
      let (async, binding) := RedisInterface.setValue text c.fresh c.table async c.nUserId c.nEventType key
        value call
      (async, some binding)
  | .get key =>
      let (async, binding) := RedisInterface.getValue text c.fresh c.table async c.nUserId c.nEventType key
        ⟨c.tbParameters, call⟩
      (async, some binding)
  | .delete key =>
      let (async, binding) := RedisInterface.deleteValue text c.fresh c.table async c.nUserId c.nEventType
        key call
      (async, some binding)
  | .mget keys =>
      RedisInterface.mGetValue text c.fresh c.table async c.nUserId c.nEventType keys ⟨c.tbParameters, call⟩

section Issue

variable {text} {c : DbCall ν τ} (call : Nat) (async : AsyncManager)

theorem DbCall.issue_get {key : LuaArg ν τ} (operation : c.operation = .get key) :
    c.issue text call async = ((async.setParameter ⟨c.tbParameters, call⟩ c.table).2,
      some (.pushed (setBufferHeadSquence
        (createGetBuffer c.fresh (cString (tableName c.table)) (cString (key.convert text)))
        (UInt32.ofNat c.nUserId) (UInt32.ofNat c.nEventType) (UInt32.ofNat async.squenceId)))) := by
  simp only [DbCall.issue, operation]
  rfl

theorem DbCall.issue_mget {keys : List (LuaArg ν τ)} (operation : c.operation = .mget keys)
    (some_key : keys ≠ []) :
    c.issue text call async = ((async.setParameter ⟨c.tbParameters, call⟩ c.table).2,
      some (.pushed (setBufferHeadSquence
        (createGetsBuffer c.fresh (cString (joinKeys text (tableName c.table) keys)))
        (UInt32.ofNat c.nUserId) (UInt32.ofNat c.nEventType) (UInt32.ofNat async.squenceId)))) := by
  have length : ¬ keys.length ≤ 0 := fun none => some_key (List.length_eq_zero_iff.mp (Nat.le_zero.mp none))
  simp only [DbCall.issue, operation, RedisInterface.mGetValue, if_neg length]
  rfl

/-- For no keys nothing is asked. -/
theorem DbCall.issue_mget_nil (operation : c.operation = .mget []) :
    c.issue text call async = (async, none) := by
  simp [DbCall.issue, operation, RedisInterface.mGetValue]

theorem DbCall.issue_set {key value : LuaArg ν τ} (operation : c.operation = .set key value) :
    c.issue text call async = ((async.setParameter ⟨[], call⟩ c.table).2,
      some (match key.toCString text with
        | some szKey => .pushed (setBufferHead
            (createSetBuffer c.fresh (cString (tableName c.table)) szKey (cString (value.convert text)))
            (UInt32.ofNat c.nUserId) (UInt32.ofNat c.nEventType))
        | none => .crashed)) := by
  simp only [DbCall.issue, operation]
  cases key <;> rfl

end Issue

end GameServer.Db
