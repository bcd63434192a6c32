/-
Module: GameServer.Db.Buffers
Purpose: Requests to the Redis worker as the C bindings build them, the commands the worker makes of them,
  and what the scripts get back.
Trusted boundary: a buffer holds what was written into it, also behind its end; bytes of a new buffer that
  nobody has written are a parameter; Redis executes `set`, `get`, `mget` and `del` on a map
Main exports: Request, RedisCommand, onRequest, redis, Response, generateRespond, onDBResponse
-/
import Mathlib

namespace GameServer.Db

/-- A Lua string, or a piece of memory. -/
abbrev Bytes := List UInt8

/-- The C string that starts where the bytes start. -/
def cString (s : Bytes) : Bytes := s.takeWhile (· != 0)

/-- `REQUEST_KEY_UNDERLINED`. -/
def underlined : UInt8 := 95

def space : UInt8 := 32

def percent : UInt8 := 37

/-! ## Requests

The four kinds of requests, with what their builders put into them: strings are C strings, cut at their first NUL.
-/

/-- The fields of `KREQUEST_HEAD` that are read. -/
structure RequestHead where
  uUserId : UInt32
  uEventType : UInt32
  uSquenceId : UInt32
deriving Repr, DecidableEq

/-- `KREQUEST_SET`, `KREQUEST_GET`, `KREQUEST_GETS` and `KREQUEST_DEL`. -/
inductive Request where
  | set (head : RequestHead) (uPrefixLen uKeyLen uValueLen : UInt32) (data : Bytes)
  | get (head : RequestHead) (uPrefixLen uKeyLen : UInt32) (data : Bytes)
  | gets (head : RequestHead) (uHashKeyLen : UInt32) (data : Bytes)
  | del (head : RequestHead) (uPrefixLen uKeyLen : UInt32) (data : Bytes)
deriving DecidableEq

def Request.head : Request → RequestHead
  | .set head _ _ _ _ => head
  | .get head _ _ _ => head
  | .gets head _ _ => head
  | .del head _ _ _ => head

/-- `DB_CreateSetBuffer`.  The head is as it was in the new buffer. -/
def createSetBuffer (fresh : RequestHead) (szTable szKey szValue : Bytes) : Request :=
  .set fresh (UInt32.ofNat szTable.length) (UInt32.ofNat szKey.length) (UInt32.ofNat szValue.length)
    (szTable ++ underlined :: szKey ++ szValue)

/-- `DB_CreateGetBuffer`. -/
def createGetBuffer (fresh : RequestHead) (szTable szKey : Bytes) : Request :=
  .get fresh (UInt32.ofNat szTable.length) (UInt32.ofNat szKey.length) (szTable ++ underlined :: szKey)

/-- `DB_CreateGetsBuffer`. -/
def createGetsBuffer (fresh : RequestHead) (szKeys : Bytes) : Request :=
  .gets fresh (UInt32.ofNat szKeys.length) szKeys

/-- `DB_CreateDelBuffer`. -/
def createDelBuffer (fresh : RequestHead) (szTable szKey : Bytes) : Request :=
  .del fresh (UInt32.ofNat szTable.length) (UInt32.ofNat szKey.length) (szTable ++ underlined :: szKey)

def Request.withHead (request : Request) (head : RequestHead) : Request :=
  match request with
  | .set _ uPrefixLen uKeyLen uValueLen data => .set head uPrefixLen uKeyLen uValueLen data
  | .get _ uPrefixLen uKeyLen data => .get head uPrefixLen uKeyLen data
  | .gets _ uHashKeyLen data => .gets head uHashKeyLen data
  | .del _ uPrefixLen uKeyLen data => .del head uPrefixLen uKeyLen data

/-- `DB_SetBufferHead` with three arguments leaves the sequence id of the head alone. -/
def setBufferHead (pBuffer : Request) (uUserId uEventType : UInt32) : Request :=
  pBuffer.withHead { pBuffer.head with uUserId := uUserId, uEventType := uEventType }

/-- `DB_SetBufferHead` with four arguments. -/
def setBufferHeadSquence (pBuffer : Request) (uUserId uEventType uSquenceId : UInt32) : Request :=
  pBuffer.withHead ⟨uUserId, uEventType, uSquenceId⟩

@[simp] theorem head_withHead (request : Request) (head : RequestHead) :
    (request.withHead head).head = head := by
  cases request <;> rfl

/-! ## Commands

The command a worker sends, formatted as hiredis does it.
-/

inductive RedisCommand where
  | set (key value : Bytes)
  | get (key : Bytes)
  | mget (keys : List Bytes)
  | del (key : Bytes)
deriving Repr, DecidableEq

/-- `redisvFormatCommand` without arguments behind the format: the words of the command.  Conversions other
than `%%` take an argument that is not there, or are refused. -/
def formatCommand : Bytes → (curarg : Bytes) → (touched : Bool) → Option (List Bytes)
  | [], curarg, touched => some (if touched then [curarg] else [])
  | c :: rest, curarg, touched =>
      if c = percent ∧ rest ≠ [] then
        match rest with
        | c' :: rest' => if c' = percent then formatCommand rest' (curarg ++ [percent]) true else none
        | [] => none
      else if c = space then
        if touched then (formatCommand rest [] false).map (curarg :: ·) else formatCommand rest curarg false
      else
        formatCommand rest (curarg ++ [c]) true

theorem formatCommand_char {c : UInt8} {rest : Bytes} (notPercent : c ≠ percent ∨ rest = [])
    (notSpace : c ≠ space) (curarg : Bytes) (touched : Bool) :
    formatCommand (c :: rest) curarg touched = formatCommand rest (curarg ++ [c]) true := by
  have copied : ¬ (c = percent ∧ rest ≠ []) := fun h => notPercent.elim (· h.1) h.2
  rw [formatCommand.eq_def]
  simp only [if_neg copied, if_neg notSpace]

@[simp] theorem formatCommand_space (rest curarg : Bytes) :
    formatCommand (space :: rest) curarg true = (formatCommand rest [] false).map (curarg :: ·) := by
  have notPercent : ¬ (space = percent ∧ rest ≠ []) := fun h => absurd h.1 (by decide)
  rw [formatCommand.eq_def]
  simp only [if_neg notPercent, if_true]

/-- The command that `OnRequestSet`, `OnRequestGet`, `OnRequestGets` and `OnRequestDel` send. -/
def onRequest : Request → Option RedisCommand
  | .set _ uPrefixLen uKeyLen uValueLen data =>
      let uSetKeyLen := uPrefixLen.toNat + uKeyLen.toNat + 1
      some (.set (data.take uSetKeyLen) ((data.drop uSetKeyLen).take uValueLen.toNat))
  | .get _ uPrefixLen uKeyLen data => some (.get (data.take (uPrefixLen.toNat + uKeyLen.toNat + 1)))
  | .gets _ uHashKeyLen data =>
      -- the words stand behind `mget `
      (formatCommand (data.take uHashKeyLen.toNat) [] false).map .mget
  | .del _ uPrefixLen uKeyLen data => some (.del (data.take (uPrefixLen.toNat + uKeyLen.toNat + 1)))

/-! ## Redis

The part of Redis that the four commands use.
-/

/-- What is stored under the keys. -/
abbrev Store := Bytes → Option Bytes

inductive RedisReply where
  | status (str : Bytes)
  | integer
  | bulk (str : Option Bytes)
  | array (elements : List (Option Bytes))
deriving Repr, DecidableEq

/-- `OK`. -/
def okStatus : Bytes := [79, 75]

/-- Redis executes a command. -/
def redis (store : Store) : RedisCommand → Store × RedisReply
  | .set key value => (Function.update store key (some value), .status okStatus)
  | .get key => (store, .bulk (store key))
  | .mget keys => (store, .array (keys.map store))
  | .del key => (Function.update store key none, .integer)

/-! ## Responses -/

/-- `KRESOOND_COMMON` and `KP_DBRESPOND_MULTI_DATA`.  Lengths are `int`. -/
inductive Response where
  | common (head : RequestHead) (nDataLen : Int32) (data : Bytes)
  | multi (head : RequestHead) (nValueLen : List Int32) (data : Bytes)
deriving DecidableEq

def Response.head : Response → RequestHead
  | .common head _ _ => head
  | .multi head _ _ => head

/-- `GenCommonRespond` and `DB_SetCommonHead`, or `_GenMultiDataNetRespond` and `DB_SetMulDataHead`: the
response has the head of the request.  There is none for a `del`. -/
def generateRespond (head : RequestHead) : RedisReply → Option Response
  | .status str => some (.common head (Int32.ofNat str.length) str)
  | .integer => none
  | .bulk str => some (.common head (Int32.ofNat (str.getD []).length) (str.getD []))
  | .array elements =>
      some (.multi head (elements.map fun e => e.elim (-1) fun str => Int32.ofNat str.length)
        (elements.flatMap fun e => e.getD []))

/-- What reaches the scripts: the string of `OnRedisRespone`, or the table of
`OnRedisMulDataRespone`. -/
inductive ResponseData where
  | text (strRepsonseJson : Bytes)
  | mulData (tbMulData : List Bytes)
deriving Repr, DecidableEq

/-- The loop of `RedisCallLua`.  A negative length becomes a huge one, and the process ends. -/
def pushMulData : List Int32 → Bytes → Option (List Bytes)
  | [], _ => some []
  | n :: nValueLen, szData =>
      if n < 0 then none
      else (pushMulData nValueLen (szData.drop n.toNatClampNeg)).map (szData.take n.toNatClampNeg :: ·)

/-- `OnDBResponse` and `RedisCallLua`; `none` when the process ends. -/
def onDBResponse : Response → Option ResponseData
  | .common _ nDataLen data => some (.text (cString (data.take nDataLen.toNatClampNeg)))
  | .multi _ nValueLen data => (pushMulData nValueLen data).map .mulData

end GameServer.Db
