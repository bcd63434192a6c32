/-
Module: GameServer.Db.RequestBuffers
Purpose: The requests that the drivers build in buffers of a requested size, what both workers read out of them, and
  how far they write and copy.
Trusted boundary: 64-bit layout of the request structures
Main exports: Request.create, KRedisClient.onRequest, KMysqlClient.onRequest, insideBuffers_iff, requests_decode
-/
import GameServer.Db.Mirror

namespace GameServer.Db.Requests

open Lib
open Mirror hiding createSetBuffer createDelBuffer

/-! ## Layout

The structures of the requests, which end with the strings.
-/

/-- `KREQUEST_HGET`; `KREQUEST_HDEL` is the same. -/
def kRequestHGet : List Nat := kRequestHead ++ [8, 4, 4, 1]

def kRequestGets : List Nat := kRequestHead ++ [8, 4, 4, 1]

namespace HSetField

def uTableNameLen : Nat := offsetof kRequestHSet 13

def uHashKeyLen : Nat := offsetof kRequestHSet 14

def uValueLen : Nat := offsetof kRequestHSet 15

def data : Nat := offsetof kRequestHSet 16

end HSetField

namespace HGetField

def bAllowRedisNil : Nat := offsetof kRequestHGet 8

def uTableNameLen : Nat := offsetof kRequestHGet 13

def uHashKeyLen : Nat := offsetof kRequestHGet 14

def data : Nat := offsetof kRequestHGet 15

end HGetField

namespace GetsField

def uHashKeyLen : Nat := offsetof kRequestGets 13

def data : Nat := offsetof kRequestGets 15

end GetsField

def emRequestGet : UInt8 := 1

def emRequestHSet : UInt8 := 2

def emRequestHGet : UInt8 := 3

def emRequestGets : UInt8 := 5

def emRequestHDel : UInt8 := 11

/-! ## Building requests

Each builder asks for a size and then copies its strings, one behind the other.
-/

/-- A buffer of `DB_MemoryCreateBuffer`: the size it was asked for, and the copies that are made to it. -/
structure RequestBuffer where
  uSize : Nat
  copies : List (Nat × Bytes)
deriving Repr, DecidableEq

/-- The conversion to `int` of the sizes that are asked for, which are then taken as `unsigned int`. -/
def bufferSize (size : Nat) : Nat := size % 2 ^ 32

/-- `DB_CreateSetBuffer`. -/
def createSetBuffer (szTable szKey szValue : Bytes) : RequestBuffer where
  uSize := bufferSize (sizeof kRequestSet + szKey.length + szValue.length)
  copies :=
    [(SetField.uPrefixLen, leBytes 4 szTable.length), (SetField.uKeyLen, leBytes 4 szKey.length),
      (SetField.uValueLen, leBytes 4 szValue.length), (0, [emRequestSet]), (SetField.data, szTable),
      (SetField.data + szTable.length, [underlined]), (SetField.data + szTable.length + 1, szKey),
      (SetField.data + szTable.length + szKey.length + 1, szValue)]

/-- `DB_CreateGetBuffer`; `KREQUEST_GET` and `KREQUEST_DEL` are the same. -/
def createGetBuffer (szTable szKey : Bytes) : RequestBuffer where
  uSize := bufferSize (sizeof kRequestDel + szKey.length)
  copies :=
    [(DelField.uPrefixLen, leBytes 4 szTable.length), (DelField.uKeyLen, leBytes 4 szKey.length), (0, [emRequestGet]),
      (DelField.data, szTable), (DelField.data + szTable.length, [underlined]),
      (DelField.data + szTable.length + 1, szKey)]

/-- `DB_CreateGetsBuffer`; `nCount` is not written. -/
def createGetsBuffer (szKeys : Bytes) : RequestBuffer where
  uSize := bufferSize (sizeof kRequestGets + szKeys.length)
  copies :=
    [(GetsField.uHashKeyLen, leBytes 4 szKeys.length), (0, [emRequestGets]), (GetsField.data, szKeys),
      (GetsField.data + (szKeys.length + 1), [0])]

/-- `DB_CreateHSetBuffer`. -/
def createHSetBuffer (szKey szField szValue : Bytes) : RequestBuffer where
  uSize := bufferSize (sizeof kRequestHSet + szKey.length + szField.length + szValue.length)
  copies :=
    [(0, [emRequestHSet]), (HSetField.uTableNameLen, leBytes 4 szKey.length),
      (HSetField.uHashKeyLen, leBytes 4 szField.length), (HSetField.uValueLen, leBytes 4 szValue.length),
      (HSetField.data, szKey), (HSetField.data + szKey.length, szField),
      (HSetField.data + szKey.length + szField.length, szValue)]

/-- `DB_CreateHgetBuffer`. -/
def createHgetBuffer (szKey szField : Bytes) : RequestBuffer where
  uSize := bufferSize (sizeof kRequestHGet + szKey.length + szField.length)
  copies :=
    [(HGetField.bAllowRedisNil, [0]), (0, [emRequestHGet]), (HGetField.uTableNameLen, leBytes 4 szKey.length),
      (HGetField.uHashKeyLen, leBytes 4 szField.length), (HGetField.data, szKey),
      (HGetField.data + szKey.length, szField)]

/-- `DB_CreateDelBuffer`. -/
def createDelBuffer (szTable szKey : Bytes) : RequestBuffer where
  uSize := bufferSize (sizeof kRequestDel + szKey.length)
  copies :=
    [(DelField.uPrefixLen, leBytes 4 szTable.length), (DelField.uKeyLen, leBytes 4 szKey.length), (0, [emRequestDel]),
      (DelField.data, szTable), (DelField.data + szTable.length, [underlined]),
      (DelField.data + szTable.length + 1, szKey)]

/-- `DB_CreateHdelBuffer`. -/
def createHdelBuffer (szTable szKey : Bytes) : RequestBuffer where
  uSize := bufferSize (sizeof kRequestHGet + szTable.length + szKey.length)
  copies :=
    [(HGetField.bAllowRedisNil, [0]), (0, [emRequestHDel]), (HGetField.uTableNameLen, leBytes 4 szTable.length),
      (HGetField.uHashKeyLen, leBytes 4 szKey.length), (HGetField.data, szTable),
      (HGetField.data + szTable.length, szKey)]

/-- What is asked of the databases. -/
inductive Request where
  | set (szTable szKey szValue : Bytes)
  | get (szTable szKey : Bytes)
  | hset (szKey szField szValue : Bytes)
  | hget (szKey szField : Bytes)
  | del (szTable szKey : Bytes)
  | hdel (szTable szKey : Bytes)
deriving Repr, DecidableEq

namespace Request

/-- The function that builds it. -/
def create : Request → RequestBuffer
  | set szTable szKey szValue => createSetBuffer szTable szKey szValue
  | get szTable szKey => createGetBuffer szTable szKey
  | hset szKey szField szValue => createHSetBuffer szKey szField szValue
  | hget szKey szField => createHgetBuffer szKey szField
  | del szTable szKey => createDelBuffer szTable szKey
  | hdel szTable szKey => createHdelBuffer szTable szKey

/-- The request in memory, its size left aside. -/
def memory (fresh : Memory) (request : Request) : Memory := writeAll fresh request.create.copies

end Request

/-! ## The Redis worker

What the Redis worker reads of a request, and the size of the copy that it makes for MySQL.
-/

/-- A format for `RedisCommand`, and the bytes for its `%b`. -/
structure RedisCall where
  cmd : String
  args : List Bytes
deriving Repr, DecidableEq

namespace KRedisClient

/-- The call of `OnRequestSet`, and the size of the copy for MySQL. -/
def onRequestSet (pRequestSet : Memory) : RedisCall × Option Nat :=
  let uPrefixLen := readUint32 pRequestSet SetField.uPrefixLen
  let uKeyLen := readUint32 pRequestSet SetField.uKeyLen
  let uValueLen := readUint32 pRequestSet SetField.uValueLen
  let uSetKeyLen := uPrefixLen + uKeyLen + 1
  (⟨"set %b %b",
      [read pRequestSet SetField.data uSetKeyLen, read pRequestSet (SetField.data + uSetKeyLen) uValueLen]⟩,
    some (bufferSize (sizeof kRequestHSet + uSetKeyLen + uValueLen)))

def onRequestGet (pRequestGet : Memory) : RedisCall × Option Nat :=
  let uPrefixLen := readUint32 pRequestGet DelField.uPrefixLen
  let uKeyLen := readUint32 pRequestGet DelField.uKeyLen
  let uGetKeyLen := uPrefixLen + uKeyLen + 1
  (⟨"get %b", [read pRequestGet DelField.data uGetKeyLen]⟩, none)

def onRequestHSet (pRequestHSet : Memory) : RedisCall × Option Nat :=
  let uTableNameLen := readUint32 pRequestHSet HSetField.uTableNameLen
  let uHashKeyLen := readUint32 pRequestHSet HSetField.uHashKeyLen
  let uValueLen := readUint32 pRequestHSet HSetField.uValueLen
  (⟨"hset %b %b %b",
      [read pRequestHSet HSetField.data uTableNameLen,
        read pRequestHSet (HSetField.data + uTableNameLen) uHashKeyLen,
        read pRequestHSet (HSetField.data + uTableNameLen + uHashKeyLen) uValueLen]⟩,
    some (bufferSize (sizeof kRequestHSet + uTableNameLen + uHashKeyLen + uValueLen)))

/-- The copy that is made where Redis has no value is asked of MySQL at once. -/
def onRequestHGet (pRequestHGet : Memory) : RedisCall × Option Nat :=
  let uTableNameLen := readUint32 pRequestHGet HGetField.uTableNameLen
  let uHashKeyLen := readUint32 pRequestHGet HGetField.uHashKeyLen
  (⟨"hget %b %b",
      [read pRequestHGet HGetField.data uTableNameLen,
        read pRequestHGet (HGetField.data + uTableNameLen) uHashKeyLen]⟩,
    none)

def onRequestDel (pRequestDel : Memory) : RedisCall × Option Nat :=
  let uPrefixLen := readUint32 pRequestDel DelField.uPrefixLen
  let uKeyLen := readUint32 pRequestDel DelField.uKeyLen
  let uDelKeyLen := uPrefixLen + uKeyLen + 1
  (⟨"del %b", [read pRequestDel DelField.data uDelKeyLen]⟩, some (bufferSize (sizeof kRequestDel + uDelKeyLen)))

def onRequestHDel (pRequestHDel : Memory) : RedisCall × Option Nat :=
  let uTableNameLen := readUint32 pRequestHDel HGetField.uTableNameLen
  let uHashKeyLen := readUint32 pRequestHDel HGetField.uHashKeyLen
  let uHDelKeyLen := uTableNameLen + uHashKeyLen
  (⟨"hdel %b %b",
      [read pRequestHDel HGetField.data uTableNameLen,
        read pRequestHDel (HGetField.data + uTableNameLen) uHashKeyLen]⟩,
    some (bufferSize (sizeof kRequestHGet + uHDelKeyLen)))

/-- `OnRequest` for the requests above: the call, and where it has a reply, the size of the copy for MySQL. -/
def onRequest (pRequest : Memory) : Option (RedisCall × Option Nat) :=
  let byType := pRequest 0
  if byType = emRequestSet then some (onRequestSet pRequest)
  else if byType = emRequestGet then some (onRequestGet pRequest)
  else if byType = emRequestHSet then some (onRequestHSet pRequest)
  else if byType = emRequestHGet then some (onRequestHGet pRequest)
  else if byType = emRequestDel then some (onRequestDel pRequest)
  else if byType = emRequestHDel then some (onRequestHDel pRequest)
  else none

/-- The buffer that is pushed for MySQL: `GetSize()` bytes of the request. -/
def mirror (fresh pRequest : Memory) (nSize : Nat) : Memory := write fresh 0 (read pRequest 0 nSize)

end KRedisClient

/-! ## The MySQL worker

What the MySQL worker reads of the copy.
-/

/-- `KTableName`. -/
structure KTableName where
  bGlobal : Bool
  name : Bytes
deriving Repr, DecidableEq

/-- What the handlers ask of the tables. -/
inductive TableCall where
  /-- `_RedisHashTableSet`. -/
  | set (sTablename : KTableName) (key data : Bytes)
  /-- `_RedisHashTableDelTest`. -/
  | del (sTablename : KTableName) (key : Bytes)
deriving Repr, DecidableEq

namespace KMysqlClient

def onRequestSet (pRequestSet : Memory) : TableCall :=
  let uPrefixLen := readUint32 pRequestSet SetField.uPrefixLen
  let uKeyLen := readUint32 pRequestSet SetField.uKeyLen
  let uValueLen := readUint32 pRequestSet SetField.uValueLen
  .set ⟨true, read pRequestSet SetField.data uPrefixLen⟩
    (read pRequestSet (SetField.data + uPrefixLen + 1) uKeyLen)
    (read pRequestSet (SetField.data + uPrefixLen + uKeyLen + 1) uValueLen)

def onRequestHSet (pRequestHSet : Memory) : TableCall :=
  let uTableNameLen := readUint32 pRequestHSet HSetField.uTableNameLen
  let uHashKeyLen := readUint32 pRequestHSet HSetField.uHashKeyLen
  let uValueLen := readUint32 pRequestHSet HSetField.uValueLen
  .set ⟨false, read pRequestHSet HSetField.data uTableNameLen⟩
    (read pRequestHSet (HSetField.data + uTableNameLen) uHashKeyLen)
    (read pRequestHSet (HSetField.data + uTableNameLen + uHashKeyLen) uValueLen)

def onRequestDel (pRequestDel : Memory) : TableCall :=
  let uPrefixLen := readUint32 pRequestDel DelField.uPrefixLen
  let uKeyLen := readUint32 pRequestDel DelField.uKeyLen
  .del ⟨true, read pRequestDel DelField.data uPrefixLen⟩ (read pRequestDel (DelField.data + uPrefixLen + 1) uKeyLen)

def onRequestHDel (pRequestHDel : Memory) : TableCall :=
  let uTableNameLen := readUint32 pRequestHDel HGetField.uTableNameLen
  let uHashKeyLen := readUint32 pRequestHDel HGetField.uHashKeyLen
  .del ⟨false, read pRequestHDel HGetField.data uTableNameLen⟩
    (read pRequestHDel (HGetField.data + uTableNameLen) uHashKeyLen)

/-- `OnRequest` for the requests that are pushed. -/
def onRequest (pRequest : Memory) : Option TableCall :=
  let byType := pRequest 0
  if byType = emRequestSet then some (onRequestSet pRequest)
  else if byType = emRequestHSet then some (onRequestHSet pRequest)
  else if byType = emRequestDel then some (onRequestDel pRequest)
  else if byType = emRequestHDel then some (onRequestHDel pRequest)
  else none

end KMysqlClient

/-! ## What a request holds

A request is found in memory as it was built, whatever bytes stood there before.
-/

/-- A type, lengths as far as their fields hold them, and the strings one behind another. -/
structure Encoded (mem : Memory) (byType : UInt8) (lengths : List (Nat × Nat)) (data : Nat) (parts : List Bytes) :
    Prop where
  type : mem 0 = byType
  length : ∀ field ∈ lengths, readUint32 mem field.1 = field.2 % 2 ^ 32
  payload : HoldsAt mem data parts

/-- Writing the fields and the strings leaves a request in memory. -/
theorem encoded_writeAll (fresh : Memory) {byType : UInt8} {fields : List (Nat × Bytes)} {lengths : List (Nat × Nat)}
    {data : Nat} {parts : List Bytes}
    (apart : fields.Pairwise fun copy later => Away later copy.1 copy.2.length)
    (before : ∀ copy ∈ fields, copy.1 + copy.2.length ≤ data) (typeField : (0, [byType]) ∈ fields)
    (lengthFields : ∀ field ∈ lengths, (field.1, leBytes 4 field.2) ∈ fields) :
    Encoded (writeAll fresh (fields ++ consecutive data parts)) byType lengths data parts where
  type := byte_of_read (read_field apart before typeField)
  length := by
    intro field member
    have bytes : read (writeAll fresh (fields ++ consecutive data parts)) field.1 (leBytes 4 field.2).length =
        leBytes 4 field.2 := read_field apart before (lengthFields field member)
    rw [leBytes_length] at bytes
    rw [readUint32, bytes]
    exact leValue_leBytes 4 field.2
  payload := by
    rw [writeAll_append]
    exact holdsAt_writeAll_consecutive _ _ _

namespace Request

def byType : Request → UInt8
  | set .. => emRequestSet
  | get .. => emRequestGet
  | hset .. => emRequestHSet
  | hget .. => emRequestHGet
  | del .. => emRequestDel
  | hdel .. => emRequestHDel

/-- Where the lengths of which strings are stored. -/
def lengths : Request → List (Nat × Nat)
  | set szTable szKey szValue =>
      [(SetField.uPrefixLen, szTable.length), (SetField.uKeyLen, szKey.length), (SetField.uValueLen, szValue.length)]
  | get szTable szKey | del szTable szKey =>
      [(DelField.uPrefixLen, szTable.length), (DelField.uKeyLen, szKey.length)]
  | hset szKey szField szValue =>
      [(HSetField.uTableNameLen, szKey.length), (HSetField.uHashKeyLen, szField.length),
        (HSetField.uValueLen, szValue.length)]
  | hget szKey szField | hdel szKey szField =>
      [(HGetField.uTableNameLen, szKey.length), (HGetField.uHashKeyLen, szField.length)]

/-- What is written in front of the strings. -/
def fields : Request → List (Nat × Bytes)
  | set szTable szKey szValue =>
      [(SetField.uPrefixLen, leBytes 4 szTable.length), (SetField.uKeyLen, leBytes 4 szKey.length),
        (SetField.uValueLen, leBytes 4 szValue.length), (0, [emRequestSet])]
  | get szTable szKey =>
      [(DelField.uPrefixLen, leBytes 4 szTable.length), (DelField.uKeyLen, leBytes 4 szKey.length),
        (0, [emRequestGet])]
  | hset szKey szField szValue =>
      [(0, [emRequestHSet]), (HSetField.uTableNameLen, leBytes 4 szKey.length),
        (HSetField.uHashKeyLen, leBytes 4 szField.length), (HSetField.uValueLen, leBytes 4 szValue.length)]
  | hget szKey szField =>
      [(HGetField.bAllowRedisNil, [0]), (0, [emRequestHGet]), (HGetField.uTableNameLen, leBytes 4 szKey.length),
        (HGetField.uHashKeyLen, leBytes 4 szField.length)]
  | del szTable szKey =>
      [(DelField.uPrefixLen, leBytes 4 szTable.length), (DelField.uKeyLen, leBytes 4 szKey.length),
        (0, [emRequestDel])]
  | hdel szTable szKey =>
      [(HGetField.bAllowRedisNil, [0]), (0, [emRequestHDel]), (HGetField.uTableNameLen, leBytes 4 szTable.length),
        (HGetField.uHashKeyLen, leBytes 4 szKey.length)]

/-- Where the strings start. -/
def data : Request → Nat
  | set .. => SetField.data
  | get .. | del .. => DelField.data
  | hset .. => HSetField.data
  | hget .. | hdel .. => HGetField.data

/-- The strings, with what separates them. -/
def payload : Request → List Bytes
  | set szTable szKey szValue => [szTable, [underlined], szKey, szValue]
  | get szTable szKey | del szTable szKey => [szTable, [underlined], szKey]
  | hset szKey szField szValue => [szKey, szField, szValue]
  | hget szKey szField | hdel szKey szField => [szKey, szField]

/-- The request in memory is found as what was asked for. -/
def IsIn (request : Request) (mem : Memory) : Prop :=
  Encoded mem request.byType request.lengths request.data request.payload

end Request

theorem setOffsets : SetField.uPrefixLen = 52 ∧ SetField.uKeyLen = 56 ∧ SetField.uValueLen = 60 ∧ SetField.data = 64 ∧
    sizeof kRequestSet = 72 := by decide

theorem hSetOffsets : HSetField.uTableNameLen = 48 ∧ HSetField.uHashKeyLen = 52 ∧ HSetField.uValueLen = 56 ∧
    HSetField.data = 60 ∧ sizeof kRequestHSet = 64 := by decide

theorem hGetOffsets : HGetField.bAllowRedisNil = 24 ∧ HGetField.uTableNameLen = 48 ∧ HGetField.uHashKeyLen = 52 ∧
    HGetField.data = 56 ∧ sizeof kRequestHGet = 64 := by decide

theorem getsOffsets : GetsField.uHashKeyLen = 48 ∧ GetsField.data = 56 ∧ sizeof kRequestGets = 64 := by decide

/-- The copies of a builder: first the fields, then the strings. -/
theorem copies_create (request : Request) :
    request.create.copies = request.fields ++ consecutive request.data request.payload := by
  cases request with
  | set szTable szKey szValue =>
      have value : SetField.data + szTable.length + szKey.length + 1 =
          SetField.data + szTable.length + 1 + szKey.length := by omega
      rw [Request.create, createSetBuffer, value]
      rfl
  | get szTable szKey => rfl
  | hset szKey szField szValue => rfl
  | hget szKey szField => rfl
  | del szTable szKey => rfl
  | hdel szTable szKey => rfl

/-- No field lies over another. -/
theorem fields_apart (request : Request) :
    request.fields.Pairwise fun copy later => Away later copy.1 copy.2.length := by
  obtain ⟨setPrefix, setKey, setValue, -, -⟩ := setOffsets
  obtain ⟨delPrefix, delKey, -, -⟩ := delLayout
  obtain ⟨hsetTable, hsetKey, hsetValue, -, -⟩ := hSetOffsets
  obtain ⟨hgetNil, hgetTable, hgetKey, -, -⟩ := hGetOffsets
  cases request <;> simp [Request.fields, Away, *]

theorem fields_before_data (request : Request) : ∀ copy ∈ request.fields, copy.1 + copy.2.length ≤ request.data := by
  obtain ⟨setPrefix, setKey, setValue, setData, -⟩ := setOffsets
  obtain ⟨delPrefix, delKey, delData, -⟩ := delLayout
  obtain ⟨hsetTable, hsetKey, hsetValue, hsetData, -⟩ := hSetOffsets
  obtain ⟨hgetNil, hgetTable, hgetKey, hgetData, -⟩ := hGetOffsets
  cases request <;> simp [Request.fields, Request.data, *]

theorem byType_mem_fields (request : Request) : (0, [request.byType]) ∈ request.fields := by
  cases request <;> simp [Request.fields, Request.byType]

theorem lengths_mem_fields (request : Request) :
    ∀ field ∈ request.lengths, (field.1, leBytes 4 field.2) ∈ request.fields := by
  cases request <;> simp [Request.fields, Request.lengths]

/-- Every builder leaves the request in the memory. -/
theorem isIn_memory (fresh : Memory) (request : Request) : request.IsIn (request.memory fresh) := by
  rw [Request.IsIn, Request.memory, copies_create]
  exact encoded_writeAll fresh (fields_apart request) (fields_before_data request) (byType_mem_fields request)
    (lengths_mem_fields request)

/-! ## What the workers make of it

Type, lengths and strings, read back from the memory of the request.
-/

namespace Request

/-- Every length fits its field. -/
def LengthsFit (request : Request) : Prop := ∀ field ∈ request.lengths, field.2 < 2 ^ 32

instance : DecidablePred LengthsFit := fun request => inferInstanceAs (Decidable (∀ field ∈ request.lengths, _))

/-- The call that was asked for. -/
def redisCall : Request → RedisCall
  | set szTable szKey szValue => ⟨"set %b %b", [redisKey szTable szKey, szValue]⟩
  | get szTable szKey => ⟨"get %b", [redisKey szTable szKey]⟩
  | hset szKey szField szValue => ⟨"hset %b %b %b", [szKey, szField, szValue]⟩
  | hget szKey szField => ⟨"hget %b %b", [szKey, szField]⟩
  | del szTable szKey => ⟨"del %b", [redisKey szTable szKey]⟩
  | hdel szTable szKey => ⟨"hdel %b %b", [szTable, szKey]⟩

/-- What the copy for MySQL takes, without overflow. -/
def mirrorSize : Request → Option Nat
  | set szTable szKey szValue => some (sizeof kRequestHSet + (szTable.length + szKey.length + 1) + szValue.length)
  | hset szKey szField szValue => some (sizeof kRequestHSet + szKey.length + szField.length + szValue.length)
  | del szTable szKey => some (sizeof kRequestDel + (szTable.length + szKey.length + 1))
  | hdel szTable szKey => some (sizeof kRequestHGet + (szTable.length + szKey.length))
  | get .. | hget .. => none

/-- The row that was asked for, of the requests that are copied for MySQL. -/
def tableCall : Request → Option TableCall
  | set szTable szKey szValue => some (.set ⟨true, szTable⟩ szKey szValue)
  | hset szKey szField szValue => some (.set ⟨false, szKey⟩ szField szValue)
  | del szTable szKey => some (.del ⟨true, szTable⟩ szKey)
  | hdel szTable szKey => some (.del ⟨false, szTable⟩ szKey)
  | get .. | hget .. => none

end Request

section Decoding

variable {mem : Memory} {szTable szKey szField szValue : Bytes}

/-- A length is read as it was written. -/
theorem Encoded.stored {byType : UInt8} {lengths : List (Nat × Nat)} {data : Nat} {parts : List Bytes}
    (encoded : Encoded mem byType lengths data parts) (fits : ∀ field ∈ lengths, field.2 < 2 ^ 32) {offset n : Nat}
    (member : (offset, n) ∈ lengths) : readUint32 mem offset = n := by
  rw [encoded.length _ member]
  exact Nat.mod_eq_of_lt (fits _ member)

/-- A table, a key behind the underscore, and both read as one. -/
structure KeyFound (mem : Memory) (uPrefixLen uKeyLen data : Nat) (szTable szKey : Bytes) : Prop where
  prefixLen : readUint32 mem uPrefixLen = szTable.length
  keyLen : readUint32 mem uKeyLen = szKey.length
  table : read mem data szTable.length = szTable
  key : read mem (data + szTable.length + 1) szKey.length = szKey
  joined : read mem data (szTable.length + szKey.length + 1) = redisKey szTable szKey

/-- The key behind its table. -/
theorem Encoded.keyFound {byType : UInt8} {uPrefixLen uKeyLen data : Nat} {lengths : List (Nat × Nat)}
    {parts : List Bytes}
    (encoded : Encoded mem byType ((uPrefixLen, szTable.length) :: (uKeyLen, szKey.length) :: lengths) data
      (szTable :: [underlined] :: szKey :: parts))
    (fits : ∀ field ∈ (uPrefixLen, szTable.length) :: (uKeyLen, szKey.length) :: lengths, field.2 < 2 ^ 32) :
    KeyFound mem uPrefixLen uKeyLen data szTable szKey := by
  obtain ⟨table, separator, key, -⟩ := encoded.payload
  rw [List.length_singleton] at key separator
  refine ⟨encoded.stored fits (by simp), encoded.stored fits (by simp), table, key, ?_⟩
  rw [read_redisKey table separator, key]

/-- The value of a SET request. -/
theorem setValue_found (isIn : (Request.set szTable szKey szValue).IsIn mem)
    (fits : (Request.set szTable szKey szValue).LengthsFit) :
    readUint32 mem SetField.uValueLen = szValue.length ∧
      read mem (SetField.data + szTable.length + szKey.length + 1) szValue.length = szValue := by
  have place : SetField.data + szTable.length + szKey.length + 1 =
      SetField.data + szTable.length + 1 + szKey.length := by omega
  rw [place]
  exact ⟨Encoded.stored isIn fits (by simp [Request.lengths]), isIn.payload.2.2.2.1⟩

/-- The strings of a hash request. -/
structure HashFound (mem : Memory) (uTableNameLen uHashKeyLen data : Nat) (szTable szKey : Bytes) : Prop where
  tableLen : readUint32 mem uTableNameLen = szTable.length
  keyLen : readUint32 mem uHashKeyLen = szKey.length
  table : read mem data szTable.length = szTable
  key : read mem (data + szTable.length) szKey.length = szKey

/-- The strings of a hash request. -/
theorem Encoded.hashFound {byType : UInt8} {uTableNameLen uHashKeyLen data : Nat} {lengths : List (Nat × Nat)}
    {parts : List Bytes}
    (encoded : Encoded mem byType ((uTableNameLen, szTable.length) :: (uHashKeyLen, szKey.length) :: lengths) data
      (szTable :: szKey :: parts))
    (fits : ∀ field ∈ (uTableNameLen, szTable.length) :: (uHashKeyLen, szKey.length) :: lengths, field.2 < 2 ^ 32) :
    HashFound mem uTableNameLen uHashKeyLen data szTable szKey := by
  obtain ⟨table, key, -⟩ := encoded.payload
  exact ⟨encoded.stored fits (by simp), encoded.stored fits (by simp), table, key⟩

/-- The value of an HSET request. -/
theorem hSetValue_found (isIn : (Request.hset szKey szField szValue).IsIn mem)
    (fits : (Request.hset szKey szField szValue).LengthsFit) :
    readUint32 mem HSetField.uValueLen = szValue.length ∧
      read mem (HSetField.data + szKey.length + szField.length) szValue.length = szValue :=
  ⟨Encoded.stored isIn fits (by simp [Request.lengths]), isIn.payload.2.2.1⟩

/-- The Redis worker calls for what was asked. -/
theorem redis_onRequest {request : Request} (isIn : request.IsIn mem) (fits : request.LengthsFit) :
    KRedisClient.onRequest mem = some (request.redisCall, request.mirrorSize.map bufferSize) := by
  have type := isIn.type
  cases request with
  | set szTable szKey szValue =>
      have handler : KRedisClient.onRequest mem = some (KRedisClient.onRequestSet mem) := by
        rw [KRedisClient.onRequest, type]
        rfl
      have found : KeyFound mem SetField.uPrefixLen SetField.uKeyLen SetField.data szTable szKey := isIn.keyFound fits
      obtain ⟨valueLen, value⟩ := setValue_found isIn fits
      rw [Nat.add_assoc, Nat.add_assoc, ← Nat.add_assoc szTable.length] at value
      rw [handler, KRedisClient.onRequestSet, found.prefixLen, found.keyLen, valueLen, found.joined, value]
      rfl
  | get szTable szKey =>
      have handler : KRedisClient.onRequest mem = some (KRedisClient.onRequestGet mem) := by
        rw [KRedisClient.onRequest, type]
        rfl
      have found : KeyFound mem DelField.uPrefixLen DelField.uKeyLen DelField.data szTable szKey := isIn.keyFound fits
      rw [handler, KRedisClient.onRequestGet, found.prefixLen, found.keyLen, found.joined]
      rfl
  | hset szKey szField szValue =>
      have handler : KRedisClient.onRequest mem = some (KRedisClient.onRequestHSet mem) := by
        rw [KRedisClient.onRequest, type]
        rfl
      have found : HashFound mem HSetField.uTableNameLen HSetField.uHashKeyLen HSetField.data szKey szField :=
        isIn.hashFound fits
      obtain ⟨valueLen, value⟩ := hSetValue_found isIn fits
      rw [handler, KRedisClient.onRequestHSet, found.tableLen, found.keyLen, valueLen, found.table, found.key, value]
      rfl
  | hget szKey szField =>
      have handler : KRedisClient.onRequest mem = some (KRedisClient.onRequestHGet mem) := by
        rw [KRedisClient.onRequest, type]
        rfl
      have found : HashFound mem HGetField.uTableNameLen HGetField.uHashKeyLen HGetField.data szKey szField :=
        isIn.hashFound fits
      rw [handler, KRedisClient.onRequestHGet, found.tableLen, found.keyLen, found.table, found.key]
      rfl
  | del szTable szKey =>
      have handler : KRedisClient.onRequest mem = some (KRedisClient.onRequestDel mem) := by
        rw [KRedisClient.onRequest, type]
        rfl
      have found : KeyFound mem DelField.uPrefixLen DelField.uKeyLen DelField.data szTable szKey := isIn.keyFound fits
      rw [handler, KRedisClient.onRequestDel, found.prefixLen, found.keyLen, found.joined]
      rfl
  | hdel szTable szKey =>
      have handler : KRedisClient.onRequest mem = some (KRedisClient.onRequestHDel mem) := by
        rw [KRedisClient.onRequest, type]
        rfl
      have found : HashFound mem HGetField.uTableNameLen HGetField.uHashKeyLen HGetField.data szTable szKey :=
        isIn.hashFound fits
      rw [handler, KRedisClient.onRequestHDel, found.tableLen, found.keyLen, found.table, found.key]
      rfl

/-- The MySQL worker takes the table, the key and the value that were asked for. -/
theorem mysql_onRequest {request : Request} {statement : TableCall} (isIn : request.IsIn mem)
    (fits : request.LengthsFit) (mirrored : request.tableCall = some statement) :
    KMysqlClient.onRequest mem = some statement := by
  have type := isIn.type
  rw [← mirrored]
  cases request with
  | set szTable szKey szValue =>
      have handler : KMysqlClient.onRequest mem = some (KMysqlClient.onRequestSet mem) := by
        rw [KMysqlClient.onRequest, type]
        rfl
      have found : KeyFound mem SetField.uPrefixLen SetField.uKeyLen SetField.data szTable szKey := isIn.keyFound fits
      obtain ⟨valueLen, value⟩ := setValue_found isIn fits
      rw [handler, KMysqlClient.onRequestSet, found.prefixLen, found.keyLen, valueLen, found.table, found.key, value]
      rfl
  | get szTable szKey => cases mirrored
  | hset szKey szField szValue =>
      have handler : KMysqlClient.onRequest mem = some (KMysqlClient.onRequestHSet mem) := by
        rw [KMysqlClient.onRequest, type]
        rfl
      have found : HashFound mem HSetField.uTableNameLen HSetField.uHashKeyLen HSetField.data szKey szField :=
        isIn.hashFound fits
      obtain ⟨valueLen, value⟩ := hSetValue_found isIn fits
      rw [handler, KMysqlClient.onRequestHSet, found.tableLen, found.keyLen, valueLen, found.table, found.key, value]
      rfl
  | hget szKey szField => cases mirrored
  | del szTable szKey =>
      have handler : KMysqlClient.onRequest mem = some (KMysqlClient.onRequestDel mem) := by
        rw [KMysqlClient.onRequest, type]
        rfl
      have found : KeyFound mem DelField.uPrefixLen DelField.uKeyLen DelField.data szTable szKey := isIn.keyFound fits
      rw [handler, KMysqlClient.onRequestDel, found.prefixLen, found.keyLen, found.table, found.key]
      rfl
  | hdel szTable szKey =>
      have handler : KMysqlClient.onRequest mem = some (KMysqlClient.onRequestHDel mem) := by
        rw [KMysqlClient.onRequest, type]
        rfl
      have found : HashFound mem HGetField.uTableNameLen HGetField.uHashKeyLen HGetField.data szTable szKey :=
        isIn.hashFound fits
      rw [handler, KMysqlClient.onRequestHDel, found.tableLen, found.keyLen, found.table, found.key]
      rfl

end Decoding

/-! ## Copies for MySQL

The copy is long enough for the strings, so what is read of it is what is read of the request.
-/

theorem Request.IsIn.mirror (fresh : Memory) {mem : Memory} {request : Request} {nSize : Nat} (isIn : request.IsIn mem)
    (inside : request.data + request.payload.flatten.length ≤ nSize) :
    request.IsIn (KRedisClient.mirror fresh mem nSize) where
  type := by
    have inFront : 0 + 1 ≤ request.data := fields_before_data request _ (byType_mem_fields request)
    have whole : 0 < nSize := by omega
    rw [← isIn.type]
    exact byte_copy fresh mem whole
  length := by
    intro field member
    have inFront := fields_before_data request _ (lengths_mem_fields request field member)
    rw [leBytes_length] at inFront
    have whole : field.1 + 4 ≤ nSize := Nat.le_trans inFront (by omega)
    rw [← isIn.length field member]
    exact readUint32_copy fresh mem whole
  payload := isIn.payload.copy fresh inside

theorem payload_le_mirrorSize {request : Request} {size : Nat} (mirrored : request.mirrorSize = some size) :
    request.data + request.payload.flatten.length ≤ size := by
  obtain ⟨-, -, -, setData, -⟩ := setOffsets
  obtain ⟨-, -, delData, delSize⟩ := delLayout
  obtain ⟨-, -, -, hsetData, hsetSize⟩ := hSetOffsets
  obtain ⟨-, -, -, hgetData, hgetSize⟩ := hGetOffsets
  cases request with
  | get szTable szKey => cases mirrored
  | hget szKey szField => cases mirrored
  | set szTable szKey szValue | hset szKey szField szValue | del szTable szKey | hdel szTable szKey =>
      have total := Option.some.inj mirrored
      simp [Request.data, Request.payload, *]
      omega

/-- Where every length fits its field, Redis is called with what was asked for; where the copy fits its size as well,
it holds all strings, and the MySQL worker reads the same table, key and value out of it. -/
theorem requests_decode (fresh freshCopy : Memory) {request : Request} (fits : request.LengthsFit) :
    KRedisClient.onRequest (request.memory fresh) = some (request.redisCall, request.mirrorSize.map bufferSize) ∧
      ∀ size statement, request.mirrorSize = some size → size < 2 ^ 32 → request.tableCall = some statement →
        request.data + request.payload.flatten.length ≤ bufferSize size ∧
          read (KRedisClient.mirror freshCopy (request.memory fresh) (bufferSize size)) request.data
            request.payload.flatten.length = request.payload.flatten ∧
          KMysqlClient.onRequest (KRedisClient.mirror freshCopy (request.memory fresh) (bufferSize size)) =
            some statement := by
  have isIn := isIn_memory fresh request
  refine ⟨redis_onRequest isIn fits, ?_⟩
  intro size statement mirrored small row
  have whole : bufferSize size = size := Nat.mod_eq_of_lt small
  have inside := payload_le_mirrorSize mirrored
  rw [whole]
  have copied := isIn.mirror freshCopy inside
  exact ⟨inside, copied.payload.read_flatten, mysql_onRequest copied fits row⟩

theorem requests_decode_example :
    KRedisClient.onRequest (Request.memory (fun _ => 7) (.set [103] [] [49, 0])) =
        some (⟨"set %b %b", [[103, 95], [49, 0]]⟩, some 68) ∧
      KMysqlClient.onRequest
          (KRedisClient.mirror (fun _ => 9) (Request.memory (fun _ => 7) (.set [103] [] [49, 0])) 68) =
        some (.set ⟨true, [103]⟩ [] [49, 0]) := by
  have fits : (Request.set [103] [] [49, 0]).LengthsFit := by decide
  obtain ⟨redis, copied⟩ := requests_decode (fun _ => 7) (fun _ => 9) fits
  obtain ⟨-, -, mysql⟩ := copied 68 (.set ⟨true, [103]⟩ [] [49, 0]) (by decide) (by decide) rfl
  exact ⟨redis, mysql⟩

/-- A length of 2^32 is stored as 0: of such a table only the first byte is asked for. -/
theorem long_table_cut : ¬ ∀ (fresh : Memory) (request : Request),
    (KRedisClient.onRequest (request.memory fresh)).map Prod.fst = some request.redisCall := by
  intro decodes
  obtain ⟨szTable, long⟩ : ∃ szTable : Bytes, szTable.length = 2 ^ 32 :=
    ⟨List.replicate (2 ^ 32) 0, List.length_replicate⟩
  have isIn := isIn_memory (fun _ => 0) (.get szTable [])
  have call := decodes (fun _ => 0) (.get szTable [])
  have handler : KRedisClient.onRequest (Request.memory (fun _ => 0) (.get szTable [])) =
      some (KRedisClient.onRequestGet (Request.memory (fun _ => 0) (.get szTable []))) := by
    rw [KRedisClient.onRequest, isIn.type]
    rfl
  have prefixLen := isIn.length (DelField.uPrefixLen, szTable.length) (by simp [Request.lengths])
  have keyLen := isIn.length (DelField.uKeyLen, 0) (by simp [Request.lengths])
  rw [long] at prefixLen
  rw [handler, KRedisClient.onRequestGet, prefixLen, keyLen] at call
  have args := congrArg RedisCall.args (Option.some.inj call)
  have key := congrArg List.length (List.head_eq_of_cons_eq args)
  rw [length_read, redisKey, List.length_append, List.length_cons, long] at key
  omega

/-! ## How far the buffers reach

The sizes that are asked for leave out some bytes that are written; the padding takes them, or does not.
-/

/-- Every byte that is written lies in the buffer. -/
def RequestBuffer.WritesInside (pBuffer : RequestBuffer) : Prop :=
  ∀ copy ∈ pBuffer.copies, ∀ i < copy.2.length, copy.1 + i < pBuffer.uSize

instance : DecidablePred RequestBuffer.WritesInside := fun pBuffer =>
  inferInstanceAs (Decidable (∀ copy ∈ pBuffer.copies, ∀ i < copy.2.length, _))

namespace Request

/-- Every byte that the copy for MySQL reads lies in the buffer of the request. -/
def MirrorInside (fresh : Memory) (request : Request) : Prop :=
  ∀ call nSize, KRedisClient.onRequest (request.memory fresh) = some (call, some nSize) →
    ∀ i < nSize, i < request.create.uSize

/-- The sums of sizes that the builder and the Redis worker form stay below 2^32. -/
def SumsFit : Request → Prop
  | set szTable szKey szValue =>
      sizeof kRequestSet + szKey.length + szValue.length < 2 ^ 32 ∧
        sizeof kRequestHSet + (szTable.length + szKey.length + 1) + szValue.length < 2 ^ 32
  | get szTable szKey | del szTable szKey =>
      sizeof kRequestDel + szKey.length < 2 ^ 32 ∧
        sizeof kRequestDel + (szTable.length + szKey.length + 1) < 2 ^ 32
  | hset szKey szField szValue => sizeof kRequestHSet + szKey.length + szField.length + szValue.length < 2 ^ 32
  | hget szKey szField | hdel szKey szField => sizeof kRequestHGet + szKey.length + szField.length < 2 ^ 32

/-- The padding takes the name of the table and the underscore, which the size leaves out. -/
def BuilderSlack : Request → Prop
  | set szTable .. | get szTable .. | del szTable .. => szTable.length ≤ 7
  | hset .. | hget .. | hdel .. => True

/-- The padding takes what the size of the copy has more than that of the request. -/
def MirrorSlack : Request → Prop
  | set szTable .. => szTable.length ≤ 7
  | del .. => False
  | get .. | hset .. | hget .. | hdel .. => True

end Request

/-- The size that is asked for, without overflow. -/
def Request.size : Request → Nat
  | set _ szKey szValue => sizeof kRequestSet + szKey.length + szValue.length
  | get _ szKey | del _ szKey => sizeof kRequestDel + szKey.length
  | hset szKey szField szValue => sizeof kRequestHSet + szKey.length + szField.length + szValue.length
  | hget szKey szField | hdel szKey szField => sizeof kRequestHGet + szKey.length + szField.length

theorem lengthsFit_of_sumsFit {request : Request} (sums : request.SumsFit) : request.LengthsFit := by
  cases request <;> simp [Request.LengthsFit, Request.lengths, Request.SumsFit] at sums ⊢ <;> omega

/-- Without overflow the size is the sum. -/
theorem uSize_create {request : Request} (sums : request.SumsFit) : request.create.uSize = request.size := by
  cases request with
  | set szTable szKey szValue => exact Nat.mod_eq_of_lt sums.1
  | get szTable szKey => exact Nat.mod_eq_of_lt sums.1
  | hset szKey szField szValue => exact Nat.mod_eq_of_lt sums
  | hget szKey szField => exact Nat.mod_eq_of_lt sums
  | del szTable szKey => exact Nat.mod_eq_of_lt sums.1
  | hdel szTable szKey => exact Nat.mod_eq_of_lt sums

theorem data_le_size (request : Request) : request.data ≤ request.size := by
  obtain ⟨-, -, -, setData, setSize⟩ := setOffsets
  obtain ⟨-, -, delData, delSize⟩ := delLayout
  obtain ⟨-, -, -, hsetData, hsetSize⟩ := hSetOffsets
  obtain ⟨-, -, -, hgetData, hgetSize⟩ := hGetOffsets
  cases request <;> simp only [Request.data, Request.size, *] <;> omega

/-- The strings are what reaches furthest. -/
theorem writesInside_iff_payload {request : Request} (sums : request.SumsFit) :
    request.create.WritesInside ↔ request.data + request.payload.flatten.length ≤ request.size := by
  rw [RequestBuffer.WritesInside, uSize_create sums, copies_create, List.forall_mem_append,
    consecutive_inside_iff (data_le_size request), and_iff_right]
  intro copy member i before
  have ends := fields_before_data request copy member
  have room := data_le_size request
  omega

/-- The padding takes the bytes that the size leaves out. -/
theorem payload_le_size_iff (request : Request) :
    request.data + request.payload.flatten.length ≤ request.size ↔ request.BuilderSlack := by
  obtain ⟨-, -, -, setData, setSize⟩ := setOffsets
  obtain ⟨-, -, delData, delSize⟩ := delLayout
  obtain ⟨-, -, -, hsetData, hsetSize⟩ := hSetOffsets
  obtain ⟨-, -, -, hgetData, hgetSize⟩ := hGetOffsets
  cases request <;> simp [Request.data, Request.payload, Request.size, Request.BuilderSlack, *] <;> omega

theorem small_mirrorSize {request : Request} (sums : request.SumsFit) {size : Nat}
    (mirrored : request.mirrorSize = some size) : bufferSize size = size := by
  cases request with
  | set szTable szKey szValue =>
      cases mirrored
      exact Nat.mod_eq_of_lt sums.2
  | get szTable szKey => cases mirrored
  | hset szKey szField szValue =>
      cases mirrored
      exact Nat.mod_eq_of_lt sums
  | hget szKey szField => cases mirrored
  | del szTable szKey =>
      cases mirrored
      exact Nat.mod_eq_of_lt sums.2
  | hdel szTable szKey =>
      cases mirrored
      rw [← Nat.add_assoc]
      exact Nat.mod_eq_of_lt sums

/-- A copy reads as much as its size. -/
theorem mirrorInside_iff_size (fresh : Memory) {request : Request} (sums : request.SumsFit) :
    request.MirrorInside fresh ↔ ∀ size, request.mirrorSize = some size → size ≤ request.size := by
  have call := redis_onRequest (isIn_memory fresh request) (lengthsFit_of_sumsFit sums)
  rw [Request.MirrorInside, uSize_create sums, call]
  constructor
  · intro inside size mirrored
    have copied := inside request.redisCall size (by rw [mirrored, Option.map_some, small_mirrorSize sums mirrored])
    by_contra beyond
    exact Nat.lt_irrefl _ (copied request.size (Nat.lt_of_not_le beyond))
  · intro ends _ nSize result i before
    obtain ⟨size, mirrored, wrapped⟩ := Option.map_eq_some_iff.mp (Prod.mk.inj (Option.some.inj result)).2
    rw [small_mirrorSize sums mirrored] at wrapped
    subst wrapped
    exact Nat.lt_of_lt_of_le before (ends size mirrored)

/-- The copy is as long as the request, with what the padding takes. -/
theorem mirrorSize_le_size_iff (request : Request) :
    (∀ size, request.mirrorSize = some size → size ≤ request.size) ↔ request.MirrorSlack := by
  obtain ⟨-, -, -, -, setSize⟩ := setOffsets
  obtain ⟨-, -, -, delSize⟩ := delLayout
  obtain ⟨-, -, -, -, hsetSize⟩ := hSetOffsets
  obtain ⟨-, -, -, -, hgetSize⟩ := hGetOffsets
  cases request <;> simp [Request.mirrorSize, Request.size, Request.MirrorSlack, *] <;> omega

/-- With the sums of sizes below 2^32, the builders of SET, GET and DEL stay inside of their buffers if and only if the
name of the table has at most 7 bytes, the others always; the copy of SET stays inside under the same condition, that of
DEL never, and those of the hashes always. -/
theorem insideBuffers_iff {request : Request} (sums : request.SumsFit) {szKeys : Bytes}
    (keysSum : sizeof kRequestGets + szKeys.length < 2 ^ 32) (fresh : Memory) :
    (request.create.WritesInside ↔ request.BuilderSlack) ∧ (createGetsBuffer szKeys).WritesInside ∧
      (request.MirrorInside fresh ↔ request.MirrorSlack) := by
  refine ⟨?_, ?_, ?_⟩
  · rw [writesInside_iff_payload sums, payload_le_size_iff]
  · obtain ⟨keysAt, dataAt, size⟩ := getsOffsets
    have uSize : (createGetsBuffer szKeys).uSize = sizeof kRequestGets + szKeys.length := Nat.mod_eq_of_lt keysSum
    rw [RequestBuffer.WritesInside, uSize, size]
    simp only [createGetsBuffer, List.forall_mem_cons, leBytes_length, List.length_singleton, keysAt, dataAt]
    refine ⟨?_, ?_, ?_, ?_, List.forall_mem_nil _⟩ <;> omega
  · rw [mirrorInside_iff_size fresh sums, mirrorSize_le_size_iff]

theorem insideBuffers_iff_example :
    (createSetBuffer [97, 99, 99, 111, 117, 110, 116] [49] [50, 51]).WritesInside ∧
      (createGetsBuffer [49, 32, 50]).WritesInside ∧
      (Request.set [97, 99, 99, 111, 117, 110, 116] [49] [50, 51]).MirrorInside (fun _ => 0) := by
  have sums : (Request.set [97, 99, 99, 111, 117, 110, 116] [49] [50, 51]).SumsFit := ⟨by decide, by decide⟩
  have keysSum : sizeof kRequestGets + [(49 : UInt8), 32, 50].length < 2 ^ 32 := by decide
  obtain ⟨builder, gets, copy⟩ := insideBuffers_iff sums keysSum fun _ => 0
  exact ⟨builder.mpr (Nat.le_refl 7), gets, copy.mpr (Nat.le_refl 7)⟩

/-- The tables `register` and `gamedata` have 8 bytes. -/
theorem register_overruns :
    (Request.set [114, 101, 103, 105, 115, 116, 101, 114] [] []).SumsFit ∧
      ¬ (Request.set [114, 101, 103, 105, 115, 116, 101, 114] [] []).create.WritesInside :=
  ⟨⟨by decide, by decide⟩, by decide⟩

end GameServer.Db.Requests
