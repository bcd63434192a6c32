/-
Module: GameServer.Db.Mirror
Purpose: SET and DEL requests in memory, the commands that the Redis worker makes of them, the copies it hands on to
  the MySQL worker, and when both databases hold the same in the end.
Trusted boundary: a buffer holds what was written into it; Redis refuses strings of more than 512 MB; MySQL executes
  `INSERT ... ON DUPLICATE KEY UPDATE` and `DELETE` on rows whose keys it compares with the collation of the column,
  in which a key is itself, and refuses keys that the column cannot hold
Main exports: createSetBuffer, createDelBuffer, KRedisClient.onRequest, KRedisClient.mirror, KMysqlClient.onRequest,
  workerStep, Apart, mysql_mirrors_redis
-/
import GameServer.Db.Buffers
import GameServer.Lib.FlatMemory
import GameServer.Lib.LittleEndian
import GameServer.Lib.Runs

namespace GameServer.Db.Mirror

open Lib

/-! ## Requests in memory

The requests as the bindings write them and the workers read them, byte by byte.
-/

/-- `KREQUEST_HEAD` with the fields of `KREQUEST_TYPE`; neither ends with padding. -/
def kRequestHead : List Nat := [1, 1, 1, 1, 4] ++ [8, 4, 4, 1, 4, 4, 4]

def kRequestSet : List Nat := kRequestHead ++ [8, 4, 4, 4, 4, 1]

def kRequestDel : List Nat := kRequestHead ++ [8, 4, 4, 1]

def kRequestHSet : List Nat := kRequestHead ++ [8, 4, 4, 4, 1]

namespace SetField

def uPrefixLen : Nat := offsetof kRequestSet 14

def uKeyLen : Nat := offsetof kRequestSet 15

def uValueLen : Nat := offsetof kRequestSet 16

def data : Nat := offsetof kRequestSet 17

end SetField

namespace DelField

def uPrefixLen : Nat := offsetof kRequestDel 13

def uKeyLen : Nat := offsetof kRequestDel 14

def data : Nat := offsetof kRequestDel 15

end DelField

/-- `emREQUEST_SET`. -/
def emRequestSet : UInt8 := 0

/-- `emREQUEST_DEL`. -/
def emRequestDel : UInt8 := 9

/-- `DB_CreateSetBuffer`. -/
def createSetBuffer (fresh : Memory) (szTable szKey szValue : Bytes) : Memory :=
  writeAll fresh
    [(SetField.uPrefixLen, leBytes 4 szTable.length), (SetField.uKeyLen, leBytes 4 szKey.length),
      (SetField.uValueLen, leBytes 4 szValue.length), (0, [emRequestSet]), (SetField.data, szTable),
      (SetField.data + szTable.length, [underlined]), (SetField.data + szTable.length + 1, szKey),
      (SetField.data + szTable.length + szKey.length + 1, szValue)]

/-- `DB_CreateDelBuffer`. -/
def createDelBuffer (fresh : Memory) (szTable szKey : Bytes) : Memory :=
  writeAll fresh
    [(DelField.uPrefixLen, leBytes 4 szTable.length), (DelField.uKeyLen, leBytes 4 szKey.length), (0, [emRequestDel]),
      (DelField.data, szTable), (DelField.data + szTable.length, [underlined]),
      (DelField.data + szTable.length + 1, szKey)]

def readUint32 (mem : Memory) (offset : Nat) : Nat := leValue (read mem offset 4)

/-! ## The Redis worker

A command for Redis, and a copy of the request for MySQL, whose size is computed from the structures.
-/

namespace KRedisClient

/-- The command of `OnRequestSet`. -/
def onRequestSet (pRequestSet : Memory) : RedisCommand :=
  let uPrefixLen := readUint32 pRequestSet SetField.uPrefixLen
  let uKeyLen := readUint32 pRequestSet SetField.uKeyLen
  let uValueLen := readUint32 pRequestSet SetField.uValueLen
  let uSetKeyLen := uPrefixLen + uKeyLen + 1
  .set (read pRequestSet SetField.data uSetKeyLen) (read pRequestSet (SetField.data + uSetKeyLen) uValueLen)

/-- The copy that `OnRequestSet` pushes for MySQL, as long as a `KREQUEST_HSET` and the data. -/
def mirrorSet (fresh pRequestSet : Memory) : Memory :=
  let uPrefixLen := readUint32 pRequestSet SetField.uPrefixLen
  let uKeyLen := readUint32 pRequestSet SetField.uKeyLen
  let uValueLen := readUint32 pRequestSet SetField.uValueLen
  let uSetKeyLen := uPrefixLen + uKeyLen + 1
  let nSize := (sizeof kRequestHSet + uSetKeyLen + uValueLen) % 2 ^ 32
  write fresh 0 (read pRequestSet 0 nSize)

/-- The command of `OnRequestDel`. -/
def onRequestDel (pRequestDel : Memory) : RedisCommand :=
  let uPrefixLen := readUint32 pRequestDel DelField.uPrefixLen
  let uKeyLen := readUint32 pRequestDel DelField.uKeyLen
  .del (read pRequestDel DelField.data (uPrefixLen + uKeyLen + 1))

/-- The copy that `OnRequestDel` pushes for MySQL. -/
def mirrorDel (fresh pRequestDel : Memory) : Memory :=
  let uPrefixLen := readUint32 pRequestDel DelField.uPrefixLen
  let uKeyLen := readUint32 pRequestDel DelField.uKeyLen
  let nSize := (sizeof kRequestDel + (uPrefixLen + uKeyLen + 1)) % 2 ^ 32
  write fresh 0 (read pRequestDel 0 nSize)

/-- `OnRequest` for the two types: the command, and what is pushed for MySQL when it has a reply. -/
def onRequest (fresh pBuffer : Memory) : Option (RedisCommand × Memory) :=
  if pBuffer 0 = emRequestSet then some (onRequestSet pBuffer, mirrorSet fresh pBuffer)
  else if pBuffer 0 = emRequestDel then some (onRequestDel pBuffer, mirrorDel fresh pBuffer)
  else none

end KRedisClient

/-! ## The MySQL worker

A statement for each copy. Which keys are one key is up to the collation of the column, which is a parameter.
-/

/-- A statement on a table. -/
inductive TableWrite where
  /-- `INSERT ... ON DUPLICATE KEY UPDATE`. -/
  | set (table key data : Bytes)
  | delete (table key : Bytes)
deriving Repr, DecidableEq

namespace TableWrite

def table : TableWrite → Bytes
  | .set table _ _ => table
  | .delete table _ => table

def key : TableWrite → Bytes
  | .set _ key _ => key
  | .delete _ key => key

end TableWrite

/-- `gt_`. -/
def globalTableNamePrefix : Bytes := [103, 116, 95]

namespace KMysqlClient

/-- `OnRequestSet` and `_RedisHashTableSet`: keys and values are escaped. -/
def onRequestSet (pRequestSet : Memory) : TableWrite :=
  let uPrefixLen := readUint32 pRequestSet SetField.uPrefixLen
  let uKeyLen := readUint32 pRequestSet SetField.uKeyLen
  let uValueLen := readUint32 pRequestSet SetField.uValueLen
  .set (globalTableNamePrefix ++ read pRequestSet SetField.data uPrefixLen)
    (read pRequestSet (SetField.data + uPrefixLen + 1) uKeyLen)
    (read pRequestSet (SetField.data + uPrefixLen + uKeyLen + 1) uValueLen)

/-- `OnRequestDel` and `_RedisHashTableDel`, for a table that exists. -/
def onRequestDel (pRequestDel : Memory) : TableWrite :=
  let uPrefixLen := readUint32 pRequestDel DelField.uPrefixLen
  let uKeyLen := readUint32 pRequestDel DelField.uKeyLen
  .delete (globalTableNamePrefix ++ read pRequestDel DelField.data uPrefixLen)
    (read pRequestDel (DelField.data + uPrefixLen + 1) uKeyLen)

/-- `OnRequest` for the two types. -/
def onRequest (pBuffer : Memory) : Option TableWrite :=
  if pBuffer 0 = emRequestSet then some (onRequestSet pBuffer)
  else if pBuffer 0 = emRequestDel then some (onRequestDel pBuffer)
  else none

end KMysqlClient

/-- The rows of the tables, by the names of the tables: `key_name` and `data`. -/
abbrev Tables := Bytes → List (Bytes × Bytes)

section Workers

-- how the collation of `key_name` compares
variable (sameKey : Bytes → Bytes → Bool)

/-- The rows of a table after `INSERT ... ON DUPLICATE KEY UPDATE`. -/
def insertRow (rows : List (Bytes × Bytes)) (key data : Bytes) : List (Bytes × Bytes) :=
  if rows.any fun row => sameKey row.1 key then
    rows.map fun row => if sameKey row.1 key then (row.1, data) else row
  else
    rows ++ [(key, data)]

/-- The rows of a table after `DELETE ... where key_name=`. -/
def deleteRows (rows : List (Bytes × Bytes)) (key : Bytes) : List (Bytes × Bytes) :=
  rows.filter fun row => !sameKey row.1 key

/-- MySQL executes a statement. -/
def execute (tables : Tables) : TableWrite → Tables
  | .set table key data => Function.update tables table (insertRow sameKey (tables table) key data)
  | .delete table key => Function.update tables table (deleteRows sameKey (tables table) key)

/-! ## Both workers

A queue for each worker. The Redis worker fills that of the MySQL worker.
-/

/-- The queues of the two workers, and the two databases. -/
structure Workers where
  redisRequests : List Memory
  mysqlRequests : List Memory
  store : Store
  tables : Tables

/-- `global`, `account`, `register` and `gamedata`. -/
def mirroredTables : List Bytes :=
  [[103, 108, 111, 98, 97, 108], [97, 99, 99, 111, 117, 110, 116], [114, 101, 103, 105, 115, 116, 101, 114],
    [103, 97, 109, 101, 100, 97, 116, 97]]

/-- A request is made, or a worker takes its next one. -/
inductive WorkerAction where
  | pushRedisSet (fresh : Memory) (szTableName szKey szValue : Bytes)
  | pushRedisDel (fresh : Memory) (szTableName szKey : Bytes)
  | redisWorker (fresh : Memory)
  | mysqlWorker

/-- Redis takes strings of at most 512 MB. -/
def RedisTakes : RedisCommand → Prop
  | .set key value => key.length ≤ 2 ^ 29 ∧ value.length ≤ 2 ^ 29
  | .get key => key.length ≤ 2 ^ 29
  | .mget keys => ∀ key ∈ keys, key.length ≤ 2 ^ 29
  | .del key => key.length ≤ 2 ^ 29

instance : DecidablePred RedisTakes
  | .set _ _ => inferInstanceAs (Decidable (_ ∧ _))
  | .get _ => inferInstanceAs (Decidable (_ ≤ _))
  | .mget keys => inferInstanceAs (Decidable (∀ key ∈ keys, _))
  | .del _ => inferInstanceAs (Decidable (_ ≤ _))

/-- One step; none when a command does not succeed. -/
def workerStep (s : Workers) : WorkerAction → Option Workers
  | .pushRedisSet fresh szTableName szKey szValue =>
      if szTableName ∈ mirroredTables then
        some { s with redisRequests := s.redisRequests ++ [createSetBuffer fresh szTableName szKey szValue] }
      else none
  | .pushRedisDel fresh szTableName szKey =>
      if szTableName ∈ mirroredTables then
        some { s with redisRequests := s.redisRequests ++ [createDelBuffer fresh szTableName szKey] }
      else none
  | .redisWorker fresh =>
      match s.redisRequests with
      | [] => none
      | pBuffer :: redisRequests =>
          (KRedisClient.onRequest fresh pBuffer).bind fun (command, copy) =>
            if RedisTakes command then
              some { s with
                redisRequests := redisRequests
                mysqlRequests := s.mysqlRequests ++ [copy]
                store := (redis s.store command).1 }
            else none
  | .mysqlWorker =>
      match s.mysqlRequests with
      | [] => none
      | pBuffer :: mysqlRequests =>
          (KMysqlClient.onRequest pBuffer).map fun statement =>
            { s with
              mysqlRequests := mysqlRequests
              tables := execute sameKey s.tables statement }

/-- `<table>_<key>`. -/
def redisKey (szTableName szKey : Bytes) : Bytes := szTableName ++ underlined :: szKey

/-- The key of the statement is told apart from every other key under which Redis holds a value in the table. -/
def Apart (store : Store) (statement : TableWrite) : Prop :=
  ∀ szTableName ∈ mirroredTables, statement.table = globalTableNamePrefix ++ szTableName →
    ∀ key, key ≠ statement.key → sameKey key statement.key = true → store (redisKey szTableName key) = none

/-- What the Redis worker takes next is told apart. -/
def TellsApart (s : Workers) : WorkerAction → Prop
  | .redisWorker _ =>
      ∀ pBuffer ∈ s.redisRequests.head?, ∀ statement ∈ KMysqlClient.onRequest pBuffer, Apart sameKey s.store statement
  | _ => True

/-- Redis holds a value under `<table>_<key>` if and only if the table `gt_<table>` has the row. -/
def Agree (store : Store) (tables : Tables) : Prop :=
  ∀ szTableName ∈ mirroredTables, ∀ key value,
    store (redisKey szTableName key) = some value ↔ (key, value) ∈ tables (globalTableNamePrefix ++ szTableName)

end Workers

/-! ## Reading requests

What is read of a request in memory is what was written into it.
-/

theorem setLayout : SetField.uPrefixLen = 52 ∧ SetField.uKeyLen = 56 ∧ SetField.uValueLen = 60 ∧ SetField.data = 64 ∧
    sizeof kRequestHSet = 64 := by decide

theorem delLayout : DelField.uPrefixLen = 48 ∧ DelField.uKeyLen = 52 ∧ DelField.data = 56 ∧ sizeof kRequestDel = 64 := by
  decide

/-- The type, the table and the underscore of a request with the given fields. -/
structure Names (type : UInt8) (uPrefixLen data : Nat) (szTable : Bytes) (mem : Memory) : Prop where
  type : mem 0 = type
  length : readUint32 mem uPrefixLen = szTable.length
  table : read mem data szTable.length = szTable
  separator : read mem (data + szTable.length) 1 = [underlined]

/-- A request on one of the tables. -/
def IsRequest (mem : Memory) : Prop :=
  ∃ szTable ∈ mirroredTables, Names emRequestSet SetField.uPrefixLen SetField.data szTable mem ∨
    Names emRequestDel DelField.uPrefixLen DelField.data szTable mem

theorem byte_of_read {mem : Memory} {offset : Nat} {b : UInt8} (one : read mem offset 1 = [b]) : mem offset = b := by
  have head : [mem offset] = [b] := one
  exact List.head_eq_of_cons_eq head

theorem short_of_mirrored : ∀ szTable ∈ mirroredTables, szTable.length < 2 ^ 32 := by decide

/-- A length is read as it was written. -/
theorem readUint32_of_bytes {mem : Memory} {offset n : Nat} (bytes : read mem offset 4 = leBytes 4 n)
    (fits : n < 2 ^ 32) : readUint32 mem offset = n := by
  rw [readUint32, bytes]
  exact leValue_leBytes_of_lt fits

/-- A key is the table, the underscore and the rest. -/
theorem read_redisKey {mem : Memory} {szTable : Bytes} {data : Nat}
    (table : read mem data szTable.length = szTable)
    (separator : read mem (data + szTable.length) 1 = [underlined]) (uKeyLen : Nat) :
    read mem data (szTable.length + uKeyLen + 1) =
      redisKey szTable (read mem (data + szTable.length + 1) uKeyLen) := by
  have total : szTable.length + uKeyLen + 1 = szTable.length + (1 + uKeyLen) := by omega
  rw [total, read_add, read_add, table, separator]
  rfl

section Created

variable (fresh : Memory) {szTable : Bytes}

theorem names_createSetBuffer (member : szTable ∈ mirroredTables) (szKey szValue : Bytes) :
    Names emRequestSet SetField.uPrefixLen SetField.data szTable (createSetBuffer fresh szTable szKey szValue) := by
  obtain ⟨prefixAt, keyAt, valueAt, dataAt, -⟩ := setLayout
  unfold createSetBuffer
  constructor
  · apply byte_of_read
    refine read_writeAll_last 3 rfl rfl ?_
    simp [Away, dataAt]
    omega
  · apply readUint32_of_bytes _ (short_of_mirrored szTable member)
    refine read_writeAll_last 0 rfl (leBytes_length 4 _) ?_
    simp [Away, prefixAt, keyAt, valueAt, dataAt]
    omega
  · refine read_writeAll_last 4 rfl rfl ?_
    simp [Away, dataAt]
    omega
  · refine read_writeAll_last 5 rfl rfl ?_
    simp [Away]

theorem names_createDelBuffer (member : szTable ∈ mirroredTables) (szKey : Bytes) :
    Names emRequestDel DelField.uPrefixLen DelField.data szTable (createDelBuffer fresh szTable szKey) := by
  obtain ⟨prefixAt, keyAt, dataAt, -⟩ := delLayout
  unfold createDelBuffer
  constructor
  · apply byte_of_read
    refine read_writeAll_last 2 rfl rfl ?_
    simp [Away, dataAt]
    omega
  · apply readUint32_of_bytes _ (short_of_mirrored szTable member)
    refine read_writeAll_last 0 rfl (leBytes_length 4 _) ?_
    simp [Away, prefixAt, keyAt, dataAt]
    omega
  · refine read_writeAll_last 3 rfl rfl ?_
    simp [Away]
  · refine read_writeAll_last 4 rfl rfl ?_
    simp [Away]

/-- The command is the one that was asked for. -/
theorem onRequestSet_createSetBuffer (member : szTable ∈ mirroredTables) {szKey szValue : Bytes}
    (shortKey : szKey.length < 2 ^ 32) (shortValue : szValue.length < 2 ^ 32) :
    KRedisClient.onRequestSet (createSetBuffer fresh szTable szKey szValue) =
      .set (redisKey szTable szKey) szValue := by
  obtain ⟨prefixAt, keyAt, valueAt, dataAt, -⟩ := setLayout
  have names := names_createSetBuffer fresh member szKey szValue
  have uKeyLen : readUint32 (createSetBuffer fresh szTable szKey szValue) SetField.uKeyLen = szKey.length := by
    apply readUint32_of_bytes _ shortKey
    refine read_writeAll_last 1 rfl (leBytes_length 4 _) ?_
    simp [Away, keyAt, valueAt, dataAt]
    omega
  have uValueLen : readUint32 (createSetBuffer fresh szTable szKey szValue) SetField.uValueLen = szValue.length := by
    apply readUint32_of_bytes _ shortValue
    refine read_writeAll_last 2 rfl (leBytes_length 4 _) ?_
    simp [Away, valueAt, dataAt]
    omega
  have key : read (createSetBuffer fresh szTable szKey szValue) (SetField.data + szTable.length + 1) szKey.length =
      szKey := by
    refine read_writeAll_last 6 rfl rfl ?_
    simp [Away]
    omega
  have value : read (createSetBuffer fresh szTable szKey szValue) (SetField.data + (szTable.length + szKey.length + 1))
      szValue.length = szValue := by
    have place : SetField.data + (szTable.length + szKey.length + 1) =
        SetField.data + szTable.length + szKey.length + 1 := by omega
    rw [place]
    refine read_writeAll_last 7 rfl rfl ?_
    simp
  unfold KRedisClient.onRequestSet
  simp only [names.length, uKeyLen, uValueLen, value]
  rw [read_redisKey names.table names.separator, key]

/-- The Redis worker takes the request, and makes a copy of it. -/
theorem onRequest_createSetBuffer (copy : Memory) (member : szTable ∈ mirroredTables) {szKey szValue : Bytes}
    (shortKey : szKey.length < 2 ^ 32) (shortValue : szValue.length < 2 ^ 32) :
    KRedisClient.onRequest copy (createSetBuffer fresh szTable szKey szValue) =
      some (.set (redisKey szTable szKey) szValue,
        KRedisClient.mirrorSet copy (createSetBuffer fresh szTable szKey szValue)) := by
  have names := names_createSetBuffer fresh member szKey szValue
  rw [KRedisClient.onRequest, if_pos names.type, onRequestSet_createSetBuffer fresh member shortKey shortValue]

/-- The command is the one that was asked for. -/
theorem onRequestDel_createDelBuffer (member : szTable ∈ mirroredTables) {szKey : Bytes}
    (shortKey : szKey.length < 2 ^ 32) :
    KRedisClient.onRequestDel (createDelBuffer fresh szTable szKey) = .del (redisKey szTable szKey) := by
  obtain ⟨prefixAt, keyAt, dataAt, -⟩ := delLayout
  have names := names_createDelBuffer fresh member szKey
  have uKeyLen : readUint32 (createDelBuffer fresh szTable szKey) DelField.uKeyLen = szKey.length := by
    apply readUint32_of_bytes _ shortKey
    refine read_writeAll_last 1 rfl (leBytes_length 4 _) ?_
    simp [Away, keyAt, dataAt]
    omega
  have key : read (createDelBuffer fresh szTable szKey) (DelField.data + szTable.length + 1) szKey.length = szKey := by
    refine read_writeAll_last 5 rfl rfl ?_
    simp
  unfold KRedisClient.onRequestDel
  simp only [names.length, uKeyLen]
  rw [read_redisKey names.table names.separator, key]

/-- What the Redis worker makes of a request to delete. -/
theorem onRequest_createDelBuffer (copy : Memory) (member : szTable ∈ mirroredTables) {szKey : Bytes}
    (shortKey : szKey.length < 2 ^ 32) :
    KRedisClient.onRequest copy (createDelBuffer fresh szTable szKey) =
      some (.del (redisKey szTable szKey), KRedisClient.mirrorDel copy (createDelBuffer fresh szTable szKey)) := by
  have names := names_createDelBuffer fresh member szKey
  have notSet : ¬ createDelBuffer fresh szTable szKey 0 = emRequestSet := by
    rw [names.type]
    decide
  rw [KRedisClient.onRequest, if_neg notSet, if_pos names.type, onRequestDel_createDelBuffer fresh member shortKey]

end Created

/-! ## Copies for MySQL

A copy ends with the strings of its request, so the statement is that of the command.
-/

/-- The statement does to the tables what the command does to Redis. -/
inductive Mirrors : RedisCommand → TableWrite → Prop
  | set {szTable : Bytes} (member : szTable ∈ mirroredTables) (key value : Bytes) :
      Mirrors (.set (redisKey szTable key) value) (.set (globalTableNamePrefix ++ szTable) key value)
  | del {szTable : Bytes} (member : szTable ∈ mirroredTables) (key : Bytes) :
      Mirrors (.del (redisKey szTable key)) (.delete (globalTableNamePrefix ++ szTable) key)

section Copies

variable {mem : Memory} {szTable : Bytes}

theorem readUint32_copy (fresh mem : Memory) {offset size : Nat} (inside : offset + 4 ≤ size) :
    readUint32 (write fresh 0 (read mem 0 size)) offset = readUint32 mem offset := by
  rw [readUint32, read_copy fresh mem inside, readUint32]

theorem byte_copy (fresh mem : Memory) {size : Nat} (positive : 0 < size) :
    write fresh 0 (read mem 0 size) 0 = mem 0 := by
  apply byte_of_read
  rw [read_copy fresh mem (by omega)]
  rfl

/-- The copy of a SET holds all of it, since the data starts where a `KREQUEST_HSET` ends. -/
theorem onRequestSet_mirrorSet (fresh mem : Memory)
    (fits : sizeof kRequestHSet + (readUint32 mem SetField.uPrefixLen + readUint32 mem SetField.uKeyLen + 1) +
      readUint32 mem SetField.uValueLen < 2 ^ 32) :
    KMysqlClient.onRequestSet (KRedisClient.mirrorSet fresh mem) = KMysqlClient.onRequestSet mem ∧
      KRedisClient.mirrorSet fresh mem 0 = mem 0 := by
  obtain ⟨prefixAt, keyAt, valueAt, dataAt, size⟩ := setLayout
  unfold KRedisClient.mirrorSet KMysqlClient.onRequestSet
  simp only
  rw [Nat.mod_eq_of_lt fits]
  generalize copied : sizeof kRequestHSet + (readUint32 mem SetField.uPrefixLen + readUint32 mem SetField.uKeyLen + 1) +
    readUint32 mem SetField.uValueLen = nSize
  constructor
  · rw [readUint32_copy fresh mem (by omega), readUint32_copy fresh mem (by omega), readUint32_copy fresh mem (by omega),
      read_copy fresh mem (by omega), read_copy fresh mem (by omega), read_copy fresh mem (by omega)]
  · exact byte_copy fresh mem (by omega)

theorem onRequestDel_mirrorDel (fresh mem : Memory)
    (fits : sizeof kRequestDel + (readUint32 mem DelField.uPrefixLen + readUint32 mem DelField.uKeyLen + 1) < 2 ^ 32) :
    KMysqlClient.onRequestDel (KRedisClient.mirrorDel fresh mem) = KMysqlClient.onRequestDel mem ∧
      KRedisClient.mirrorDel fresh mem 0 = mem 0 := by
  obtain ⟨prefixAt, keyAt, dataAt, size⟩ := delLayout
  unfold KRedisClient.mirrorDel KMysqlClient.onRequestDel
  simp only
  rw [Nat.mod_eq_of_lt fits]
  generalize copied : sizeof kRequestDel + (readUint32 mem DelField.uPrefixLen + readUint32 mem DelField.uKeyLen + 1) =
    nSize
  constructor
  · rw [readUint32_copy fresh mem (by omega), readUint32_copy fresh mem (by omega), read_copy fresh mem (by omega),
      read_copy fresh mem (by omega)]
  · exact byte_copy fresh mem (by omega)

/-- What the MySQL worker makes of the copy of a request, as it would of the request, mirrors what the Redis worker makes
of the request. -/
theorem onRequest_mirrors (request : IsRequest mem) (fresh : Memory) {command : RedisCommand} {copy : Memory}
    (taken : KRedisClient.onRequest fresh mem = some (command, copy)) (succeeds : RedisTakes command) :
    ∃ statement, KMysqlClient.onRequest copy = some statement ∧ KMysqlClient.onRequest mem = some statement ∧
      Mirrors command statement := by
  obtain ⟨szTable, member, set | del⟩ := request
  · obtain ⟨prefixAt, keyAt, valueAt, dataAt, size⟩ := setLayout
    unfold KRedisClient.onRequest at taken
    rw [if_pos set.type] at taken
    obtain ⟨rfl, rfl⟩ := Prod.mk.inj (Option.some.inj taken)
    have lengths := succeeds
    unfold KRedisClient.onRequestSet RedisTakes at lengths
    simp only [length_read] at lengths
    obtain ⟨same, type⟩ := onRequestSet_mirrorSet fresh mem (by omega)
    refine ⟨KMysqlClient.onRequestSet mem, ?_, ?_, ?_⟩
    · unfold KMysqlClient.onRequest
      rw [type, if_pos set.type, same]
    · unfold KMysqlClient.onRequest
      rw [if_pos set.type]
    · have place : SetField.data + (szTable.length + readUint32 mem SetField.uKeyLen + 1) =
          SetField.data + szTable.length + readUint32 mem SetField.uKeyLen + 1 := by omega
      unfold KRedisClient.onRequestSet KMysqlClient.onRequestSet
      simp only [set.length, place, read_redisKey set.table set.separator, set.table]
      exact Mirrors.set member _ _
  · obtain ⟨prefixAt, keyAt, dataAt, size⟩ := delLayout
    have notSet : ¬ mem 0 = emRequestSet := by
      rw [del.type]
      decide
    unfold KRedisClient.onRequest at taken
    rw [if_neg notSet, if_pos del.type] at taken
    obtain ⟨rfl, rfl⟩ := Prod.mk.inj (Option.some.inj taken)
    have lengths := succeeds
    unfold KRedisClient.onRequestDel RedisTakes at lengths
    simp only [length_read] at lengths
    obtain ⟨same, type⟩ := onRequestDel_mirrorDel fresh mem (by omega)
    refine ⟨KMysqlClient.onRequestDel mem, ?_, ?_, ?_⟩
    · unfold KMysqlClient.onRequest
      rw [type, if_neg notSet, if_pos del.type, same]
    · unfold KMysqlClient.onRequest
      rw [if_neg notSet, if_pos del.type]
    · unfold KRedisClient.onRequestDel KMysqlClient.onRequestDel
      simp only [del.length, read_redisKey del.table del.separator, del.table]
      exact Mirrors.del member _

end Copies

/-! ## Agreement

A statement whose key is told apart does to its table what the command does to Redis.
-/

/-- No table has an underscore in its name. -/
theorem not_underlined : ∀ szTable ∈ mirroredTables, underlined ∉ szTable := by decide

/-- On these tables a key of Redis tells the table and the key. -/
theorem redisKey_inj {szTable szTable' key key' : Bytes} (plain : underlined ∉ szTable) (plain' : underlined ∉ szTable')
    (same : redisKey szTable key = redisKey szTable' key') : szTable = szTable' ∧ key = key' := by
  induction szTable generalizing szTable' with
  | nil =>
      cases szTable' with
      | nil => exact ⟨rfl, (List.cons.inj same).2⟩
      | cons b rest' => exact absurd (List.cons.inj same).1 (List.ne_of_not_mem_cons plain')
  | cons b rest ih =>
      cases szTable' with
      | nil => exact absurd (List.cons.inj same).1.symm (List.ne_of_not_mem_cons plain)
      | cons b' rest' =>
          obtain ⟨first, later⟩ := List.cons.inj same
          obtain ⟨rests, keys⟩ := ih (List.not_mem_of_not_mem_cons plain) (List.not_mem_of_not_mem_cons plain') later
          exact ⟨by rw [first, rests], keys⟩

/-- The same change of a key in both databases. -/
theorem agree_update {store : Store} {tables : Tables} (agree : Agree store tables) {szTable : Bytes}
    (member : szTable ∈ mirroredTables) {key : Bytes} {value : Option Bytes} {rows : List (Bytes × Bytes)}
    (changed : ∀ key' data', (key', data') ∈ rows ↔
      if key' = key then value = some data' else (key', data') ∈ tables (globalTableNamePrefix ++ szTable)) :
    Agree (Function.update store (redisKey szTable key) value)
      (Function.update tables (globalTableNamePrefix ++ szTable) rows) := by
  intro szTable' member' key' value'
  have plain := not_underlined szTable member
  have plain' := not_underlined szTable' member'
  by_cases sameTable : szTable' = szTable
  · subst sameTable
    rw [Function.update_self, changed]
    split
    · next isKey => rw [isKey, Function.update_self]
    · next other =>
      rw [Function.update_of_ne fun same => other (redisKey_inj plain' plain same).2]
      exact agree szTable' member' key' value'
  · have otherTable : globalTableNamePrefix ++ szTable' ≠ globalTableNamePrefix ++ szTable := fun same =>
      sameTable (List.append_cancel_left same)
    rw [Function.update_of_ne fun same => sameTable (redisKey_inj plain' plain same).1, Function.update_of_ne otherTable]
    exact agree szTable' member' key' value'

section Agreement

variable {sameKey : Bytes → Bytes → Bool} {rows : List (Bytes × Bytes)} {key : Bytes}

/-- A row that is compared with a key is the row of that key, if the rows are told apart from it. -/
theorem mem_insertRow (same : sameKey key key = true)
    (apart : ∀ row ∈ rows, sameKey row.1 key = true → row.1 = key) {data key' data' : Bytes} :
    (key', data') ∈ insertRow sameKey rows key data ↔ if key' = key then data' = data else (key', data') ∈ rows := by
  unfold insertRow
  split
  · next there =>
    obtain ⟨row, inside, hit⟩ := List.any_eq_true.mp there
    have here : row.1 = key := apart row inside hit
    rw [List.mem_map]
    constructor
    · rintro ⟨old, member, result⟩
      by_cases hit : sameKey old.1 key = true
      · have oldKey : old.1 = key := apart old member hit
        rw [if_pos hit, Prod.mk.injEq] at result
        rw [if_pos (result.1.symm.trans oldKey)]
        exact result.2.symm
      · rw [if_neg hit] at result
        subst result
        rw [if_neg fun isKey => hit (by rw [isKey]; exact same)]
        exact member
    · intro after
      by_cases isKey : key' = key
      · rw [if_pos isKey] at after
        refine ⟨row, inside, ?_⟩
        rw [if_pos hit, here, isKey, after]
      · rw [if_neg isKey] at after
        exact ⟨(key', data'), after, if_neg fun hit => isKey (apart _ after hit)⟩
  · next missing =>
    rw [List.mem_append, List.mem_singleton, Prod.mk.injEq]
    split
    · next isKey =>
      constructor
      · rintro (member | ⟨_, isData⟩)
        · exact absurd (List.any_eq_true.mpr ⟨_, member, by rw [isKey]; exact same⟩) missing
        · exact isData
      · intro isData
        exact Or.inr ⟨isKey, isData⟩
    · next other =>
      exact ⟨fun member => member.resolve_right fun both => other both.1, Or.inl⟩

/-- A deleted key is gone, and nothing else. -/
theorem mem_deleteRows (same : sameKey key key = true)
    (apart : ∀ row ∈ rows, sameKey row.1 key = true → row.1 = key) {key' data' : Bytes} :
    (key', data') ∈ deleteRows sameKey rows key ↔ key' ≠ key ∧ (key', data') ∈ rows := by
  unfold deleteRows
  rw [List.mem_filter, Bool.not_eq_true', ← Bool.not_eq_true, and_comm]
  refine and_congr_left fun member => not_congr ⟨apart _ member, fun isKey => ?_⟩
  change key' = key at isKey
  rw [isKey]
  exact same

/-- Where a statement is told apart in Redis, so it is among the rows that agree. -/
theorem apart_rows {store : Store} {tables : Tables} {statement : TableWrite} (agree : Agree store tables)
    (apart : Apart sameKey store statement) {szTableName : Bytes} (member : szTableName ∈ mirroredTables)
    (table : statement.table = globalTableNamePrefix ++ szTableName) :
    ∀ row ∈ tables (globalTableNamePrefix ++ szTableName), sameKey row.1 statement.key = true →
      row.1 = statement.key := by
  intro row inside hit
  by_contra other
  have holds := (agree szTableName member row.1 row.2).mpr inside
  rw [apart szTableName member table row.1 other hit] at holds
  cases holds

/-- A command and the statement that mirrors it keep the two databases in agreement, where the statement is told
apart. -/
theorem agree_mirrors (same : ∀ key, sameKey key key = true) {store : Store} {tables : Tables} {command : RedisCommand}
    {statement : TableWrite} (agree : Agree store tables) (apart : Apart sameKey store statement)
    (mirrors : Mirrors command statement) : Agree (redis store command).1 (execute sameKey tables statement) := by
  cases mirrors with
  | set member key value =>
      apply agree_update agree member
      intro key' data'
      rw [mem_insertRow (same key) (apart_rows agree apart member rfl), Option.some.injEq, eq_comm (a := data')]
  | del member key =>
      apply agree_update agree member
      intro key' data'
      rw [mem_deleteRows (same key) (apart_rows agree apart member rfl)]
      split
      · next isKey => exact ⟨fun both => absurd isKey both.1, fun none => absurd none (by simp)⟩
      · next other => exact ⟨fun both => both.2, fun row => ⟨other, row⟩⟩

end Agreement

/-! ## Runs

What holds between steps: the tables agree with what Redis will have been when the copies that wait are executed.
-/

section Runs

variable {sameKey : Bytes → Bytes → Bool}

/-- The requests are on the tables, and the databases agree once the statements that are queued for MySQL are
executed. -/
structure Mirrored (sameKey : Bytes → Bytes → Bool) (s : Workers) : Prop where
  requests : ∀ mem ∈ s.redisRequests, IsRequest mem
  agree : ∃ statements : List TableWrite, s.mysqlRequests.map KMysqlClient.onRequest = statements.map some ∧
    Agree s.store (statements.foldl (execute sameKey) s.tables)

/-- A request waits for the Redis worker. -/
theorem mirrored_push {s : Workers} {mem : Memory} (mirrored : Mirrored sameKey s) (request : IsRequest mem) :
    Mirrored sameKey { s with redisRequests := s.redisRequests ++ [mem] } where
  requests := by
    intro other member
    rcases List.mem_append.mp member with old | new
    · exact mirrored.requests other old
    · rw [List.mem_singleton.mp new]
      exact request
  agree := mirrored.agree

/-- The step lemma. -/
theorem mirrored_step (same : ∀ key, sameKey key key = true) {s t : Workers} {action : WorkerAction}
    (mirrored : Mirrored sameKey s) (apart : TellsApart sameKey s action)
    (step : workerStep sameKey s action = some t) : Mirrored sameKey t := by
  cases action with
  | pushRedisSet fresh szTableName szKey szValue =>
      obtain ⟨member, result⟩ := Option.ite_none_right_eq_some.mp step
      cases result
      exact mirrored_push mirrored ⟨szTableName, member, Or.inl (names_createSetBuffer fresh member szKey szValue)⟩
  | pushRedisDel fresh szTableName szKey =>
      obtain ⟨member, result⟩ := Option.ite_none_right_eq_some.mp step
      cases result
      exact mirrored_push mirrored ⟨szTableName, member, Or.inr (names_createDelBuffer fresh member szKey)⟩
  | redisWorker fresh =>
      cases queue : s.redisRequests with
      | nil => simp [workerStep, queue] at step
      | cons pBuffer redisRequests =>
          simp only [workerStep, queue] at step
          obtain ⟨⟨command, copy⟩, taken, executed⟩ := Option.bind_eq_some_iff.mp step
          obtain ⟨succeeds, result⟩ := Option.ite_none_right_eq_some.mp executed
          cases result
          obtain ⟨statements, queued, agree⟩ := mirrored.agree
          have requests := mirrored.requests
          rw [queue, List.forall_mem_cons] at requests
          obtain ⟨statement, made, asked, mirrors⟩ := onRequest_mirrors requests.1 fresh taken succeeds
          have told : Apart sameKey s.store statement := apart pBuffer (by rw [queue]; rfl) statement asked
          refine ⟨requests.2, statements ++ [statement], ?_, ?_⟩
          · rw [List.map_append, List.map_append, queued, List.map_singleton, List.map_singleton, made]
          · rw [List.foldl_append]
            exact agree_mirrors same agree told mirrors
  | mysqlWorker =>
      cases queue : s.mysqlRequests with
      | nil => simp [workerStep, queue] at step
      | cons pBuffer mysqlRequests =>
          simp only [workerStep, queue] at step
          obtain ⟨statement, made, result⟩ := Option.map_eq_some_iff.mp step
          cases result
          obtain ⟨statements, queued, agree⟩ := mirrored.agree
          rw [queue, List.map_cons, made] at queued
          obtain ⟨first, rest, split, head, tail⟩ := List.map_eq_cons_iff.mp queued.symm
          subst split
          have same : first = statement := Option.some.inj head
          subst same
          exact ⟨mirrored.requests, rest, tail.symm, agree⟩

/-- However the requests and the two workers take turns, when both queues are empty Redis holds a value under
`<table>_<key>` if and only if the table `gt_<table>` has the row, where every request that Redis took was told apart
from the other keys that held a value then. -/
theorem mysql_mirrors_redis (same : ∀ key, sameKey key key = true) {s t : Workers} {actions : List WorkerAction}
    (idle : s.redisRequests = [] ∧ s.mysqlRequests = []) (start : Agree s.store s.tables)
    (apart : Guarded (workerStep sameKey) (TellsApart sameKey) s actions)
    (run : runSteps (workerStep sameKey) s actions = some t) (drained : t.redisRequests = [] ∧ t.mysqlRequests = []) :
    Agree t.store t.tables := by
  have mirrored : Mirrored sameKey s := by
    refine ⟨?_, [], ?_, start⟩
    · rw [idle.1]
      exact fun mem member => absurd member List.not_mem_nil
    · rw [idle.2]
      rfl
  obtain ⟨statements, queued, agree⟩ :=
    (guarded_invariant (fun _ _ _ before told step => mirrored_step same before told step) mirrored apart run).agree
  rw [drained.2] at queued
  have none : statements = [] := List.map_eq_nil_iff.mp queued.symm
  subst none
  exact agree

/-! ### Keys that are told apart

Whoever makes the requests can see to the condition: it is met where the collation tells the keys of all requests
apart. -/

/-- A request is made with a key of the list, and is short enough for Redis. -/
def WithKeys (keys : List Bytes) : WorkerAction → Prop
  | .pushRedisSet _ szTableName szKey szValue =>
      szKey ∈ keys ∧ (redisKey szTableName szKey).length ≤ 2 ^ 29 ∧ szValue.length ≤ 2 ^ 29
  | .pushRedisDel _ szTableName szKey => szKey ∈ keys ∧ (redisKey szTableName szKey).length ≤ 2 ^ 29
  | .redisWorker _ | .mysqlWorker => True

instance (keys : List Bytes) : DecidablePred (WithKeys keys)
  | .pushRedisSet .. => inferInstanceAs (Decidable (_ ∧ _ ∧ _))
  | .pushRedisDel .. => inferInstanceAs (Decidable (_ ∧ _))
  | .redisWorker _ | .mysqlWorker => isTrue trivial

/-- Redis holds values only under keys of the list. -/
def KeysHeld (keys : List Bytes) (store : Store) : Prop :=
  ∀ szTableName ∈ mirroredTables, ∀ key, store (redisKey szTableName key) ≠ none → key ∈ keys

/-- The requests that wait are under keys of the list, and so is what Redis holds. -/
structure KeysOnly (keys : List Bytes) (s : Workers) : Prop where
  requests : ∀ mem ∈ s.redisRequests, ∃ command copy statement,
    KRedisClient.onRequest mem mem = some (command, copy) ∧ KMysqlClient.onRequest mem = some statement ∧
      Mirrors command statement ∧ statement.key ∈ keys
  store : KeysHeld keys s.store

/-- The key of a statement is the key of the request it is made of. -/
theorem key_of_mirrors {szTable szKey : Bytes} (member : szTable ∈ mirroredTables) {command : RedisCommand}
    {statement : TableWrite} (mirrors : Mirrors command statement)
    (named : command = .del (redisKey szTable szKey) ∨ ∃ szValue, command = .set (redisKey szTable szKey) szValue) :
    statement.key = szKey := by
  have plain := not_underlined _ member
  cases mirrors with
  | set member' key value =>
      obtain isDel | ⟨szValue, isSet⟩ := named
      · cases isDel
      · exact (redisKey_inj (not_underlined _ member') plain (RedisCommand.set.inj isSet).1).2
  | del member' key =>
      obtain isDel | ⟨szValue, isSet⟩ := named
      · exact (redisKey_inj (not_underlined _ member') plain (RedisCommand.del.inj isDel)).2
      · cases isSet

/-- The command of a request does not depend on the memory that its copy is made in. -/
theorem onRequest_command (fresh other mem : Memory) :
    (KRedisClient.onRequest fresh mem).map Prod.fst = (KRedisClient.onRequest other mem).map Prod.fst := by
  unfold KRedisClient.onRequest
  split
  · rw [Option.map_some, Option.map_some]
  · split
    · rw [Option.map_some, Option.map_some]
    · rfl

/-- A request with a key of the list. -/
theorem keysOnly_push {keys : List Bytes} {s : Workers} {mem : Memory} (before : KeysOnly keys s)
    (request : IsRequest mem) {szTable szKey : Bytes} (member : szTable ∈ mirroredTables) {command : RedisCommand}
    {copy : Memory} (taken : KRedisClient.onRequest mem mem = some (command, copy)) (succeeds : RedisTakes command)
    (named : command = .del (redisKey szTable szKey) ∨ ∃ szValue, command = .set (redisKey szTable szKey) szValue)
    (listed : szKey ∈ keys) : KeysOnly keys { s with redisRequests := s.redisRequests ++ [mem] } where
  requests := by
    intro other inside
    rcases List.mem_append.mp inside with old | new
    · exact before.requests other old
    · rw [List.mem_singleton.mp new]
      obtain ⟨statement, -, asked, mirrors⟩ := onRequest_mirrors request mem taken succeeds
      refine ⟨command, copy, statement, taken, asked, mirrors, ?_⟩
      rw [key_of_mirrors member mirrors named]
      exact listed
  store := before.store

/-- A command leaves a value only under its own key and where there was one. -/
theorem keysHeld_redis {keys : List Bytes} {store : Store} {command : RedisCommand} {statement : TableWrite}
    (held : KeysHeld keys store) (mirrors : Mirrors command statement) (listed : statement.key ∈ keys) :
    KeysHeld keys (redis store command).1 := by
  intro szTable member key holds
  by_cases isKey : key = statement.key
  · rw [isKey]
    exact listed
  · apply held szTable member
    cases mirrors with
    | set member' key' value =>
        have other : redisKey szTable key ≠ redisKey _ key' := fun same =>
          isKey (redisKey_inj (not_underlined _ member) (not_underlined _ member') same).2
        simpa only [redis, Function.update_of_ne other] using holds
    | del member' key' =>
        have other : redisKey szTable key ≠ redisKey _ key' := fun same =>
          isKey (redisKey_inj (not_underlined _ member) (not_underlined _ member') same).2
        simpa only [redis, Function.update_of_ne other] using holds

/-- A collation that tells the keys of the list apart tells a statement on one of them apart from what Redis holds. -/
theorem apart_of_keys {keys : List Bytes}
    (distinct : ∀ key ∈ keys, ∀ other ∈ keys, sameKey key other = true → key = other) {store : Store}
    (held : KeysHeld keys store) {statement : TableWrite} (listed : statement.key ∈ keys) :
    Apart sameKey store statement := by
  intro szTableName member _ key other hit
  by_contra holds
  exact other (distinct key (held szTableName member key holds) statement.key listed hit)

/-- The step lemma. -/
theorem keysOnly_step {keys : List Bytes} {s t : Workers} {action : WorkerAction} (before : KeysOnly keys s)
    (withKeys : WithKeys keys action) (step : workerStep sameKey s action = some t) : KeysOnly keys t := by
  cases action with
  | pushRedisSet fresh szTableName szKey szValue =>
      obtain ⟨member, result⟩ := Option.ite_none_right_eq_some.mp step
      cases result
      obtain ⟨listed, shortKey, shortValue⟩ := withKeys
      have request := names_createSetBuffer fresh member szKey szValue
      have keyLength : szKey.length < 2 ^ 32 := by
        simp only [redisKey, List.length_append, List.length_cons] at shortKey
        omega
      have taken := onRequest_createSetBuffer fresh (createSetBuffer fresh szTableName szKey szValue) member keyLength
        (by omega : szValue.length < 2 ^ 32)
      exact keysOnly_push before ⟨szTableName, member, Or.inl request⟩ member taken ⟨shortKey, shortValue⟩
        (Or.inr ⟨szValue, rfl⟩) listed
  | pushRedisDel fresh szTableName szKey =>
      obtain ⟨member, result⟩ := Option.ite_none_right_eq_some.mp step
      cases result
      obtain ⟨listed, shortKey⟩ := withKeys
      have request := names_createDelBuffer fresh member szKey
      have keyLength : szKey.length < 2 ^ 32 := by
        simp only [redisKey, List.length_append, List.length_cons] at shortKey
        omega
      have taken := onRequest_createDelBuffer fresh (createDelBuffer fresh szTableName szKey) member keyLength
      exact keysOnly_push before ⟨szTableName, member, Or.inr request⟩ member taken shortKey (Or.inl rfl) listed
  | redisWorker fresh =>
      cases queue : s.redisRequests with
      | nil => simp [workerStep, queue] at step
      | cons pBuffer redisRequests =>
          simp only [workerStep, queue] at step
          obtain ⟨⟨command, copy⟩, taken, executed⟩ := Option.bind_eq_some_iff.mp step
          obtain ⟨-, result⟩ := Option.ite_none_right_eq_some.mp executed
          cases result
          have requests := before.requests
          rw [queue, List.forall_mem_cons] at requests
          obtain ⟨command', copy', statement, taken', asked, mirrors, listed⟩ := requests.1
          have same := onRequest_command fresh pBuffer pBuffer
          rw [taken, taken', Option.map_some, Option.map_some] at same
          obtain rfl : command = command' := Option.some.inj same
          exact ⟨requests.2, keysHeld_redis before.store mirrors listed⟩
  | mysqlWorker =>
      cases queue : s.mysqlRequests with
      | nil => simp [workerStep, queue] at step
      | cons pBuffer mysqlRequests =>
          simp only [workerStep, queue] at step
          obtain ⟨statement, -, result⟩ := Option.map_eq_some_iff.mp step
          cases result
          exact ⟨before.requests, before.store⟩

/-- Where the collation tells the keys of the requests apart, every request is told apart when Redis takes it. -/
theorem guarded_of_keys {keys : List Bytes} (distinct : ∀ key ∈ keys, ∀ other ∈ keys, sameKey key other = true → key = other)
    {s : Workers} {actions : List WorkerAction} (before : KeysOnly keys s)
    (withKeys : ∀ action ∈ actions, WithKeys keys action) :
    Guarded (workerStep sameKey) (TellsApart sameKey) s actions := by
  induction actions generalizing s with
  | nil => trivial
  | cons action actions ih =>
      rw [List.forall_mem_cons] at withKeys
      refine ⟨?_, fun t step => ih (keysOnly_step before withKeys.1 step) withKeys.2⟩
      cases action with
      | redisWorker fresh =>
          intro pBuffer first statement asked
          obtain ⟨command, copy, statement', -, asked', -, listed⟩ :=
            before.requests pBuffer (List.mem_of_mem_head? first)
          obtain rfl : statement = statement' := Option.some.inj (asked.symm.trans asked')
          exact apart_of_keys distinct before.store listed
      | pushRedisSet _ _ _ _ => trivial
      | pushRedisDel _ _ _ => trivial
      | mysqlWorker => trivial

end Runs

/-! ### A collation that ignores case -/

/-- A lower case letter and the upper case letter are one. -/
def lowerCase (b : UInt8) : UInt8 := if 65 ≤ b ∧ b ≤ 90 then b + 32 else b

/-- How `VARCHAR(333) CHARACTER SET utf8`, the column of `CreateHashTable`, compares letters and digits. -/
def sameLetters (key other : Bytes) : Bool := key.map lowerCase == other.map lowerCase

theorem sameLetters_self (key : Bytes) : sameLetters key key = true := beq_self_eq_true _

/-- Nothing is stored and nothing waits. -/
def noWork : Workers := ⟨[], [], fun _ => none, fun _ => []⟩

theorem agree_noWork : Agree noWork.store noWork.tables := by
  intro szTable member key value
  simp [noWork]

/-- A key of `account` with an underscore, and a key of `global` that is deleted again, with the MySQL worker behind. -/
def exampleActions : List WorkerAction :=
  [.pushRedisSet (fun _ => 7) [97, 99, 99, 111, 117, 110, 116] [97, 95, 98] [49],
    .pushRedisSet (fun _ => 0) [103, 108, 111, 98, 97, 108] [98] [50],
    .redisWorker (fun _ => 3), .pushRedisDel (fun _ => 9) [103, 108, 111, 98, 97, 108] [98],
    .redisWorker (fun _ => 5), .mysqlWorker, .redisWorker (fun _ => 0), .mysqlWorker, .mysqlWorker]

theorem mysql_mirrors_redis_example :
    ∃ t, runSteps (workerStep sameLetters) noWork exampleActions = some t ∧ Agree t.store t.tables := by
  have drains : (runSteps (workerStep sameLetters) noWork exampleActions).map
      (fun t => (t.redisRequests.length, t.mysqlRequests.length)) = some (0, 0) := by
    decide +kernel
  obtain ⟨t, run, lengths⟩ := Option.map_eq_some_iff.mp drains
  obtain ⟨redisLength, mysqlLength⟩ := Prod.mk.inj lengths
  have before : KeysOnly [[97, 95, 98], [98]] noWork :=
    ⟨fun mem member => absurd member List.not_mem_nil, fun _ _ _ holds => absurd rfl holds⟩
  have apart : Guarded (workerStep sameLetters) (TellsApart sameLetters) noWork exampleActions :=
    guarded_of_keys (by decide) before (by decide)
  exact ⟨t, run, mysql_mirrors_redis sameLetters_self ⟨rfl, rfl⟩ agree_noWork apart run
    ⟨List.length_eq_zero_iff.mp redisLength, List.length_eq_zero_iff.mp mysqlLength⟩⟩

def register : Bytes := [114, 101, 103, 105, 115, 116, 101, 114]

/-- The request for a key of `register`. -/
def setOfRegister (szKey szValue : Bytes) : Memory := createSetBuffer (fun _ => 0) register szKey szValue

/-- The keys a and A of `register`. -/
def sameLetterActions : List WorkerAction :=
  [.pushRedisSet (fun _ => 0) register [97] [49], .pushRedisSet (fun _ => 0) register [65] [50],
    .redisWorker (fun _ => 0), .mysqlWorker, .redisWorker (fun _ => 0), .mysqlWorker]

/-- MySQL keeps one row for both keys, with the value of the second. -/
theorem not_agree_of_same_letters :
    ∃ t, runSteps (workerStep sameLetters) noWork sameLetterActions = some t ∧
      t.redisRequests = [] ∧ t.mysqlRequests = [] ∧ ¬ Agree t.store t.tables := by
  have first : KMysqlClient.onRequest (KRedisClient.mirrorSet (fun _ => 0) (setOfRegister [97] [49])) =
      some (.set (globalTableNamePrefix ++ register) [97] [49]) := by decide +kernel
  have second : KMysqlClient.onRequest (KRedisClient.mirrorSet (fun _ => 0) (setOfRegister [65] [50])) =
      some (.set (globalTableNamePrefix ++ register) [65] [50]) := by decide +kernel
  have taken : ∀ szKey szValue : Bytes, szKey.length < 2 ^ 32 → szValue.length < 2 ^ 32 →
      KRedisClient.onRequest (fun _ => 0) (setOfRegister szKey szValue) =
        some (.set (redisKey register szKey) szValue, KRedisClient.mirrorSet (fun _ => 0) (setOfRegister szKey szValue)) :=
    fun szKey szValue shortKey shortValue =>
      onRequest_createSetBuffer (fun _ => 0) (fun _ => 0) (by decide) shortKey shortValue
  let store : Store := (redis (redis noWork.store (.set (redisKey register [97]) [49])).1
    (.set (redisKey register [65]) [50])).1
  let tables : Tables := execute sameLetters (execute sameLetters noWork.tables
    (.set (globalTableNamePrefix ++ register) [97] [49])) (.set (globalTableNamePrefix ++ register) [65] [50])
  refine ⟨⟨[], [], store, tables⟩, ?_, rfl, rfl, fun agree => ?_⟩
  · have here : register ∈ mirroredTables := by decide
    have takes : ∀ szKey szValue : Bytes, szKey.length = 1 → szValue.length = 1 →
        RedisTakes (.set (redisKey register szKey) szValue) := by
      intro szKey szValue shortKey shortValue
      simp [RedisTakes, redisKey, shortKey, shortValue, register]
    simp only [sameLetterActions, runSteps, workerStep, noWork, if_pos here, Option.bind_some, List.nil_append,
      List.cons_append]
    rw [← setOfRegister, ← setOfRegister, taken _ _ (by decide) (by decide)]
    simp only [Option.bind_some, if_pos (takes [97] [49] rfl rfl), List.nil_append, first, Option.map_some]
    rw [taken _ _ (by decide) (by decide)]
    simp only [Option.bind_some, if_pos (takes [65] [50] rfl rfl), second, Option.map_some]
    rfl
  · have row := (agree register (by decide) [97] [49]).mp (by decide)
    exact absurd row (by decide)

end GameServer.Db.Mirror
