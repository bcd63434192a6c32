/-
Module: GameServer.Db.MysqlSet
Purpose: How `_RedisHashTableSet` repeats its statement, and when it comes to an end.
Trusted boundary: the connection to the server holds; INSERT into a table that is missing is refused with
  `ER_NO_SUCH_TABLE`
Main exports: mysqlRealQuery, redisHashTableSet, createRedisHashTable, redisHashTableSet_finishes_iff
-/
import GameServer.Db.SqlText
import Mathlib.Logic.Function.Basic

namespace GameServer.Db.Sql

open Requests

/-! ## The server

Tables and rows, and what the two statements do to them.
-/

/-- The tables that exist, each with its rows: `data` by `key_name`. -/
structure Server where
  tables : Bytes → Option (Bytes → Option Bytes)

/-- The statements of the worker that change the server. -/
inductive Statement where
  /-- `INSERT ... ON DUPLICATE KEY UPDATE`. -/
  | insert (table key data : Bytes)
  /-- `CREATE TABLE IF NOT EXISTS`. -/
  | create (table : Bytes)
deriving Repr, DecidableEq

/-- `ER_NO_SUCH_TABLE`. -/
def erNoSuchTable : Nat := 1146

/-- `ER_DATA_TOO_LONG`, which stands for any other reason to refuse a row. -/
def erDataTooLong : Nat := 1406

section Queries

-- whether the server takes a row into a table that exists
variable (accepts : (table key data : Bytes) → Bool)

/-- The server after a statement, and `mysql_errno`. -/
def mysqlRealQuery (server : Server) : Statement → Server × Nat
  | .insert table key data =>
      match server.tables table with
      | none => (server, erNoSuchTable)
      | some rows =>
          if accepts table key data then
            (⟨Function.update server.tables table (some (Function.update rows key (some data)))⟩, 0)
          else (server, erDataTooLong)
  | .create table =>
      match server.tables table with
      | none => (⟨Function.update server.tables table (some fun _ => none)⟩, 0)
      | some _ => (server, 0)

/-- `_DoQuery`: the statement is repeated where the connection was lost, which it is not. -/
def doQuery (server : Server) (statement : Statement) : Server × Bool :=
  let (server, uMySQLErrorCode) := mysqlRealQuery accepts server statement
  (server, uMySQLErrorCode == 0)

/-! ## The request

The loop of `_RedisHashTableSet`, and the statement that would make a missing table, which is sent only if it is long.
-/

def KTableName.fullName (rsTableName : KTableName) : Bytes := tableNamePrefix rsTableName ++ rsTableName.name

/-- The loop of `_RedisHashTableSet`; none when it has not come to an end after so many queries. -/
def setLoop : (queries : Nat) → Server → (rsTableName : KTableName) → (key data : Bytes) → Option Server
  | 0, _, _, _, _ => none
  | queries + 1, server, rsTableName, key, data =>
      let (server, errno) := mysqlRealQuery accepts server (.insert (KTableName.fullName rsTableName) key data)
      -- the call of `CreateRedisHashTable` is commented out
      if errno = erNoSuchTable then setLoop queries server rsTableName key data else some server

/-- The result of `_RedisHashTableSet` and the server after it. -/
def redisHashTableSetRuns (queries : Nat) (server : Server) (rsTableName : KTableName) (key : Bytes) :
    (pcszData : Option Bytes) → Option (Bool × Server)
  | none => some (false, server)
  | some data => (setLoop accepts queries server rsTableName key data).map fun server => (true, server)

/-- `s_uQueryCreate`. -/
def queryCreate : Nat :=
  sizeofText ("CREATE TABLE IF NOT EXISTS %s (key_name VARCHAR(333) CHARACTER SET utf8 PRIMARY KEY, data LONGBLOB, " ++
    "modifytime TIMESTAMP DEFAULT CURRENT_TIMESTAMP ON UPDATE CURRENT_TIMESTAMP) CHARSET=utf8")

/-- `CreateRedisHashTable`. -/
def createRedisHashTable (server : Server) (rsTableName : KTableName) : Bool × Server :=
  let uLen := (queryCreate + rsTableName.name.length) % 2 ^ 32
  if uLen < 1024 then (false, server)
  else (true, (doQuery accepts server (.create (KTableName.fullName rsTableName))).1)

end Queries

/-! ## When it ends

For a table that is there the loop ends with the first query; for a missing one it goes round for ever.
-/

/-- The server has the row. -/
def Stored (server : Server) (rsTableName : KTableName) (key data : Bytes) : Prop :=
  ∃ rows, server.tables (KTableName.fullName rsTableName) = some rows ∧ rows key = some data

/-- It ends after some number of queries, and reports success only if the row is stored. -/
def Finishes (accepts : (table key data : Bytes) → Bool) (server : Server) (rsTableName : KTableName) (key : Bytes)
    (pcszData : Option Bytes) : Prop :=
  ∃ queries bResult after,
    redisHashTableSetRuns accepts queries server rsTableName key pcszData = some (bResult, after) ∧
    (bResult = true → ∃ data, pcszData = some data ∧ Stored after rsTableName key data)

section Loop

variable {accepts : (table key data : Bytes) → Bool} {server : Server} {rsTableName : KTableName} {key data : Bytes}

/-- Nothing creates the table between two queries. -/
theorem setLoop_of_missing (missing : server.tables (KTableName.fullName rsTableName) = none) (queries : Nat) :
    setLoop accepts queries server rsTableName key data = none := by
  induction queries with
  | zero => rfl
  | succ queries ih =>
      rw [setLoop, mysqlRealQuery, missing]
      exact ih

/-- A row goes into a table that is there, unless it is refused. -/
theorem insert_existing {rows : Bytes → Option Bytes} {table : Bytes} (present : server.tables table = some rows) :
    mysqlRealQuery accepts server (.insert table key data) =
      if accepts table key data then
        (⟨Function.update server.tables table (some (Function.update rows key (some data)))⟩, 0)
      else (server, erDataTooLong) := by
  rw [mysqlRealQuery, present]

/-- On a table that exists, one query is enough. -/
theorem setLoop_of_exists {rows : Bytes → Option Bytes}
    (present : server.tables (KTableName.fullName rsTableName) = some rows) (queries : Nat) :
    setLoop accepts (queries + 1) server rsTableName key data =
      some (mysqlRealQuery accepts server (.insert (KTableName.fullName rsTableName) key data)).1 := by
  rw [setLoop, insert_existing present]
  cases accepts (KTableName.fullName rsTableName) key data with
  | true => rfl
  | false => rfl

/-- Success means that the row is there. -/
theorem stored_insert_iff {rows : Bytes → Option Bytes}
    (present : server.tables (KTableName.fullName rsTableName) = some rows) :
    Stored (mysqlRealQuery accepts server (.insert (KTableName.fullName rsTableName) key data)).1 rsTableName key data ↔
      accepts (KTableName.fullName rsTableName) key data = true ∨ rows key = some data := by
  rw [insert_existing present]
  cases accepted : accepts (KTableName.fullName rsTableName) key data with
  | true => simp [Stored]
  | false => simp [Stored, present]

/-- `CreateRedisHashTable` would not have created a table either, whose name is not very long. -/
theorem createRedisHashTable_short (short : rsTableName.name.length < 800) :
    createRedisHashTable accepts server rsTableName = (false, server) := by
  have fixed : queryCreate ≤ 200 := by decide +kernel
  have uLen := Nat.mod_le (queryCreate + rsTableName.name.length) (2 ^ 32)
  rw [createRedisHashTable]
  exact if_pos (by omega)

end Loop

/-- It ends with the row stored if and only if there is no data, or the table exists and takes the row or has it. -/
theorem redisHashTableSet_finishes_iff (accepts : (table key data : Bytes) → Bool) (server : Server)
    (rsTableName : KTableName) (key : Bytes) (pcszData : Option Bytes) :
    Finishes accepts server rsTableName key pcszData ↔
      ∀ data, pcszData = some data → ∃ rows, server.tables (KTableName.fullName rsTableName) = some rows ∧
        (accepts (KTableName.fullName rsTableName) key data = true ∨ rows key = some data) := by
  constructor
  · intro ⟨queries, bResult, after, ends, reports⟩ data given
    subst given
    obtain ⟨last, looped, result⟩ := Option.map_eq_some_iff.mp ends
    cases result
    cases tables : server.tables (KTableName.fullName rsTableName) with
    | none =>
        rw [setLoop_of_missing tables] at looped
        cases looped
    | some rows =>
        cases queries with
        | zero => cases looped
        | succ queries =>
            rw [setLoop_of_exists tables] at looped
            cases looped
            obtain ⟨stored, same, row⟩ := reports rfl
            cases same
            exact ⟨rows, rfl, (stored_insert_iff tables).mp row⟩
  · intro takes
    cases pcszData with
    | none => exact ⟨0, false, server, rfl, fun success => by cases success⟩
    | some data =>
        obtain ⟨rows, tables, row⟩ := takes data rfl
        refine ⟨1, true, _, congrArg (Option.map _) (setLoop_of_exists tables 0), ?_⟩
        intro _
        exact ⟨data, rfl, (stored_insert_iff tables).mpr row⟩

/-- The first SET on a table that nobody has created is repeated for ever. -/
theorem missing_table_repeats :
    ¬ Finishes (fun _ _ _ => true) ⟨fun _ => none⟩ ⟨true, ascii "account"⟩ [49] (some [50]) := by
  intro ⟨queries, bResult, after, ends, _⟩
  rw [redisHashTableSetRuns, setLoop_of_missing rfl] at ends
  cases ends

end GameServer.Db.Sql
