/-
Module: GameServer.Db.SqlText
Purpose: The statements that the MySQL worker writes into its buffer, how much of the buffer they take, and how
  large the buffer is by then.
Trusted boundary: `mysql_real_escape_string` writes at most two bytes for each byte, and a NUL
Main exports: SqlPart, redisHashTableSet, redisHashTableDel, redisHashTableGet, fits_iff_textLength, sqlText_fits_iff
-/
import GameServer.Db.RequestBuffers

namespace GameServer.Db.Sql

open Requests

/-- The bytes of an ASCII text. -/
def ascii (text : String) : Bytes := text.toList.map fun c => UInt8.ofNat c.toNat

/-- `sizeof` of a string literal. -/
def sizeofText (text : String) : Nat := text.length + 1

/-! ## Writing at the cursor

A statement is put together piece by piece; how far a piece reaches depends on the escaping.
-/

/-- A call that writes at `pCurWritePos` and moves it on. -/
inductive SqlPart where
  /-- `sprintf` of a text without conversions. -/
  | sprintf (text : Bytes)
  | memcpy (src : Bytes)
  /-- `mysql_real_escape_string`. -/
  | escape (src : Bytes)
  /-- `*pCurWritePos++ = c`. -/
  | put (c : UInt8)
deriving Repr, DecidableEq

/-- What a statement is written into, and how. -/
structure SqlText where
  /-- `m_uBuffLen` when the writing starts. -/
  uBuffLen : Nat
  parts : List SqlPart
deriving Repr, DecidableEq

section Writes

-- what `mysql_real_escape_string` makes of a string on the connection, without the NUL
variable (escape : Bytes → Bytes)

/-- The bytes that a part adds to the text. -/
def SqlPart.text : SqlPart → Bytes
  | .sprintf text => text
  | .memcpy src => src
  | .escape src => escape src
  | .put c => [c]

/-- The bytes that a part writes: some end with a NUL, which the next part overwrites. -/
def SqlPart.written : SqlPart → Bytes
  | .sprintf text => text ++ [0]
  | .memcpy src => src
  | .escape src => escape src ++ [0]
  | .put c => [c]

/-- What a part adds to `pCurWritePos`: the length of an escaped string is taken as an `unsigned int`. -/
def SqlPart.advance : SqlPart → Nat
  | .sprintf text => text.length
  | .memcpy src => src.length
  | .escape src => (escape src).length % 2 ^ 32
  | .put _ => 1

/-- The writes, each at its place. -/
def writesAt : (pCurWritePos : Nat) → List SqlPart → List (Nat × Bytes)
  | _, [] => []
  | pCurWritePos, part :: parts =>
      (pCurWritePos, part.written escape) ::
        writesAt (pCurWritePos + part.advance escape) parts

/-- Every byte is written into the buffer. -/
def SqlText.Fits (sql : SqlText) : Prop :=
  ∀ write ∈ writesAt escape 0 sql.parts, ∀ i < write.2.length, write.1 + i < sql.uBuffLen

def textLength (parts : List SqlPart) : Nat := (parts.map fun part => (part.text escape).length).sum

end Writes

/-! ## The statements

The three statements, each with its own estimate of how long it will be.
-/

/-- `GLOBAL_TABLE_NAME_PREFIX` or `HASH_TABLE_NAME_PREFIX`, which both have 3 bytes. -/
def tableNamePrefix (rsTableName : KTableName) : Bytes := if rsTableName.bGlobal then ascii "gt_" else ascii "ht_"

def globalTableNamePrefixLen : Nat := 3

/-- A new buffer where the estimate is larger than the old one. -/
def resized (m_uBuffLen uSQLLen : Nat) : Nat := if uSQLLen > m_uBuffLen then uSQLLen else m_uBuffLen

/-- `s_uUpdateFixedLen`. -/
def updateFixedLen : Nat := sizeofText "INSERT INTO (key_name,data) values('','') ON DUPLICATE KEY UPDATE data='' "

/-- `s_uDeleteFixedLen`. -/
def deleteFixedLen : Nat := sizeofText "DELETE FROM  where key_name=''"

/-- The buffer and the statement of `_RedisHashTableSet`. -/
def redisHashTableSet (m_uBuffLen : Nat) (rsTableName : KTableName) (pcszKey pcszData : Bytes) : SqlText :=
  let uSQLLen := (updateFixedLen + pcszKey.length + pcszData.length * 4) % 2 ^ 32
  { uBuffLen := resized m_uBuffLen uSQLLen
    parts :=
      [.sprintf (ascii "INSERT "), .memcpy (tableNamePrefix rsTableName), .memcpy rsTableName.name,
        .sprintf (ascii " (key_name,data) values('"), .escape pcszKey, .sprintf (ascii "','")] ++
      (if 0 < pcszData.length then [.escape pcszData] else []) ++
      [.sprintf (ascii "') ON DUPLICATE KEY UPDATE data='")] ++
      (if 0 < pcszData.length then [.escape pcszData] else []) ++ [.put 39] }

/-- The buffer and the statement of `_RedisHashTableDel`. -/
def redisHashTableDel (m_uBuffLen : Nat) (rsTableName : KTableName) (pcszKey : Bytes) : SqlText :=
  let uSQLLen := (deleteFixedLen + pcszKey.length + rsTableName.name.length + globalTableNamePrefixLen) % 2 ^ 32
  { uBuffLen := resized m_uBuffLen uSQLLen
    parts :=
      [.sprintf (ascii "DELETE FROM "), .memcpy (tableNamePrefix rsTableName), .memcpy rsTableName.name,
        .sprintf (ascii " where key_name='"), .escape pcszKey] ++ [.put 39] }

/-- The buffer and the statement of `_RedisHashTableGet`, which only reports an estimate that is too large. -/
def redisHashTableGet (m_uBuffLen : Nat) (rsTableName : KTableName) (pcszKey : Bytes) : SqlText :=
  { uBuffLen := m_uBuffLen
    parts :=
      [.sprintf (ascii "SELECT data FROM "), .memcpy (tableNamePrefix rsTableName), .memcpy rsTableName.name,
        .sprintf (ascii " WHERE key_name='"), .escape pcszKey] ++ [.put 39] }

/-! ## How much is written

The last byte that is written, against the size of the buffer.
-/

section Fits

variable {escape : Bytes → Bytes}

theorem textLength_cons (part : SqlPart) (parts : List SqlPart) :
    textLength escape (part :: parts) = (part.text escape).length + textLength escape parts := by
  rw [textLength, List.map_cons, List.sum_cons]
  rfl

@[simp] theorem textLength_nil : textLength escape [] = 0 := rfl

theorem textLength_append (parts more : List SqlPart) :
    textLength escape (parts ++ more) = textLength escape parts + textLength escape more := by
  rw [textLength, List.map_append, List.sum_append]
  rfl

/-- A part writes its text and at most one byte behind it. -/
theorem written_length (escape : Bytes → Bytes) (part : SqlPart) :
    (part.text escape).length ≤ (part.written escape).length ∧
      (part.written escape).length ≤ (part.text escape).length + 1 := by
  cases part <;> simp [SqlPart.text, SqlPart.written]

/-- A text that ends with a single character takes as many bytes as it has. -/
theorem writesAt_inside_iff {parts : List SqlPart} {limit : Nat} (c : UInt8)
    (small : ∀ src, .escape src ∈ parts → (escape src).length < 2 ^ 32) (pCurWritePos : Nat) :
    (∀ write ∈ writesAt escape pCurWritePos (parts ++ [.put c]), ∀ i < write.2.length, write.1 + i < limit) ↔
      pCurWritePos + textLength escape (parts ++ [.put c]) ≤ limit := by
  induction parts generalizing pCurWritePos with
  | nil =>
      simp [writesAt, SqlPart.written, textLength, SqlPart.text]
  | cons part parts ih =>
      have moved : part.advance escape = (part.text escape).length := by
        cases part with
        | escape src => exact Nat.mod_eq_of_lt (small src List.mem_cons_self)
        | _ => rfl
      have later : ∀ src, .escape src ∈ parts → (escape src).length < 2 ^ 32 :=
        fun src member => small src (List.mem_cons_of_mem _ member)
      have bounds := written_length escape part
      have last : 1 ≤ textLength escape (parts ++ [.put c]) := by
        rw [textLength_append]
        exact Nat.le_add_left _ _
      rw [List.cons_append, writesAt, List.forall_mem_cons, moved, ih later, textLength_cons]
      constructor
      · intro inside
        have rest := inside.2
        omega
      · intro ends
        refine ⟨?_, by omega⟩
        intro i before
        simp only at before ⊢
        omega

/-- The buffer is as large as the estimate. -/
theorem resized_eq_max (m_uBuffLen uSQLLen : Nat) : resized m_uBuffLen uSQLLen = max m_uBuffLen uSQLLen := by
  rw [resized]
  split <;> omega

theorem length_tableNamePrefix (rsTableName : KTableName) :
    (tableNamePrefix rsTableName).length = globalTableNamePrefixLen := by
  rw [tableNamePrefix]
  split <;> rfl

theorem escape_nil (escape_le : ∀ s, (escape s).length ≤ 2 * s.length) : (escape []).length = 0 :=
  Nat.le_zero.mp (escape_le [])

/-- Data that is empty is not escaped, which makes no difference. -/
theorem textLength_data (escape_le : ∀ s, (escape s).length ≤ 2 * s.length) (pcszData : Bytes) :
    textLength escape (if 0 < pcszData.length then [.escape pcszData] else []) = (escape pcszData).length := by
  split
  · rfl
  · next empty =>
    have none : pcszData = [] := List.length_eq_zero_iff.mp (Nat.eq_zero_of_not_pos empty)
    rw [none, escape_nil escape_le]
    rfl

variable {m_uBuffLen : Nat} {rsTableName : KTableName} {pcszKey pcszData : Bytes}

/-- The estimate has room for the data at both places, escaped; it counts neither the name of the table nor what
escaping adds to the key. -/
theorem redisHashTableSet_fits_iff (escape_le : ∀ s, (escape s).length ≤ 2 * s.length)
    (sum : updateFixedLen + pcszKey.length + pcszData.length * 4 < 2 ^ 32) (key : (escape pcszKey).length < 2 ^ 32) :
    (redisHashTableSet m_uBuffLen rsTableName pcszKey pcszData).Fits escape ↔
      72 + rsTableName.name.length + (escape pcszKey).length + 2 * (escape pcszData).length ≤
        max m_uBuffLen (75 + pcszKey.length + 4 * pcszData.length) := by
  have fixed : updateFixedLen = 75 := by decide
  have texts : (ascii "INSERT ").length = 7 ∧ (ascii " (key_name,data) values('").length = 25 ∧
      (ascii "','").length = 3 ∧ (ascii "') ON DUPLICATE KEY UPDATE data='").length = 33 := by decide
  rw [SqlText.Fits, redisHashTableSet, writesAt_inside_iff, resized_eq_max, Nat.mod_eq_of_lt sum]
  · simp only [textLength_append, textLength_cons, textLength_nil, textLength_data escape_le, SqlPart.text,
      length_tableNamePrefix, fixed, texts, globalTableNamePrefixLen, List.length_singleton]
    omega
  · intro src member
    have escaped : src = pcszKey ∨ src = pcszData := by
      simp only [List.mem_append, List.mem_cons, List.mem_ite_nil_right, reduceCtorEq, List.not_mem_nil,
        SqlPart.escape.injEq, false_or, or_false] at member
      tauto
    rcases escaped with same | same
    · rwa [same]
    · have data := escape_le pcszData
      rw [same]
      omega

/-- Here the name is counted, but not what escaping adds to the key. -/
theorem redisHashTableDel_fits_iff
    (sum : deleteFixedLen + pcszKey.length + rsTableName.name.length + globalTableNamePrefixLen < 2 ^ 32)
    (key : (escape pcszKey).length < 2 ^ 32) :
    (redisHashTableDel m_uBuffLen rsTableName pcszKey).Fits escape ↔
      33 + rsTableName.name.length + (escape pcszKey).length ≤
        max m_uBuffLen (34 + rsTableName.name.length + pcszKey.length) := by
  have fixed : deleteFixedLen = 31 := by decide
  have texts : (ascii "DELETE FROM ").length = 12 ∧ (ascii " where key_name='").length = 17 := by decide
  rw [SqlText.Fits, redisHashTableDel, writesAt_inside_iff, resized_eq_max, Nat.mod_eq_of_lt sum]
  · simp only [textLength_append, textLength_cons, textLength_nil, SqlPart.text, length_tableNamePrefix, fixed, texts,
      globalTableNamePrefixLen, List.length_singleton]
    omega
  · intro src member
    have same : src = pcszKey := by simpa using member
    rwa [same]

/-- Here the estimate is only reported. -/
theorem redisHashTableGet_fits_iff (key : (escape pcszKey).length < 2 ^ 32) :
    (redisHashTableGet m_uBuffLen rsTableName pcszKey).Fits escape ↔
      38 + rsTableName.name.length + (escape pcszKey).length ≤ m_uBuffLen := by
  have texts : (ascii "SELECT data FROM ").length = 17 ∧ (ascii " WHERE key_name='").length = 17 := by decide
  rw [SqlText.Fits, redisHashTableGet, writesAt_inside_iff]
  · simp only [textLength_append, textLength_cons, textLength_nil, SqlPart.text, length_tableNamePrefix, texts,
      globalTableNamePrefixLen, List.length_singleton]
    omega
  · intro src member
    have same : src = pcszKey := by simpa using member
    rwa [same]

end Fits

/-- A statement fits its buffer if and only if its text, the key and twice the data escaped, is no longer than the old
buffer or the estimate: SET's leaves out the table, its prefix and what escaping adds to the key, DEL's only the latter,
and GET has only the old buffer. -/
theorem sqlText_fits_iff {escape : Bytes → Bytes} (escape_le : ∀ s, (escape s).length ≤ 2 * s.length)
    (m_uBuffLen : Nat) {rsTableName : KTableName} {pcszKey pcszData : Bytes}
    (setSum : updateFixedLen + pcszKey.length + pcszData.length * 4 < 2 ^ 32)
    (delSum : deleteFixedLen + pcszKey.length + rsTableName.name.length + globalTableNamePrefixLen < 2 ^ 32)
    (key : (escape pcszKey).length < 2 ^ 32) :
    ((redisHashTableSet m_uBuffLen rsTableName pcszKey pcszData).Fits escape ↔
        72 + rsTableName.name.length + (escape pcszKey).length + 2 * (escape pcszData).length ≤
          max m_uBuffLen (75 + pcszKey.length + 4 * pcszData.length)) ∧
      ((redisHashTableDel m_uBuffLen rsTableName pcszKey).Fits escape ↔
        33 + rsTableName.name.length + (escape pcszKey).length ≤
          max m_uBuffLen (34 + rsTableName.name.length + pcszKey.length)) ∧
      ((redisHashTableGet m_uBuffLen rsTableName pcszKey).Fits escape ↔
        38 + rsTableName.name.length + (escape pcszKey).length ≤ m_uBuffLen) :=
  ⟨redisHashTableSet_fits_iff escape_le setSum key, redisHashTableDel_fits_iff delSum key,
    redisHashTableGet_fits_iff key⟩

/-- NUL, newline, carriage return, Ctrl-Z, the quotes and the backslash get a backslash. -/
def escapeString (from' : Bytes) : Bytes :=
  from'.flatMap fun b =>
    if b = 0 then [92, 48] else if b = 10 then [92, 110] else if b = 13 then [92, 114] else if b = 26 then [92, 90]
    else if b = 34 ∨ b = 39 ∨ b = 92 then [92, b] else [b]

/-- Escaping at most doubles a string. -/
theorem length_escapeString_le (s : Bytes) : (escapeString s).length ≤ 2 * s.length := by
  induction s with
  | nil => exact Nat.le_refl _
  | cons b s ih =>
      have one : (escapeString (b :: s)).length ≤ 2 + (escapeString s).length := by
        rw [escapeString, List.flatMap_cons, List.length_append]
        apply Nat.add_le_add_right
        split_ifs <;> simp
      rw [List.length_cons]
      omega

theorem sqlText_fits_iff_example :
    (redisHashTableSet 51200 ⟨true, ascii "account"⟩ (ascii "it's") [0, 255]).Fits escapeString ∧
      (redisHashTableGet 51200 ⟨true, ascii "account"⟩ (ascii "it's")).Fits escapeString := by
  have setSum : updateFixedLen + (ascii "it's").length + [(0 : UInt8), 255].length * 4 < 2 ^ 32 := by decide
  have delSum : deleteFixedLen + (ascii "it's").length + (KTableName.mk true (ascii "account")).name.length +
      globalTableNamePrefixLen < 2 ^ 32 := by decide
  have key : (escapeString (ascii "it's")).length < 2 ^ 32 := by decide
  obtain ⟨set, -, get⟩ := sqlText_fits_iff length_escapeString_le 51200 setSum delSum key
  exact ⟨set.mpr (by decide), get.mpr (by decide)⟩

/-- It doubles a string of quotes. -/
theorem length_escapeString_quotes (n : Nat) : (escapeString (List.replicate n 39)).length = 2 * n := by
  induction n with
  | zero => rfl
  | succ n ih =>
      have quote : escapeString (List.replicate (n + 1) 39) = [92, 39] ++ escapeString (List.replicate n 39) := rfl
      rw [quote, List.length_append, ih, List.length_cons, List.length_singleton]
      omega

/-- 20000 quotes as the data of key 1 of the table `account`: 80080 bytes go to 80076. -/
theorem quoted_data_overruns :
    ¬ (redisHashTableSet 51200 ⟨true, ascii "account"⟩ [49] (List.replicate 20000 39)).Fits escapeString := by
  have table : (ascii "account").length = 7 := by decide
  have key : (escapeString [49]).length = 1 := by decide
  have data := length_escapeString_quotes 20000
  have fixed : updateFixedLen = 75 := by decide
  rw [redisHashTableSet_fits_iff length_escapeString_le, key, data, table, List.length_replicate]
  · decide
  · rw [fixed, List.length_replicate]
    decide
  · rw [key]
    decide

end GameServer.Db.Sql
