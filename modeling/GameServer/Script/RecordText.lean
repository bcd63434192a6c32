/-
Module: GameServer.Script.RecordText
Purpose: What becomes of numbers, records and keys that are handed on as text, between the servers and to Redis.
Trusted boundary: the layout of a stored record is not in the repository, so how it is read back is a parameter, with
  what the module `json` gives for it; user ids have no NUL where they are no keys
Main exports: redisKey, NoNul, redisKey_eq, IsPlain, UserRecord.IsPlain, Wire, Wire.plain, DbCommand.ReadBack
-/
import GameServer.Lib.Rounding
import GameServer.Script.UserRecord

namespace GameServer.Script

open Lib

/-! ## Keys

The binding hands a key to Redis as a C string.
-/

/-- The key that Redis is asked for: the binding hands over a C string, so a NUL and what is behind it are lost. -/
def redisKey (strKey : String) : String := String.ofList (strKey.toList.takeWhile (· ≠ '\x00'))

/-- The string has no NUL. -/
def NoNul (str : String) : Prop := '\x00' ∉ str.toList

instance (str : String) : Decidable (NoNul str) := inferInstanceAs (Decidable (¬ _))

theorem redisKey_eq {strKey : String} (noNul : NoNul strKey) : redisKey strKey = strKey := by
  have all : strKey.toList.takeWhile (· ≠ '\x00') = strKey.toList := by
    refine List.takeWhile_eq_self_iff.mpr fun c member => ?_
    rw [decide_eq_true_iff]
    rintro rfl
    exact noNul member
  rw [redisKey, all, String.ofList_toList]

/-! ## Records

A record is stored, and sent, as the text of `json.encode`.  The binding takes it up to its first NUL, and `json.decode`
does not read a string with a carriage return in it; a number is written with 14 digits.
-/

/-- A string that is read back as it was. -/
def IsPlain (str : String) : Prop := NoNul str ∧ '\r' ∉ str.toList

/-- A value of a field that is read back as it was. -/
def LuaValue.IsPlain : LuaValue → Prop
  | .nil | .boolean _ => True
  | .number n => n.natAbs ≤ 10 ^ 14
  | .string s => Script.IsPlain s
  | .table _ => False

/-- A record that is read back as it was: the gold is a whole number of at most 14 digits, and so are the numbers of its
fields, and no string has a NUL or a carriage return.  The field `n` is the length of a list to the module `json`. -/
structure UserRecord.IsPlain (gameData : UserRecord) : Prop where
  gold : ∃ nGold : ℤ, gameData.gold = nGold ∧ nGold.natAbs ≤ 10 ^ 14
  baseInfo : ∀ strField, (gameData.baseInfo strField).IsPlain ∧
    (gameData.baseInfo strField ≠ .nil → Script.IsPlain strField ∧ strField ≠ "n")
  friends : ∀ strUserId, gameData.friendRequest strUserId ∨ gameData.friendList strUserId →
    Script.IsPlain strUserId ∧ strUserId ≠ "n"

/-- How the servers calculate, and what the other side reads of what they write: `text` gives the number, and `record`
the record, that is read where one was written, or none where the text is not read. -/
structure Wire extends Numbers where
  record : UserRecord → Option UserRecord
  record_plain : ∀ gameData, gameData.IsPlain → record gameData = some gameData

/-- The numbers of Lua, and records that all are plain. -/
def Wire.plain : Wire where
  toNumbers := .binary64
  record := some
  record_plain _ _ := rfl

variable (wire : Wire)

/-- Redis executes a command, whose key is a C string and whose record is a text. -/
def DbCommand.runText (store : String → Option UserRecord) : DbCommand → String → Option UserRecord
  | .getValue _ => store
  | .setValue strKey gameData => Function.update store (redisKey strKey) (wire.record gameData)

/-- The key of the command has no NUL, and its record will be read as it is written. -/
def DbCommand.ReadBack : DbCommand → Prop
  | .getValue get => NoNul get.strKey
  | .setValue strKey gameData => NoNul strKey ∧ wire.record gameData = some gameData

variable {wire}

theorem DbCommand.ReadBack.of_plain {strKey : String} {gameData : UserRecord} (noNul : NoNul strKey)
    (plain : gameData.IsPlain) : (DbCommand.setValue strKey gameData).ReadBack wire :=
  ⟨noNul, wire.record_plain gameData plain⟩

/-- A command that is read back does what the record itself would do. -/
theorem DbCommand.ReadBack.runText_eq {command : DbCommand} (readBack : command.ReadBack wire)
    (store : String → Option UserRecord) : command.runText wire store = command.run store := by
  cases command with
  | getValue get => rfl
  | setValue strKey gameData =>
      obtain ⟨noNul, same⟩ := readBack
      rw [runText, run, redisKey_eq noNul, same]

end GameServer.Script
