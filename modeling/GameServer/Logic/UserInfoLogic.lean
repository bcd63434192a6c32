/-
Module: GameServer.Logic.UserInfoLogic
Purpose: The handlers of profile requests, as functions of the record they are made for.
Trusted boundary: numbers are whole
Main exports: ErrorCode, ProfileHandler, updateAvatar, updateSex
-/
import GameServer.Script.UserRecord

namespace GameServer.Logic

open Lib Script

/-- The codes that the handlers return; `fail` is `false`. -/
inductive ErrorCode where
  | ok
  | unknownError
  | paramterError
  | userNoRegister
  | asynEvent
  | inviterRequestIsNull
  | friendIdIsOneself
  | avatarIdIsOutOfRange
  | sexIsOutOfRange
  | fail
deriving Repr, DecidableEq

/-- The handler of a profile request: it answers with an error code, or makes changes and answers OK. -/
abbrev ProfileHandler := UserRecord → Except ErrorCode (List Change)

/-- The test of a number's range, and the assignment when the value is a new one, that `UpdateAvatar` and
`UpdateSex` share. -/
def updateNumber (strField : String) (inRange : Int → Bool) (outOfRange : ErrorCode) (value : LuaValue) :
    ProfileHandler := fun gameData =>
  match value with
  | .number n =>
      if ¬ inRange n then .error outOfRange
      else if gameData.baseInfo strField ≠ value then .ok [.setBaseInfo strField value]
      else .ok []
  | _ => .error .paramterError

/-- `UpdateAvatar`. -/
def updateAvatar : LuaValue → ProfileHandler :=
  updateNumber "Avatar" (fun n => !(n < 0 || n > 15)) .avatarIdIsOutOfRange

/-- `UpdateSex`. -/
def updateSex : LuaValue → ProfileHandler :=
  updateNumber "Sex" (fun n => !(n ≠ 0 && n ≠ 1)) .sexIsOutOfRange

end GameServer.Logic
