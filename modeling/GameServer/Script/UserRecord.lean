/-
Module: GameServer.Script.UserRecord
Purpose: The game data of a user, which is stored and read as one value, the objects that hold it, and the part
  of `UserManager` that the logic and the room server share.
Trusted boundary: the class of user objects is not in the repository: its setters set a field,
  `AddFriendRequest`, `DelFriendRequest` and `AddToFriendList` add or remove one entry, and all of them mark the
  object dirty; gold is rational, where Lua has a double; a record that is stored is read back as it was, under
  the id it holds
Main exports: UserRecord, Change, UserRecord.apply, addToFriendList_commutes, UserObject, DbCommand,
  foldl_run_congr, foldl_run_of_mem, UserManager, commit_cases
-/
import Mathlib
import GameServer.Lib.Replay
import GameServer.Script.NetManager

namespace GameServer.Script

open Lib

/-! ## Game data

A record has the gold, the other fields, and the requests and friends of a user; a change is a call of one of the
methods.
-/

/-- The game data of a user.  The entries of `friendRequest` and `friendList` are user ids as `tostring`
writes them. -/
structure UserRecord where
  gold : ℚ
  baseInfo : String → LuaValue
  friendRequest : String → Bool
  friendList : String → Bool

/-- A call of a method of `UserData` that changes the game data. -/
inductive Change where
  | setGold (nVal : ℚ)
  | setBaseInfo (strField : String) (value : LuaValue)
  | addFriendRequest (strUserId : String)
  | delFriendRequest (strUserId : String)
  | addToFriendList (strUserId : String)
deriving DecidableEq

namespace UserRecord

/-- The fields that no method changed. -/
def initial : UserRecord where
  gold := 0
  baseInfo _ := .nil
  friendRequest _ := false
  friendList _ := false

def apply (gameData : UserRecord) : Change → UserRecord
  | .setGold nVal => { gameData with gold := nVal }
  | .setBaseInfo strField value =>
      { gameData with baseInfo := Function.update gameData.baseInfo strField value }
  | .addFriendRequest strUserId =>
      { gameData with friendRequest := Function.update gameData.friendRequest strUserId true }
  | .delFriendRequest strUserId =>
      { gameData with friendRequest := Function.update gameData.friendRequest strUserId false }
  | .addToFriendList strUserId =>
      { gameData with friendList := Function.update gameData.friendList strUserId true }

/-- Friends are only added, so it does not matter when. -/
theorem addToFriendList_commutes (strUserId : String) :
    Commutes apply (.addToFriendList strUserId) := by
  intro gameData d
  cases d with
  | addToFriendList other =>
      by_cases same : other = strUserId
      · rw [same]
      · simp only [apply]
        rw [Function.update_comm same]
  | _ => rfl

end UserRecord

/-! ## Objects

An object is a record with the mark that it was changed.
-/

structure UserObject where
  gameData : UserRecord
  bIsDirty : Bool

namespace UserObject

/-- `UserData:new`. -/
def new (gameData : UserRecord) : UserObject where
  gameData := gameData
  bIsDirty := false

def change (objUser : UserObject) (c : Change) : UserObject where
  gameData := objUser.gameData.apply c
  bIsDirty := true

def changes (objUser : UserObject) (cs : List Change) : UserObject := cs.foldl change objUser

theorem changes_cons (objUser : UserObject) (c : Change) (cs : List Change) :
    objUser.changes (c :: cs) = (objUser.change c).changes cs := rfl

@[simp] theorem gameData_changes (objUser : UserObject) (cs : List Change) :
    (objUser.changes cs).gameData = replay UserRecord.apply objUser.gameData cs := by
  induction cs generalizing objUser with
  | nil => rfl
  | cons c cs ih => rw [changes_cons, ih, replay_cons, change]

theorem bIsDirty_changes_of_dirty {objUser : UserObject} (dirty : objUser.bIsDirty = true)
    (cs : List Change) : (objUser.changes cs).bIsDirty = true := by
  induction cs generalizing objUser with
  | nil => exact dirty
  | cons c cs ih => exact ih rfl

/-- An object that was changed is dirty. -/
theorem bIsDirty_changes (objUser : UserObject) (cs : List Change) :
    cs = [] ∨ (objUser.changes cs).bIsDirty = true := by
  cases cs with
  | nil => exact Or.inl rfl
  | cons c cs => exact Or.inr (bIsDirty_changes_of_dirty rfl cs)

end UserObject

/-! ## Commands to the database

Redis executes the commands in turn; of several writes for a user the last one counts.
-/

/-- The events under which the logic server reads records. -/
inductive GameDataEvent where
  | logicGetGameData
  | addFriendGetGameData
  | getFriendInviterData
deriving Repr, DecidableEq

/-- `G_GameDataRedis:GetValue`: who asks, and whose record.  Users are named as `tostring` writes their ids. -/
structure GameDataGet where
  event : GameDataEvent
  nUserId : String
  strKey : String
deriving Repr, DecidableEq

inductive DbCommand where
  | getValue (get : GameDataGet)
  | setValue (strKey : String) (gameData : UserRecord)

/-- The stored records after a command. -/
def DbCommand.run (store : String → Option UserRecord) : DbCommand → String → Option UserRecord
  | .getValue _ => store
  | .setValue strKey gameData => Function.update store strKey (some gameData)

/-- What commands store for a user depends on what was stored for him. -/
theorem foldl_run_congr {store store' : String → Option UserRecord} {strUserId : String}
    (same : store strUserId = store' strUserId) (commands : List DbCommand) :
    commands.foldl DbCommand.run store strUserId = commands.foldl DbCommand.run store' strUserId := by
  induction commands generalizing store store' with
  | nil => exact same
  | cons command rest ih =>
      apply ih
      cases command with
      | getValue get => exact same
      | setValue strKey gameData =>
          by_cases his : strUserId = strKey
          · simp [DbCommand.run, his]
          · simp [DbCommand.run, his, same]

/-- When one of the commands writes his record, it does not depend on that. -/
theorem foldl_run_of_mem {strUserId : String} {commands : List DbCommand}
    (writes : ∃ gameData, DbCommand.setValue strUserId gameData ∈ commands)
    (store store' : String → Option UserRecord) :
    commands.foldl DbCommand.run store strUserId = commands.foldl DbCommand.run store' strUserId := by
  obtain ⟨gameData, writes⟩ := writes
  induction commands generalizing store store' with
  | nil => exact absurd writes (by simp)
  | cons command rest ih =>
      rcases List.mem_cons.mp writes with first | later
      · subst first
        exact foldl_run_congr (by simp [DbCommand.run]) rest
      · exact ih _ _ later

/-- When none of them does, what was stored stays. -/
theorem foldl_run_of_not_mem {strUserId : String} {commands : List DbCommand}
    (none : ¬ ∃ gameData, DbCommand.setValue strUserId gameData ∈ commands)
    (store : String → Option UserRecord) :
    commands.foldl DbCommand.run store strUserId = store strUserId := by
  induction commands generalizing store with
  | nil => rfl
  | cons command rest ih =>
      have later : ¬ ∃ gameData, DbCommand.setValue strUserId gameData ∈ rest := by
        rintro ⟨gameData, member⟩
        exact none ⟨gameData, List.mem_cons_of_mem command member⟩
      rw [List.foldl_cons, ih later]
      cases command with
      | getValue get => rfl
      | setValue strKey gameData =>
          have differs : strUserId ≠ strKey := by
            rintro rfl
            exact none ⟨gameData, List.mem_cons_self⟩
          exact Function.update_of_ne differs ..

/-! ## The user manager

The pool and the queue of commands, with the operations of `user_manager.lua`.
-/

/-- `UserManager`, with the commands that wait for Redis. -/
structure UserManager where
  userDataPool : String → Option UserObject
  commands : List DbCommand

namespace UserManager

/-- `ctor`. -/
def ctor : UserManager where
  userDataPool _ := none
  commands := []

variable (users : UserManager)

def push (command : DbCommand) : UserManager := { users with commands := users.commands ++ [command] }

/-- The object is the user's in the pool. -/
def putUserObject (strUserId : String) (objUser : UserObject) : UserManager :=
  { users with userDataPool := Function.update users.userDataPool strUserId (some objUser) }

def cacheUserObject (strUserId : String) (gameData : UserRecord) : UserManager :=
  users.putUserObject strUserId (.new gameData)

def releaseUserObject (strUserId : String) : UserManager :=
  { users with userDataPool := Function.update users.userDataPool strUserId none }

def saveUserData (strUserId : String) (objUser : UserObject) : UserManager :=
  if objUser.bIsDirty then users.push (.setValue strUserId objUser.gameData) else users

/-- `Commit`; the current object is the user's in the pool. -/
def commit (strUserId : String) : UserManager :=
  match users.userDataPool strUserId with
  | some objUser =>
      if objUser.bIsDirty then
        (users.push (.setValue strUserId objUser.gameData)).putUserObject strUserId
          { objUser with bIsDirty := false }
      else
        users
  | none => users

theorem saveUserData_of_dirty (strUserId : String) {objUser : UserObject} (dirty : objUser.bIsDirty = true) :
    users.saveUserData strUserId objUser = users.push (.setValue strUserId objUser.gameData) :=
  if_pos dirty

/-- `Commit` writes an object that is dirty, and otherwise nothing happens. -/
theorem commit_cases (strUserId : String) :
    (∃ objUser, users.userDataPool strUserId = some objUser ∧
      users.commit strUserId = (users.push (.setValue strUserId objUser.gameData)).putUserObject strUserId
        { objUser with bIsDirty := false }) ∨
    (users.commit strUserId = users ∧
      ∀ objUser, users.userDataPool strUserId = some objUser → objUser.bIsDirty = false) := by
  unfold commit
  cases found : users.userDataPool strUserId with
  | none => exact Or.inr ⟨rfl, fun objUser same => absurd same (by simp)⟩
  | some objUser =>
      cases dirty : objUser.bIsDirty with
      | true => exact Or.inl ⟨objUser, rfl, by simp [dirty]⟩
      | false =>
          refine Or.inr ⟨by simp [dirty], fun other same => ?_⟩
          cases same
          exact dirty

end UserManager

end GameServer.Script
