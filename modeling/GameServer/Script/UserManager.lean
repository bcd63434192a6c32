/-
Module: GameServer.Script.UserManager
Purpose: The user objects and the pool `UserManager` keeps them in.
Trusted boundary: the servers load the class of user objects from `dev_share`, which is not in the
  repository, so which of its methods raise is a parameter
Main exports: UserScript, UserData, changeGold_eq, UserPool, cacheUserObject, releaseUserObject
-/
import GameServer.Lib.Rounding
import GameServer.Script.NetManager

namespace GameServer.Script

open Lib
open Arithmetic (rounding)

/-! ## User objects

The gold of a user object, and the methods that change it.
-/

/-- The class of user objects: for which users `AddGold` and `CostGold` raise. -/
structure UserScript where
  addGoldRaises : Int → Bool
  costGoldRaises : Int → Bool

namespace UserScript

/-- A class whose methods never raise. -/
def sound : UserScript where
  addGoldRaises _ := false
  costGoldRaises _ := false

/-- The class of `share/user.lua`: its `CostGold` reads `nAddVal`, which is nil there, and raises. -/
def share : UserScript where
  addGoldRaises _ := false
  costGoldRaises _ := true

/-- The method that a change of gold needs raises for the user. -/
def raisesFor (script : UserScript) (nUserId : Int) (nCount : ℚ) : Bool :=
  if nCount > 0 then script.addGoldRaises nUserId else script.costGoldRaises nUserId

end UserScript

/-- `UserData`: the fields of its game data that the servers' logic reads, and `bIsDirty`. -/
structure UserData where
  nUserId : Int
  gold : ℚ
  bIsDirty : Bool
deriving DecidableEq

namespace UserData

def getGold (objUser : UserData) : ℚ := objUser.gold

def setGold (objUser : UserData) (nVal : ℚ) : UserData :=
  { objUser with gold := nVal, bIsDirty := true }

section Gold

variable [Arithmetic]

/-- `AddGold`: the object afterwards, or none when it raises. -/
def addGold (script : UserScript) (objUser : UserData) (nAddVal : ℚ) : Option UserData :=
  if nAddVal < 0 then some objUser
  else if script.addGoldRaises objUser.nUserId then none
  else some (objUser.setGold (rounding.add objUser.getGold nAddVal))

/-- `CostGold`: the object afterwards, or none when it raises. -/
def costGold (script : UserScript) (objUser : UserData) (nCostVal : ℚ) : Option UserData :=
  if nCostVal < 0 then some objUser
  else if script.costGoldRaises objUser.nUserId then none
  else some (objUser.setGold (rounding.sub objUser.getGold nCostVal))

/-- The `if` around `AddGold` and `CostGold` that the settlements of both servers have. -/
def changeGold (script : UserScript) (objUser : UserData) (nCount : ℚ) : Option UserData :=
  if nCount > 0 then objUser.addGold script nCount else objUser.costGold script |nCount|

/-- A change of gold does what its sign says, unless the method it needs raises. -/
theorem changeGold_eq (script : UserScript) (objUser : UserData) (nCount : ℚ) :
    objUser.changeGold script nCount =
      if script.raisesFor objUser.nUserId nCount then none
      else some (objUser.setGold (rounding.add objUser.gold nCount)) := by
  unfold changeGold UserScript.raisesFor
  by_cases gain : nCount > 0
  · have nonneg : ¬ nCount < 0 := not_lt.mpr (le_of_lt gain)
    simp [gain, addGold, nonneg, getGold]
  · have nonneg : ¬ |nCount| < 0 := not_lt.mpr (abs_nonneg nCount)
    have loss : rounding.sub objUser.gold |nCount| = rounding.add objUser.gold nCount := by
      rw [Rounding.sub, Rounding.add, abs_of_nonpos (not_lt.mp gain), sub_neg_eq_add]
    simp [gain, costGold, nonneg, getGold, loss]

end Gold

@[simp] theorem setGold_nUserId (objUser : UserData) (nVal : ℚ) :
    (objUser.setGold nVal).nUserId = objUser.nUserId := rfl

@[simp] theorem setGold_gold (objUser : UserData) (nVal : ℚ) :
    (objUser.setGold nVal).gold = nVal := rfl

end UserData

/-! ## The pool

The objects by their user ids.
-/

/-- `m_tbUserDataPool`: every object stands under its own user id, as `tostring` writes it. -/
structure UserPool where
  objects : String → Option UserData
  keyed : ∀ key objUser, objects key = some objUser →
    key = (LuaValue.number objUser.nUserId).tostring

namespace UserPool

def empty : UserPool where
  objects _ := none
  keyed _ _ found := absurd found (by simp)

variable (pool : UserPool)

def getUserObject (nUserId : Int) : Option UserData :=
  pool.objects (LuaValue.number nUserId).tostring

/-- `CacheUserObject`, and every change of an object of the pool. -/
def cacheUserObject (objUser : UserData) : UserPool where
  objects := Function.update pool.objects (LuaValue.number objUser.nUserId).tostring (some objUser)
  keyed key other found := by
    by_cases same : key = (LuaValue.number objUser.nUserId).tostring
    · subst same
      rw [Function.update_self] at found
      cases found
      rfl
    · rw [Function.update_of_ne same] at found
      exact pool.keyed key other found

def releaseUserObject (nUserId : Int) : UserPool where
  objects := Function.update pool.objects (LuaValue.number nUserId).tostring none
  keyed key other found := by
    by_cases same : key = (LuaValue.number nUserId).tostring
    · subst same
      rw [Function.update_self] at found
      exact absurd found (by simp)
    · rw [Function.update_of_ne same] at found
      exact pool.keyed key other found

/-- An object that is found has the id it was looked for with. -/
theorem nUserId_of_get {nUserId : Int} {objUser : UserData}
    (found : pool.getUserObject nUserId = some objUser) : objUser.nUserId = nUserId :=
  (LuaValue.tostring_number_inj.mp (pool.keyed _ objUser found)).symm

theorem getUserObject_cache (objUser : UserData) (nUserId : Int) :
    (pool.cacheUserObject objUser).getUserObject nUserId =
      if nUserId = objUser.nUserId then some objUser else pool.getUserObject nUserId := by
  by_cases same : nUserId = objUser.nUserId
  · simp [getUserObject, cacheUserObject, same]
  · simp [getUserObject, cacheUserObject, same, LuaValue.tostring_number_inj]

end UserPool

end GameServer.Script
