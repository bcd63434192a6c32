/-
Module: GameServer.Script.NetManager
Purpose: `NetManager` and the user pool of `UserManager`: who is on which connection, and the queues of
  requests of the connections.
Trusted boundary: numbers are whole and short enough for `tostring` to write all their digits; a table
  is told by its address; a field that is nil is a value that is `nil` or `none`
Main exports: LuaValue, NetManager, updateHandlerIdAndUserId, onUserDisconnect, sendNoticeToUser,
  pushRequestToSquence, popRequestFromSquence
-/
import Mathlib

namespace GameServer.Script

/-! ## Values

What the scripts pass on without looking at it.
-/

/-- The values the scripts pass on unchecked. -/
inductive LuaValue where
  | nil
  | boolean (b : Bool)
  | number (n : Int)
  | string (s : String)
  | table (address : Nat)
deriving Repr, DecidableEq

namespace LuaValue

/-- `tostring`. -/
def tostring : LuaValue → String
  | nil => "nil"
  | boolean b => if b then "true" else "false"
  | number n => n.repr
  | string s => s
  | table address => "table: " ++ address.repr

/-- `if v then`. -/
def truthy : LuaValue → Bool
  | nil => false
  | boolean b => b
  | _ => true

/-- `IsNumber`. -/
def isNumber : LuaValue → Bool
  | number _ => true
  | _ => false

theorem isNumber_or (v : LuaValue) : (∃ n, v = number n) ∨ v.isNumber = false := by
  cases v with
  | number n => exact Or.inl ⟨n, rfl⟩
  | _ => exact Or.inr rfl

theorem tostring_number_inj {m n : Int} : (number m).tostring = (number n).tostring ↔ m = n :=
  Int.repr_inj

end LuaValue

open LuaValue

/-! ## The manager

The two maps between users and connections, with the operations on them.
-/

/-- An entry of a queue of requests: its sequence id and parameters, and the number of the call that
pushed it, which no function reads. -/
structure Request where
  nSequenceId : Int
  tbParam : List LuaValue
  call : Nat
deriving Repr, DecidableEq

/-- `NetManager`, as its constructor makes it.  The keys of `m_tbUserHanderIdMap` are user ids as
`tostring` writes them; handler ids are always numbers. -/
structure NetManager where
  userHanderIdMap : String → Option Int
  handerIdUserMap : Int → LuaValue
  requestSquence : Int → Option (List Request)
  currentHandlerId : Option Int

namespace NetManager

/-- `ctor`. -/
def ctor : NetManager where
  userHanderIdMap _ := none
  handerIdUserMap _ := .nil
  requestSquence _ := none
  currentHandlerId := none

variable (net : NetManager)

def getHandlerId (nUserId : LuaValue) : Option Int := net.userHanderIdMap nUserId.tostring

def getUserId (nHandlerId : Int) : LuaValue := net.handerIdUserMap nHandlerId

def setHandlerId (nUserId : LuaValue) (nHandlerId : Int) : NetManager :=
  if nHandlerId > 0 then
    { net with
      userHanderIdMap := Function.update net.userHanderIdMap nUserId.tostring (some nHandlerId) }
  else
    net

def setUserId (nHandlerId : Int) (nUserId : LuaValue) : NetManager :=
  if nHandlerId > 0 then
    { net with handerIdUserMap := Function.update net.handerIdUserMap nHandlerId nUserId }
  else
    net

def releaseHandler (nUserId : LuaValue) : NetManager :=
  match net.getHandlerId nUserId with
  | some _ =>
      { net with userHanderIdMap := Function.update net.userHanderIdMap nUserId.tostring none }
  | none => net

def releaseUserId (nHandlerId : Int) : NetManager := net.setUserId nHandlerId .nil

def existOldHanlder (nUserId : LuaValue) : Bool := (net.getHandlerId nUserId).isSome

/-- `UpdateHandlerIdAndUserId`. -/
def updateHandlerIdAndUserId (nUserId : LuaValue) (nHandlerId : Int) : NetManager :=
  let nTempHandlerId := if net.existOldHanlder nUserId then net.getHandlerId nUserId else none
  let released := if net.existOldHanlder nUserId then net.releaseHandler nUserId else net
  let cleared :=
    match nTempHandlerId with
    | some old => if old ≠ nHandlerId then released.releaseUserId old else released
    | none => released
  (cleared.setHandlerId nUserId nHandlerId).setUserId nHandlerId nUserId

/-- The two calls of `RegisterProcess`. -/
def registerProcess (nUserId : LuaValue) (nHandlerId : Int) : NetManager :=
  (net.setHandlerId nUserId nHandlerId).setUserId nHandlerId nUserId

/-- The user `OnUserDisconnect` finds on the connection, if it gets that far. -/
def userOfDisconnect (nHandlerId : LuaValue) : Option (Int × LuaValue) :=
  match nHandlerId with
  | .number h => if (net.getUserId h).isNumber then some (h, net.getUserId h) else none
  | _ => none

/-- `OnUserDisconnect`, up to `ReleaseUserObject`. -/
def onUserDisconnect (nHandlerId : LuaValue) : NetManager :=
  match net.userOfDisconnect nHandlerId with
  | some (h, nUserId) => (net.releaseUserId h).releaseHandler nUserId
  | none => net

def userIsOnline (nUserId : LuaValue) : Bool := (net.getHandlerId nUserId).isSome

/-- `SendNoticeToUser`: the connection it writes to, or none for a user who is offline. -/
def sendNoticeToUser (nUserId : LuaValue) : Option Int :=
  if net.userIsOnline nUserId then net.getHandlerId nUserId else none

/-! ## Queues of requests

Requests wait in the queue of their connection until they are answered.
-/

/-- `PushRequestToSquence`. -/
def pushRequestToSquence (nHandlerId : Int) (request : Request) : NetManager :=
  { net with
    requestSquence := Function.update net.requestSquence nHandlerId
      (some ((net.requestSquence nHandlerId).getD [] ++ [request])) }

/-- `PopRequestFromSquence`, for a number.  It raises for a connection without a queue, and when nothing was
in the queue. -/
def popRequestFromSquence (nHandlerId : Int) : Except NetManager NetManager :=
  match net.requestSquence nHandlerId with
  | none => .error net
  | some [] => .error { net with requestSquence := Function.update net.requestSquence nHandlerId none }
  | some [_] => .ok { net with requestSquence := Function.update net.requestSquence nHandlerId none }
  | some (_ :: second :: rest) =>
      .ok { net with requestSquence := Function.update net.requestSquence nHandlerId (some (second :: rest)) }

/-- The request that is next on a connection. -/
def frontOfSquence (nHandlerId : Int) : Option Request := (net.requestSquence nHandlerId).bind List.head?

/-- `GetSquenceIdFromSquence`: 0 when there is no connection or no request. -/
def getSquenceIdFromSquence (nHandlerId : Option Int) : Int :=
  match nHandlerId.bind net.frontOfSquence with
  | some request => request.nSequenceId
  | none => 0

/-- `GetParamFromSquence`; without a request it raises. -/
def getParamFromSquence (nHandlerId : Int) : Option (List LuaValue) :=
  (net.frontOfSquence nHandlerId).map Request.tbParam

@[simp] theorem requestSquence_updateHandlerIdAndUserId (nUserId : LuaValue) (nHandlerId : Int) :
    (net.updateHandlerIdAndUserId nUserId nHandlerId).requestSquence = net.requestSquence := by
  simp only [updateHandlerIdAndUserId, releaseHandler, releaseUserId, setHandlerId, setUserId]
  repeat' split
  all_goals rfl

@[simp] theorem requestSquence_registerProcess (nUserId : LuaValue) (nHandlerId : Int) :
    (net.registerProcess nUserId nHandlerId).requestSquence = net.requestSquence := by
  simp only [registerProcess, setHandlerId, setUserId]
  repeat' split
  all_goals rfl

/-- When a request is next, it is the one that is removed. -/
theorem popRequestFromSquence_of_front {nHandlerId : Int} {request : Request}
    (front : net.frontOfSquence nHandlerId = some request) :
    ∃ rest, net.popRequestFromSquence nHandlerId =
      .ok { net with requestSquence := Function.update net.requestSquence nHandlerId rest } := by
  unfold frontOfSquence at front
  unfold popRequestFromSquence
  cases queue : net.requestSquence nHandlerId with
  | none =>
      rw [queue] at front
      exact absurd front (by simp)
  | some requests =>
      cases requests with
      | nil =>
          rw [queue] at front
          exact absurd front (by simp)
      | cons first rest =>
          cases rest with
          | nil => exact ⟨none, rfl⟩
          | cons second rest => exact ⟨some (second :: rest), rfl⟩

end NetManager

end GameServer.Script
