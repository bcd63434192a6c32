/-
Module: GameServer.Logic.RequestFlow
Purpose: Requests on the logic server from their arrival to their answer, at once or when the database has replied.
Trusted boundary: that of `RequestQueue`; what the handlers, the user pool and the database return is any of the
  things they can
Main exports: Outcome, clientRequest, dispatch, onRedisRespone, logicAct, Orderly, replyTurn, request_orderly,
  request_confined, deliver_completed, deliver_again, deliver_dropped
-/
import GameServer.Script.Presence
import GameServer.Script.RequestEffects

namespace GameServer.Logic.Requests

open Lib Lib.LuaM Script

/-! ## The functions of `logic_protocol.lua`

What the handlers of a request do is a parameter of the action: whether they raise, answer at once, or wait for the
database.
-/

/-- What is done with a reply of the database. -/
inductive ReplyEvent where
  | enterHall
  | callback
deriving Repr, DecidableEq

abbrev World := RequestWorld ReplyEvent

/-- What a handler of an event does, and the `Commit` after it.  `issued` are the users for whom it calls the database
without waiting for the reply, as `SetValue` does for the user 0.  With `ASYN_EVENT` it waits for the reply to a call
for a user, or for none; with any other code the answer goes to the gateway, or the request on to the room server.
`Logout` takes its user off the connection. -/
inductive Outcome where
  | answered (toRoom logout : Bool) (issued : List LuaValue) (commitRaises : Bool)
  | asyn (nUserId : Option LuaValue) (issued : List LuaValue) (commitRaises : Bool)
  | raised (issued : List LuaValue)
deriving Repr, DecidableEq

/-- What `CheckUserDataStatus` and `EnterGame` find in the pool for a number: nothing, the user, or an object with
another id. -/
inductive Pooled where
  | userDataNil
  | ok
  | userNoRegister
deriving Repr, DecidableEq

inductive Event where
  | enterGame (pooled : Pooled)
  | userDisconnect
  | other (outcome : Outcome)
deriving Repr, DecidableEq

/-- What becomes of a reply before the event is dispatched again: it raises, or goes on. -/
inductive Reply where
  | raises
  | arrives (outcome : Outcome)
deriving Repr, DecidableEq

def quietCalls (call : Nat) (issued : List LuaValue) : List (PendingCall ReplyEvent) :=
  issued.map fun nUserId => ⟨nUserId, .callback, call, none⟩

/-- The calls of a handler that returned `ASYN_EVENT`. -/
def asynCalls (call : Nat) (waits : Option (Int × Request)) (nUserId : Option LuaValue) (issued : List LuaValue) :
    List (PendingCall ReplyEvent) :=
  (nUserId.toList.map fun nUserId => ⟨nUserId, .callback, call, waits⟩) ++ quietCalls call issued

/-- The end of `ClientRequest`. -/
def commit (raises : Bool) : LuaM World Unit :=
  if raises then raise else pure ()

/-- What a handler makes of the maps of users and connections. -/
def leave (logout : Bool) (nHandlerId : Int) (w : World) : World :=
  { w with net := if logout then w.net.onUserDisconnect (.number nHandlerId) else w.net }

def send (toRoom : Bool) (call : Nat) (nSequenceId nHandlerId : Int) : LuaM World Unit :=
  if toRoom then sendToRoomServerFromLogic call (some nHandlerId)
  else sendToGateway call nSequenceId (some nHandlerId)

/-- `ClientRequest`, for all other events; `waits` is the request that a reply would answer. -/
def clientRequest (call : Nat) (waits : Option (Int × Request)) (nHandlerId nSequenceId : Int) (outcome : Outcome) :
    LuaM World Unit := do
  let w ← get
  if (w.net.getUserId nHandlerId).truthy then
    match outcome with
    | .answered toRoom logout issued commitRaises => do
        modify (leave logout nHandlerId)
        toRedis (quietCalls call issued)
        send toRoom call nSequenceId nHandlerId
        commit commitRaises
    | .asyn nUserId issued commitRaises => do
        toRedis (asynCalls call waits nUserId issued)
        commit commitRaises
    | .raised issued => do
        toRedis (quietCalls call issued)
        raise

/-- `OnResponeClientEnterHall`. -/
def onResponeClientEnterHall (call : Nat) (nUserId : LuaValue) : LuaM World Unit := sendToUser call nUserId

/-- `OnClientEnterHall`.  An object with another id makes `EnterGame` return none, and the next line raise. -/
def onClientEnterHall (nHandlerId : Int) (request : Request) (pooled : Pooled) : LuaM World Unit := do
  let nUserId := request.tbParam.getD 0 .nil
  modify fun w => { w with net := w.net.updateHandlerIdAndUserId nUserId nHandlerId }
  if nUserId.isNumber then
    match pooled with
    | .userDataNil => toRedis [⟨nUserId, .enterHall, request.call, some (nHandlerId, request)⟩]
    | .ok => onResponeClientEnterHall request.call nUserId
    | .userNoRegister => raise

/-- `ClientRequest`, with `DispatcherEvent` for the message that a user has disconnected. -/
def dispatch (nHandlerId : Int) (event : Event) (request : Request) : LuaM World Unit :=
  match event with
  | .enterGame pooled => onClientEnterHall nHandlerId request pooled
  | .userDisconnect =>
      modify fun w => { w with net := w.net.onUserDisconnect (request.tbParam.getD 0 .nil) }
  | .other outcome => clientRequest request.call (some (nHandlerId, request)) nHandlerId request.nSequenceId outcome

/-- `OnRedisCallback`. -/
def onRedisCallback (d : PendingCall ReplyEvent) (outcome : Outcome) : LuaM World Unit := do
  let w ← get
  match w.net.getHandlerId d.nUserId with
  | none => pure ()
  | some nHandlerId => do
      let nSequenceId := w.net.getSquenceIdFromSquence (some nHandlerId)
      let _ ← pcall (clientRequest d.call d.waits nHandlerId nSequenceId outcome)
      pure ()

/-- `OnRedisRespone` and `OnRedisMulDataRespone`.  A record that is not there, or cannot be decoded, makes the answer
to `ENTER_GAME` raise. -/
def onRedisRespone (d : PendingCall ReplyEvent) (reply : Reply) : LuaM World Unit :=
  match reply with
  | .raises => raise
  | .arrives outcome =>
      match d.nEventId with
      | .enterHall => onResponeClientEnterHall d.call d.nUserId
      | .callback => onRedisCallback d outcome

/-- A request arrives. -/
def arrive (nHandlerId nSequenceId : Int) (decoded : Decoded) (event : Event) (w : World) : World :=
  (exec (onClientRequest (dispatch nHandlerId event) nHandlerId nSequenceId decoded) w).2

/-- The reply to the first call arrives. -/
def replied (reply : Reply) (w : World) : World :=
  match w.commands with
  | [] => w
  | d :: rest => (exec (onRedisRespone d reply) { w with commands := rest }).2

inductive Action where
  | request (nHandlerId nSequenceId : Int) (decoded : Decoded) (event : Event)
  | deliver (reply : Reply)
deriving Repr, DecidableEq

def logicAct (w : World) : Action → World
  | .request nHandlerId nSequenceId decoded event => arrive nHandlerId nSequenceId decoded event w
  | .deliver reply => replied reply w

/-! ## Requests and replies in order

A request that waits must be the only one of its connection, and a reply must meet it at the front of the queue.
-/

namespace Outcome

/-- The request waits for a reply. -/
def waits : Outcome → Bool
  | .asyn (some _) _ false => true
  | _ => false

/-- Only a handler that has made its call in the name of a user waits, and only if `Commit` does not raise. -/
theorem eq_asyn_of_waits (outcome : Outcome) (waiting : outcome.waits = true) :
    ∃ nUserId issued, outcome = .asyn (some nUserId) issued false := by
  cases outcome with
  | answered _ _ _ _ => cases waiting
  | raised _ => cases waiting
  | asyn nUserId issued commitRaises =>
      cases nUserId with
      | none => cases waiting
      | some nUserId =>
          cases commitRaises with
          | true => cases waiting
          | false => exact ⟨nUserId, issued, rfl⟩

/-- The request is answered, or raises, at once. -/
def atOnce : Outcome → Bool
  | .asyn .. => false
  | _ => true

/-- Nothing raises after the answer. -/
def clean : Outcome → Bool
  | .answered _ _ _ commitRaises => !commitRaises
  | _ => true

end Outcome

/-- A request that waits for the database, or that is answered or raises while no other is in its queue. -/
def Orderly (w : World) (nHandlerId : Int) (tbParam : List LuaValue) : Event → Prop
  | .enterGame pooled =>
      (tbParam.getD 0 .nil).isNumber = true ∧
        (pooled = .userDataNil ∨ Free w nHandlerId ∧ (pooled = .ok → 0 < nHandlerId))
  | .userDisconnect => False
  | .other outcome =>
      (w.net.getUserId nHandlerId).truthy = true ∧
        (outcome.waits = true ∨ outcome.atOnce = true ∧ Free w nHandlerId)

instance (w : World) (nHandlerId : Int) (tbParam : List LuaValue) :
    (event : Event) → Decidable (Orderly w nHandlerId tbParam event)
  | .enterGame _ => inferInstanceAs (Decidable (_ ∧ _))
  | .userDisconnect => isFalse id
  | .other _ => inferInstanceAs (Decidable (_ ∧ _))

def replyTurn (w : World) (d : PendingCall ReplyEvent) : Reply → ReplyTurn
  | .raises => .silent
  | .arrives outcome =>
      match d.nEventId with
      | .enterHall => .answers (w.net.getHandlerId d.nUserId)
      | .callback =>
          match w.net.getHandlerId d.nUserId with
          | none => .silent
          | some nHandlerId =>
              if (w.net.getUserId nHandlerId).truthy then
                match outcome with
                | .answered .. => .answers (some nHandlerId)
                | .asyn (some _) .. => .again
                | .asyn none .. | .raised _ => .silent
              else .silent

/-! ## What one step does to the queues

One lemma for each way a request can go: it is answered, it waits, it raises, or there is no user.
-/

section Functions

variable {w : World} (call : Nat) (waits : Option (Int × Request)) {nHandlerId : Int} (nSequenceId : Int)

/-- `OnUserDisconnect` leaves the queues alone. -/
theorem requestSquence_onUserDisconnect (net : NetManager) (nHandlerId : LuaValue) :
    (net.onUserDisconnect nHandlerId).requestSquence = net.requestSquence := by
  simp only [NetManager.onUserDisconnect, NetManager.releaseUserId, NetManager.releaseHandler, NetManager.setUserId]
  repeat' split
  all_goals rfl

/-- To log out changes the maps, not the queues. -/
theorem entries_leave (logout : Bool) (nHandlerId k : Int) (w : World) :
    (leave logout nHandlerId w).net.entries k = w.net.entries k := by
  apply NetManager.entries_of_requestSquence
  cases logout with
  | false => rfl
  | true => exact requestSquence_onUserDisconnect w.net _

/-- The world of a request that was answered, or sent on. -/
def answered (toRoom logout : Bool) (issued : List LuaValue) (call : Nat) (nSequenceId nHandlerId : Int)
    (request : Request) (rest : List Request) (w : World) : World :=
  let t := ((leave logout nHandlerId w).issue (quietCalls call issued)).remove (some call) nHandlerId request rest
  { t with answers := if toRoom then t.answers else t.answers ++ [(call, nSequenceId)] }

theorem answers_answered (toRoom logout : Bool) (issued : List LuaValue) (call : Nat) (nSequenceId nHandlerId : Int)
    (request : Request) (rest : List Request) (w : World) :
    (answered toRoom logout issued call nSequenceId nHandlerId request rest w).answers = w.answers ∨
      (answered toRoom logout issued call nSequenceId nHandlerId request rest w).answers =
        w.answers ++ [(call, nSequenceId)] := by
  cases toRoom with
  | true => exact Or.inl rfl
  | false => exact Or.inr rfl

theorem exec_clientRequest_answered {toRoom logout : Bool} {issued : List LuaValue} {commitRaises : Bool}
    {request : Request} {rest : List Request} (user : (w.net.getUserId nHandlerId).truthy = true)
    (front : w.net.entries nHandlerId = request :: rest) :
    exec (clientRequest call waits nHandlerId nSequenceId (.answered toRoom logout issued commitRaises)) w =
      (if commitRaises then .error () else .ok (),
        answered toRoom logout issued call nSequenceId nHandlerId request rest w) := by
  have front' : ((leave logout nHandlerId w).issue (quietCalls call issued)).net.entries nHandlerId =
      request :: rest := (entries_leave logout nHandlerId nHandlerId w).trans front
  cases toRoom <;> cases commitRaises <;>
    simp [clientRequest, exec_bind, user, toRedis, send, sendToRoomServerFromLogic, exec_sendToGateway_cons _ _ front',
      exec_popRequestFromSquence_cons _ front', commit, answered, RequestWorld.answer]

theorem exec_clientRequest_asyn {nUserId : Option LuaValue} {issued : List LuaValue} {commitRaises : Bool}
    (user : (w.net.getUserId nHandlerId).truthy = true) :
    exec (clientRequest call waits nHandlerId nSequenceId (.asyn nUserId issued commitRaises)) w =
      (if commitRaises then .error () else .ok (), w.issue (asynCalls call waits nUserId issued)) := by
  cases commitRaises with
  | false => simp [clientRequest, exec_bind, user, toRedis, commit]
  | true => simp [clientRequest, exec_bind, user, toRedis, commit]

/-- A handler that raises answers nothing and leaves the queue. -/
theorem exec_clientRequest_raised {issued : List LuaValue} (user : (w.net.getUserId nHandlerId).truthy = true) :
    exec (clientRequest call waits nHandlerId nSequenceId (.raised issued)) w =
      (.error (), w.issue (quietCalls call issued)) := by
  simp [clientRequest, exec_bind, user, toRedis]

/-- Without a user nothing is done. -/
theorem exec_clientRequest_nobody {outcome : Outcome} (user : (w.net.getUserId nHandlerId).truthy = false) :
    exec (clientRequest call waits nHandlerId nSequenceId outcome) w = (.ok (), w) := by
  simp [clientRequest, exec_bind, user]

end Functions

theorem quiet_quietCalls (call : Nat) (issued : List LuaValue) : Quiet (quietCalls call issued) := by
  intro d member
  obtain ⟨nUserId, -, rfl⟩ := List.mem_map.mp member
  rfl

/-- What a handler waits for is the reply that answers the request. -/
theorem waits_asynCalls (call : Nat) (waits : Option (Int × Request)) (nUserId : Option LuaValue)
    (issued : List LuaValue) :
    ∀ d ∈ asynCalls call waits nUserId issued, d.waits = none ∨ d.waits = waits ∧ d.call = call := by
  intro d member
  rcases List.mem_append.mp member with waiting | isQuiet
  · obtain ⟨nUserId, -, rfl⟩ := List.mem_map.mp waiting
    exact Or.inr ⟨rfl, rfl⟩
  · exact Or.inl (quiet_quietCalls call issued d isQuiet)

section Requests

variable {w : World} {nHandlerId nSequenceId : Int} {tbParam : List LuaValue}

/-- The entry of such a request stays, and one of its calls is going to answer it. -/
theorem asyn_waits {nUserId : LuaValue} {issued : List LuaValue}
    (user : (w.net.getUserId nHandlerId).truthy = true) :
    Waits w (arrive nHandlerId nSequenceId (.table tbParam) (.other (.asyn (some nUserId) issued false)) w)
      nHandlerId (requestOf w nSequenceId tbParam) := by
  have online : ((w.push nHandlerId (requestOf w nSequenceId tbParam)).net.getUserId nHandlerId).truthy = true := user
  have returned :
      exec (dispatch nHandlerId (.other (.asyn (some nUserId) issued false)) (requestOf w nSequenceId tbParam))
        (w.push nHandlerId (requestOf w nSequenceId tbParam)) = (.ok (), _) :=
    exec_clientRequest_asyn _ (some (nHandlerId, requestOf w nSequenceId tbParam)) nSequenceId online
  rw [arrive, onClientRequest_of_return returned]
  refine ⟨fun k => entries_push w nHandlerId k _, ?_, rfl, rfl, rfl, rfl, rfl⟩
  exact ⟨_, _, quiet_quietCalls _ issued, rfl, rfl, rfl⟩

/-- What does not wait is answered, or raises, while it is alone in its queue. -/
theorem other_served (nSequenceId : Int) (tbParam : List LuaValue) {outcome : Outcome} (user : (w.net.getUserId nHandlerId).truthy = true)
    (atOnce : outcome.atOnce = true) (free : Free w nHandlerId) :
    ∃ extra, Served w (arrive nHandlerId nSequenceId (.table tbParam) (.other outcome) w)
      (requestOf w nSequenceId tbParam) extra ∧ (outcome.clean = true → extra = []) := by
  let request := requestOf w nSequenceId tbParam
  have online : ((w.push nHandlerId request).net.getUserId nHandlerId).truthy = true := user
  have pushed : ∀ k, (w.push nHandlerId request).net.entries k =
      if k = nHandlerId then w.net.entries k ++ [request] else w.net.entries k :=
    fun k => entries_push w nHandlerId k request
  have own : (w.push nHandlerId request).net.entries nHandlerId = [request] := by
    rw [pushed, if_pos rfl, free, List.nil_append]
  cases outcome with
  | asyn nUserId issued commitRaises => cases atOnce
  | raised issued =>
      have restored := entries_served free pushed
      have own' : ((w.push nHandlerId request).issue (quietCalls w.arrived.length issued)).net.entries nHandlerId =
          [request] := own
      have raised : exec (dispatch nHandlerId (.other (.raised issued)) (requestOf w nSequenceId tbParam))
          (w.push nHandlerId (requestOf w nSequenceId tbParam)) = (.error (), _) :=
        exec_clientRequest_raised _ (some (nHandlerId, requestOf w nSequenceId tbParam)) nSequenceId online
      rw [arrive, onClientRequest_of_raise raised own']
      exact ⟨[], ⟨restored, ⟨_, quiet_quietCalls _ issued, rfl⟩, rfl, rfl, rfl, .inl rfl, rfl⟩, fun _ => rfl⟩
  | answered toRoom logout issued commitRaises =>
      have left : ∀ k, (leave logout nHandlerId (w.push nHandlerId request)).net.entries k =
          if k = nHandlerId then w.net.entries k ++ [request] else w.net.entries k :=
        fun k => (entries_leave logout nHandlerId k _).trans (pushed k)
      have restored := entries_served free left
      have ids := answers_answered toRoom logout issued w.arrived.length nSequenceId nHandlerId request []
        (w.push nHandlerId request)
      cases commitRaises with
      | false =>
          have returned : exec (dispatch nHandlerId (.other (.answered toRoom logout issued false))
              (requestOf w nSequenceId tbParam)) (w.push nHandlerId (requestOf w nSequenceId tbParam)) = (.ok (), _) :=
            exec_clientRequest_answered _ (some (nHandlerId, requestOf w nSequenceId tbParam)) nSequenceId online own
          rw [arrive, onClientRequest_of_return returned]
          exact ⟨[], ⟨restored, ⟨_, quiet_quietCalls _ issued, rfl⟩, rfl, rfl, rfl, ids, rfl⟩, fun _ => rfl⟩
      | true =>
          -- the entry is gone already when `OnClientRequest` removes one
          have empty := (restored nHandlerId).trans free
          have raised : exec (dispatch nHandlerId (.other (.answered toRoom logout issued true))
              (requestOf w nSequenceId tbParam)) (w.push nHandlerId (requestOf w nSequenceId tbParam)) = (.error (), _) :=
            exec_clientRequest_answered _ (some (nHandlerId, requestOf w nSequenceId tbParam)) nSequenceId online own
          obtain ⟨net, same, step⟩ := onClientRequest_of_raise_nil raised empty
          rw [arrive, step]
          refine ⟨[(some w.arrived.length, none)], ⟨fun k => (same k).trans (restored k),
            ⟨_, quiet_quietCalls _ issued, rfl⟩, rfl, rfl, ?_, ids, rfl⟩, fun clean => ?_⟩
          · exact List.append_assoc _ _ _
          · cases clean

/-- `UpdateHandlerIdAndUserId` leaves the queues alone. -/
theorem entries_update (net : NetManager) (nUserId : LuaValue) (h k : Int) :
    (net.updateHandlerIdAndUserId nUserId h).entries k = net.entries k :=
  NetManager.entries_of_requestSquence (net.requestSquence_updateHandlerIdAndUserId nUserId h) k

/-- The world of a request to enter when the maps are updated. -/
def entered (w : World) (nHandlerId : Int) (request : Request) : World :=
  { w.push nHandlerId request with
    net := (w.push nHandlerId request).net.updateHandlerIdAndUserId (request.tbParam.getD 0 .nil) nHandlerId }

theorem entries_entered (w : World) (nHandlerId k : Int) (request : Request) :
    (entered w nHandlerId request).net.entries k =
      if k = nHandlerId then w.net.entries k ++ [request] else w.net.entries k := by
  rw [entered, entries_update, entries_push]

theorem enter_waits (number : (tbParam.getD 0 .nil).isNumber = true) :
    Waits w (arrive nHandlerId nSequenceId (.table tbParam) (.enterGame .userDataNil) w)
      nHandlerId (requestOf w nSequenceId tbParam) := by
  have returned : exec (dispatch nHandlerId (.enterGame .userDataNil) (requestOf w nSequenceId tbParam))
      (w.push nHandlerId (requestOf w nSequenceId tbParam)) =
        (.ok (), (entered w nHandlerId (requestOf w nSequenceId tbParam)).issue
          [⟨tbParam.getD 0 .nil, .enterHall, w.arrived.length,
            some (nHandlerId, requestOf w nSequenceId tbParam)⟩]) := by
    simp only [dispatch, onClientEnterHall, exec_bind, exec_modify, requestOf, number, if_true, toRedis]
    rfl
  rw [arrive, onClientRequest_of_return returned]
  refine ⟨fun k => entries_entered w nHandlerId k _, ?_, rfl, rfl, rfl, rfl, rfl⟩
  exact ⟨_, [], quiet_nil, rfl, rfl, rfl⟩

theorem enter_served {pooled : Pooled} (number : (tbParam.getD 0 .nil).isNumber = true)
    (known : pooled ≠ .userDataNil) (free : Free w nHandlerId) (positive : pooled = .ok → 0 < nHandlerId) :
    Served w (arrive nHandlerId nSequenceId (.table tbParam) (.enterGame pooled) w)
      (requestOf w nSequenceId tbParam) [] := by
  let request := requestOf w nSequenceId tbParam
  have pushed : ∀ k, (entered w nHandlerId request).net.entries k =
      if k = nHandlerId then w.net.entries k ++ [request] else w.net.entries k :=
    fun k => entries_entered w nHandlerId k request
  have own : (entered w nHandlerId request).net.entries nHandlerId = [request] := by
    rw [pushed, if_pos rfl, free, List.nil_append]
  have restored := entries_served free pushed
  have quiet : ∃ more, Quiet more ∧ w.commands = w.commands ++ more := ⟨[], quiet_nil, (List.append_nil _).symm⟩
  cases pooled with
  | userDataNil => exact absurd rfl known
  | userNoRegister =>
      have raised : exec (dispatch nHandlerId (.enterGame .userNoRegister) (requestOf w nSequenceId tbParam))
          (w.push nHandlerId (requestOf w nSequenceId tbParam)) = (.error (), entered w nHandlerId request) := by
        simp only [dispatch, onClientEnterHall, exec_bind, exec_modify, requestOf, number, if_true]
        rfl
      rw [arrive, onClientRequest_of_raise raised own]
      exact ⟨restored, quiet, rfl, rfl, rfl, .inl rfl, rfl⟩
  | ok =>
      obtain ⟨n, isNumber⟩ : ∃ n, tbParam.getD 0 .nil = .number n := by
        rcases LuaValue.isNumber_or (tbParam.getD 0 .nil) with found | not
        · exact found
        · rw [number] at not
          cases not
      have found : (entered w nHandlerId request).net.getHandlerId (tbParam.getD 0 .nil) = some nHandlerId := by
        change ((w.push nHandlerId request).net.updateHandlerIdAndUserId (tbParam.getD 0 .nil)
          nHandlerId).getHandlerId (tbParam.getD 0 .nil) = some nHandlerId
        rw [isNumber, NetManager.getHandlerId_update _ _ _ _ (positive rfl), if_pos rfl]
      have returned : exec (dispatch nHandlerId (.enterGame .ok) (requestOf w nSequenceId tbParam))
          (w.push nHandlerId (requestOf w nSequenceId tbParam)) =
            (.ok (), ((entered w nHandlerId request).remove (some request.call) nHandlerId request []).answer
              request.call request.nSequenceId) := by
        simp only [dispatch, onClientEnterHall, exec_bind, exec_modify, requestOf, number, if_true]
        exact exec_sendToUser _ found own
      rw [arrive, onClientRequest_of_return returned]
      exact ⟨restored, quiet, rfl, rfl, rfl, .inr rfl, rfl⟩

/-- An orderly request waits, or has its entry removed. -/
theorem request_orderly (nSequenceId : Int) {event : Event} (orderly : Orderly w nHandlerId tbParam event) :
    Waits w (arrive nHandlerId nSequenceId (.table tbParam) event w) nHandlerId
        (requestOf w nSequenceId tbParam) ∨
      ∃ extra, Served w (arrive nHandlerId nSequenceId (.table tbParam) event w)
        (requestOf w nSequenceId tbParam) extra ∧
        ((∀ outcome, event = .other outcome → outcome.clean = true) → extra = []) := by
  cases event with
  | enterGame pooled =>
      obtain ⟨number, waits | ⟨free, positive⟩⟩ := orderly
      · subst waits
        exact Or.inl (enter_waits number)
      · by_cases unknown : pooled = .userDataNil
        · subst unknown
          exact Or.inl (enter_waits number)
        · exact Or.inr ⟨[], enter_served number unknown free positive, fun _ => rfl⟩
  | userDisconnect => exact orderly.elim
  | other outcome =>
      obtain ⟨user, waits | ⟨atOnce, free⟩⟩ := orderly
      · obtain ⟨nUserId, issued, rfl⟩ := outcome.eq_asyn_of_waits waits
        exact Or.inl (asyn_waits user)
      · obtain ⟨extra, served, clean⟩ := other_served nSequenceId tbParam user atOnce free
        exact Or.inr ⟨extra, served, fun every => clean (every outcome rfl)⟩

theorem clientRequest_confined (request : Request) (outcome : Outcome) :
    Keeps (Confined nHandlerId request)
      (clientRequest request.call (some (nHandlerId, request)) nHandlerId request.nSequenceId outcome) := by
  have quiet : ∀ issued, ∀ d ∈ quietCalls request.call issued,
      d.waits = none ∨ d.waits = some (nHandlerId, request) ∧ d.call = request.call :=
    fun issued d member => Or.inl (quiet_quietCalls request.call issued d member)
  have committed : ∀ raises, Keeps (Confined nHandlerId request) (commit raises) := fun raises =>
    Keeps.ite Keeps.raise (Keeps.pure ())
  refine Keeps.get.bind fun w => Keeps.ite ?_ (Keeps.pure ())
  cases outcome with
  | answered toRoom logout issued commitRaises =>
      have sent : Keeps (Confined nHandlerId request) (send toRoom request.call request.nSequenceId nHandlerId) :=
        Keeps.ite (popRequestFromSquence_confined _) sendToGateway_confined
      refine (confined_net fun w => ?_).bind fun _ =>
        (toRedis_confined (quiet issued)).bind fun _ => sent.bind fun _ => committed commitRaises
      cases logout with
      | false => rfl
      | true => exact requestSquence_onUserDisconnect w.net _
  | asyn nUserId issued commitRaises =>
      exact (toRedis_confined (waits_asynCalls request.call _ nUserId issued)).bind fun _ => committed commitRaises
  | raised issued => exact (toRedis_confined (quiet issued)).bind fun _ => Keeps.raise

/-- Only an answer at `ENTER_GAME` looks at a queue, and whatever does not stays with the connection of the request. -/
theorem dispatch_confined (nHandlerId : Int) (request : Request) {event : Event}
    (blind : event = .enterGame .ok → (request.tbParam.getD 0 .nil).isNumber = false) :
    Keeps (Confined nHandlerId request) (dispatch nHandlerId event request) := by
  cases event with
  | userDisconnect => exact confined_net fun w => requestSquence_onUserDisconnect w.net _
  | other outcome => exact clientRequest_confined request outcome
  | enterGame pooled =>
      refine (confined_net fun w => w.net.requestSquence_updateHandlerIdAndUserId _ _).bind fun _ => ?_
      cases number : (request.tbParam.getD 0 .nil).isNumber with
      | false => exact Keeps.pure ()
      | true =>
          cases pooled with
          | userDataNil =>
              refine toRedis_confined fun d member => ?_
              rw [List.mem_singleton.mp member]
              exact Or.inr ⟨rfl, rfl⟩
          | userNoRegister => exact Keeps.raise
          | ok =>
              rw [blind rfl] at number
              cases number

/-- What becomes of any other request concerns its own connection. -/
theorem request_confined (w : World) (nHandlerId nSequenceId : Int) {event : Event}
    (blind : event = .enterGame .ok → (tbParam.getD 0 .nil).isNumber = false) :
    Confined nHandlerId (requestOf w nSequenceId tbParam) (w.push nHandlerId (requestOf w nSequenceId tbParam))
      (arrive nHandlerId nSequenceId (.table tbParam) event w) := by
  have after := wp_same.mp (dispatch_confined nHandlerId (requestOf w nSequenceId tbParam) blind
    (w.push nHandlerId (requestOf w nSequenceId tbParam)))
  rw [arrive, onClientRequest_table]
  cases run : exec (dispatch nHandlerId event (requestOf w nSequenceId tbParam))
      (w.push nHandlerId (requestOf w nSequenceId tbParam)) with
  | mk result t =>
      rw [run] at after
      cases result with
      | ok _ => exact after
      | error _ =>
          have removed : Keeps (Confined nHandlerId (requestOf w nSequenceId tbParam))
              (popRequestFromSquence (some w.arrived.length) (some nHandlerId) : LuaM World Unit) :=
            popRequestFromSquence_confined _
          exact trans_of (Confined nHandlerId (requestOf w nSequenceId tbParam)) after (wp_same.mp (removed t))

end Requests

section Replies

variable {w : World} {d : PendingCall ReplyEvent} {commands : List (PendingCall ReplyEvent)} {reply : Reply}
  {nHandlerId : Int}

theorem exec_onRedisCallback (d : PendingCall ReplyEvent) (outcome : Outcome)
    (found : w.net.getHandlerId d.nUserId = some nHandlerId) :
    exec (onRedisCallback d outcome) w =
      (.ok (), (exec (clientRequest d.call d.waits nHandlerId
        (w.net.getSquenceIdFromSquence (some nHandlerId)) outcome) w).2) := by
  simp only [onRedisCallback, exec_bind, exec_get, found, exec_pcall]
  cases exec (clientRequest d.call d.waits nHandlerId (w.net.getSquenceIdFromSquence (some nHandlerId)) outcome) w with
  | mk result t => cases result <;> rfl

/-- A reply that is dispatched: the user is on a connection that has a user. -/
theorem replied_callback (next : w.commands = d :: commands) (event : d.nEventId = .callback) (outcome : Outcome)
    (found : w.net.getHandlerId d.nUserId = some nHandlerId) :
    replied (.arrives outcome) w =
      (exec (clientRequest d.call d.waits nHandlerId (w.net.getSquenceIdFromSquence (some nHandlerId)) outcome)
        { w with commands := commands }).2 := by
  simp only [replied, next, onRedisRespone, event]
  have run := exec_onRedisCallback (w := { w with commands := commands }) d outcome found
  rw [run]

/-- The reply for the first request of a connection answers it. -/
theorem deliver_completed {request : Request} {rest : List Request} (next : w.commands = d :: commands)
    (front : w.net.entries nHandlerId = request :: rest)
    (answers : replyTurn w d reply = .answers (some nHandlerId)) :
    Completed w (replied reply w) d nHandlerId request := by
  have after : ∀ net : NetManager, (∀ k, net.entries k = w.net.entries k) → ∀ k,
      (net.withEntries nHandlerId rest).entries k =
        if k = nHandlerId then (w.net.entries k).tail else w.net.entries k := by
    intro net same k
    rw [NetManager.entries_withEntries, same]
    split
    · next here => rw [here, front, List.tail_cons]
    · rfl
  cases reply with
  | raises => cases answers
  | arrives outcome =>
      cases event : d.nEventId with
      | enterHall =>
          have found : w.net.getHandlerId d.nUserId = some nHandlerId := by
            simp only [replyTurn, event] at answers
            exact ReplyTurn.answers.inj answers
          simp only [replied, next, onRedisRespone, event, onResponeClientEnterHall]
          have run := exec_sendToUser (w := { w with commands := commands }) d.call found front
          rw [run]
          exact .of_answer w.net next (fun _ => rfl) front
      | callback =>
          simp only [replyTurn, event] at answers
          cases found : w.net.getHandlerId d.nUserId with
          | none => simp [found] at answers
          | some h =>
              cases user : (w.net.getUserId h).truthy with
              | false => simp [found, user] at answers
              | true =>
                  rw [replied_callback next event outcome found]
                  cases outcome with
                  | asyn nUserId issued commitRaises => cases nUserId <;> simp [found, user] at answers
                  | raised issued => simp [found, user] at answers
                  | answered toRoom logout issued commitRaises =>
                      simp only [found, user, if_true, ReplyTurn.answers.injEq, Option.some.injEq] at answers
                      subst answers
                      let v : World := { w with commands := commands }
                      have called : exec (clientRequest d.call d.waits h (w.net.getSquenceIdFromSquence (some h))
                          (.answered toRoom logout issued commitRaises)) v = (_, _) :=
                        exec_clientRequest_answered _ _ _ user front
                      have ids := answers_answered toRoom logout issued d.call
                        (w.net.getSquenceIdFromSquence (some h)) h request rest v
                      rw [called]
                      refine ⟨after _ fun k => entries_leave logout h k v,
                        ⟨commands, _, next, quiet_quietCalls _ issued, rfl⟩, rfl, rfl, ?_, rfl⟩
                      rw [w.net.getSquenceIdFromSquence_cons front] at ids ⊢
                      exact ids

/-- A reply that leads to another call takes nothing out of a queue. -/
theorem deliver_again (next : w.commands = d :: commands) (again : replyTurn w d reply = .again) :
    Again w (replied reply w) d := by
  cases reply with
  | raises => cases again
  | arrives outcome =>
      cases event : d.nEventId with
      | enterHall => simp [replyTurn, event] at again
      | callback =>
          simp only [replyTurn, event] at again
          cases found : w.net.getHandlerId d.nUserId with
          | none => simp [found] at again
          | some h =>
              cases user : (w.net.getUserId h).truthy with
              | false => simp [found, user] at again
              | true =>
                  rw [replied_callback next event outcome found]
                  cases outcome with
                  | answered toRoom logout issued commitRaises => simp [found, user] at again
                  | raised issued => simp [found, user] at again
                  | asyn nUserId issued commitRaises =>
                      cases nUserId with
                      | none => simp [found, user] at again
                      | some nUserId =>
                          let v : World := { w with commands := commands }
                          have called : exec (clientRequest d.call d.waits h (w.net.getSquenceIdFromSquence (some h))
                              (.asyn (some nUserId) issued commitRaises)) v = (_, _) :=
                            exec_clientRequest_asyn _ _ _ user
                          rw [called]
                          refine ⟨fun _ => rfl, ⟨commands, [], ⟨nUserId, .callback, d.call, d.waits⟩,
                            quietCalls d.call issued, next, quiet_nil, rfl, rfl, quiet_quietCalls _ issued, rfl⟩, rfl,
                            rfl, rfl, rfl⟩

/-- Neither does a reply that leads to nothing. -/
theorem deliver_dropped (next : w.commands = d :: commands) (silent : replyTurn w d reply = .silent) :
    Dropped w (replied reply w) d := by
  let v : World := { w with commands := commands }
  have unchanged : Dropped w v d := .of_entries w.net next fun _ => rfl
  cases reply with
  | raises =>
      simp only [replied, next, onRedisRespone, exec_raise]
      exact unchanged
  | arrives outcome =>
      cases event : d.nEventId with
      | enterHall => simp [replyTurn, event] at silent
      | callback =>
          simp only [replyTurn, event] at silent
          cases found : w.net.getHandlerId d.nUserId with
          | none =>
              have idle : exec (onRedisCallback d outcome) v = (.ok (), v) := by
                have nowhere : v.net.getHandlerId d.nUserId = none := found
                simp only [onRedisCallback, exec_bind, exec_get, nowhere, exec_pure]
              simp only [replied, next, onRedisRespone, event]
              rw [idle]
              exact unchanged
          | some h =>
              rw [replied_callback next event outcome found]
              cases user : (w.net.getUserId h).truthy with
              | false =>
                  have idle : exec (clientRequest d.call d.waits h
                      (v.net.getSquenceIdFromSquence (some h)) outcome) v = (.ok (), v) :=
                    exec_clientRequest_nobody _ _ _ user
                  rw [idle]
                  exact unchanged
              | true =>
                  cases outcome with
                  | answered toRoom logout issued commitRaises => simp [found, user] at silent
                  | asyn nUserId issued commitRaises =>
                      cases nUserId with
                      | some nUserId => simp [found, user] at silent
                      | none =>
                          have called : exec (clientRequest d.call d.waits h
                              (v.net.getSquenceIdFromSquence (some h)) (.asyn none issued commitRaises)) v = (_, _) :=
                            exec_clientRequest_asyn _ _ _ user
                          rw [called]
                          exact ⟨fun _ => rfl, ⟨commands, _, next, quiet_quietCalls _ issued, rfl⟩, rfl, rfl, rfl, rfl⟩
                  | raised issued =>
                      have called : exec (clientRequest d.call d.waits h
                          (v.net.getSquenceIdFromSquence (some h)) (.raised issued)) v = (_, _) :=
                        exec_clientRequest_raised _ _ _ user
                      rw [called]
                      exact ⟨fun _ => rfl, ⟨commands, _, next, quiet_quietCalls _ issued, rfl⟩, rfl, rfl, rfl, rfl⟩

end Replies

end GameServer.Logic.Requests
