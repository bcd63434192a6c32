/-
Module: GameServer.Login.RequestFlow
Purpose: Requests on the login server from their arrival to their answer, with the queues of requests.
Trusted boundary: that of `RequestQueue`; what the user pool, the global user id and the database hold is any of the
  things that they can
Main exports: dispatch, onRedisRespone, loginAct, LoginTidy, loginAct_tidy
-/
import GameServer.Login.LoginProtocol
import GameServer.Script.EntryCounts

namespace GameServer.Login.Requests

open Lib Lib.LuaM Script

/-! ## The functions of `login_protocol.lua`

The same functions as in `LoginProtocol`, but only for what they do to the queues of requests: the contents of
responses are a parameter.
-/

abbrev World := RequestWorld AsyncEvent

/-- `LOGIN_DIRECT`, or any other event. -/
inductive Event where
  | loginDirect
  | other
deriving Repr, DecidableEq

/-- What a response brings: something that cannot be logged or decoded, nothing, a number, or another text.  With
nothing comes the global user id, if it is known, and with a number whether the object of this user is cached. -/
inductive Reply where
  | raises
  | empty (nUserGlobalId : Option Int)
  | number (n : Int) (cached : Bool)
  | text
deriving Repr, DecidableEq

/-- The device id and the address are strings. -/
def isRegisterParam : List LuaValue → Bool
  | .string _ :: .string _ :: _ => true
  | _ => false

/-- The error code of `CheckRegisterParam`, if it does not raise. -/
def registerCode (tbParam : List LuaValue) : Option ErrorCode :=
  if joins (tbParam.getD 0 .nil) && joins (tbParam.getD 1 .nil) then
    some (if isRegisterParam tbParam then .ok else .paramterError)
  else
    none

/-- `OnClientLoginDirect`. -/
def onClientLoginDirect (nHandlerId : Int) (request : Request) : LuaM World Unit :=
  match registerCode request.tbParam with
  | none => raise
  | some .ok =>
      Script.toRedis [⟨.number nHandlerId, .getDeviceId, request.call, some (nHandlerId, request)⟩]
  | some _ => do
      Script.popRequestFromSquence (some request.call) (some nHandlerId)
      Script.sendToGateway request.call request.nSequenceId (some nHandlerId)

/-- `ClientRequest`. -/
def dispatch (nHandlerId : Int) (event : Event) (request : Request) : LuaM World Unit :=
  match event with
  | .loginDirect => onClientLoginDirect nHandlerId request
  | .other => pure ()

/-- `OnResponeClientLogin`. -/
def onResponeClientLogin (call : Nat) (nUserId : LuaValue) : LuaM World Unit := sendToUser call nUserId

/-- The calls of `RegisterProcess` before the last: the global user id, the device and the account are saved. -/
def savings (call : Nat) : List (PendingCall AsyncEvent) := List.replicate 3 ⟨.number 0, .none, call, none⟩

/-- `OnClientRegister`. -/
def onClientRegister (d : PendingCall AsyncEvent) (nHandlerId nSequenceId : Int) (tbParam : List LuaValue)
    (nUserGlobalId : Option Int) : LuaM World Unit :=
  if isRegisterParam tbParam then
    match nUserGlobalId with
    | none => raise
    | some nUserId => do
        modify fun w => { w with net := w.net.registerProcess (.number nUserId) nHandlerId }
        Script.toRedis (savings d.call ++ [⟨.number nUserId, .registering, d.call, d.waits⟩])
  else
    Script.sendToGateway d.call nSequenceId (some nHandlerId)

/-- `OnClientLogin`. -/
def onClientLogin (d : PendingCall AsyncEvent) (nHandlerId nUserId : Int) (cached : Bool) : LuaM World Unit := do
  modify fun w => { w with net := w.net.updateHandlerIdAndUserId (.number nUserId) nHandlerId }
  if cached then
    onResponeClientLogin d.call (.number nUserId)
  else
    Script.toRedis [⟨.number nUserId, .getGameData, d.call, d.waits⟩]

/-- The device is not registered yet, or its user logs in. -/
def onDevice (d : PendingCall AsyncEvent) (nHandlerId nSequenceId : Int) (tbParam : List LuaValue) :
    Reply → LuaM World Unit
  | .raises => raise
  | .empty nUserGlobalId => onClientRegister d nHandlerId nSequenceId tbParam nUserGlobalId
  | .number n cached => onClientLogin d nHandlerId n cached
  | .text =>
      -- `tonumber` gives nil
      modify fun w => { w with net := w.net.updateHandlerIdAndUserId .nil nHandlerId }

/-- The response to the search for a device.  Its connection stands in the place of the user. -/
def onDeviceId (d : PendingCall AsyncEvent) (nHandlerId : Int) (reply : Reply) : LuaM World Unit := do
  let w ← get
  match w.net.getParamFromSquence nHandlerId with
  | none => raise
  | some tbParam => onDevice d nHandlerId (w.net.getSquenceIdFromSquence (some nHandlerId)) tbParam reply

/-- `OnRedisRespone`. -/
def onRedisRespone (d : PendingCall AsyncEvent) (reply : Reply) : LuaM World Unit :=
  match d.nEventId with
  | .getDeviceId =>
      match d.nUserId with
      | .number nHandlerId => onDeviceId d nHandlerId reply
      | _ => raise
  | .registering => if reply = .raises then raise else onResponeClientLogin d.call d.nUserId
  | .getGameData => if reply = .text then onResponeClientLogin d.call d.nUserId else raise
  | .none | .getUserGlobalId => pure ()

/-- A request arrives. -/
def arrive (nHandlerId nSequenceId : Int) (decoded : Decoded) (event : Event) (w : World) : World :=
  (exec (Script.onClientRequest (dispatch nHandlerId event) nHandlerId nSequenceId decoded) w).2

/-- The reply to the first call arrives. -/
def replied (reply : Reply) (w : World) : World :=
  match w.commands with
  | [] => w
  | d :: rest => (exec (onRedisRespone d reply) { w with commands := rest }).2

inductive Action where
  | request (nHandlerId nSequenceId : Int) (decoded : Decoded) (event : Event)
  | deliver (reply : Reply)
deriving Repr, DecidableEq

def loginAct (w : World) : Action → World
  | .request nHandlerId nSequenceId decoded event => arrive nHandlerId nSequenceId decoded event w
  | .deliver reply => replied reply w

/-- The code is that of `CheckRegisterParam`. -/
theorem checkRegisterParam_eq (tbParam : List LuaValue) :
    checkRegisterParam tbParam =
      match registerCode tbParam with
      | some nErrorCode => pure nErrorCode
      | none => raise := by
  rcases tbParam with - | ⟨strDeviceId, - | ⟨strIp, rest⟩⟩
  · rfl
  · cases strDeviceId <;> rfl
  · cases strDeviceId <;> cases strIp <;> rfl

/-! ## Requests and replies in order

A request must be alone in its queue where it raises, and a reply must meet its request at the front.
-/

/-- What a reply to the search for a device leads to. -/
def deviceTurn (w : World) (nHandlerId : Int) (tbParam : List LuaValue) : Reply → ReplyTurn
  | .raises | .text => .silent
  | .empty nUserGlobalId =>
      if isRegisterParam tbParam then
        if nUserGlobalId.isSome then .again else .silent
      else
        .answers (some nHandlerId)
  | .number n cached =>
      if cached then
        .answers ((w.net.updateHandlerIdAndUserId (.number n) nHandlerId).getHandlerId (.number n))
      else
        .again

def replyTurn (w : World) (d : PendingCall AsyncEvent) (reply : Reply) : ReplyTurn :=
  match d.nEventId with
  | .getDeviceId =>
      match d.nUserId with
      | .number nHandlerId =>
          match w.net.getParamFromSquence nHandlerId with
          | none => .silent
          | some tbParam => deviceTurn w nHandlerId tbParam reply
      | _ => .silent
  | .registering => if reply = .raises then .silent else .answers (w.net.getHandlerId d.nUserId)
  | .getGameData => if reply = .text then .answers (w.net.getHandlerId d.nUserId) else .silent
  | .none | .getUserGlobalId => .silent

/-- A login with valid parameters, or one that raises while no other request is in its queue. -/
def RequestTidy (w : World) (nHandlerId : Int) (tbParam : List LuaValue) : Event → Prop
  | .loginDirect => registerCode tbParam = some .ok ∨ registerCode tbParam = none ∧ Free w nHandlerId
  | .other => False

instance (w : World) (nHandlerId : Int) (tbParam : List LuaValue) :
    (event : Event) → Decidable (RequestTidy w nHandlerId tbParam event)
  | .loginDirect => inferInstanceAs (Decidable (_ ∨ _))
  | .other => isFalse id

def LoginTidy (w : World) : Action → Prop
  | .request _ _ .malformed _ => False
  | .request _ _ .noTable _ => True
  | .request nHandlerId _ (.table tbParam) event => RequestTidy w nHandlerId tbParam event
  | .deliver reply => ∀ d ∈ w.commands.head?, ReplyTidy w d (replyTurn w d reply)

instance (w : World) : (action : Action) → Decidable (LoginTidy w action)
  | .request _ _ .malformed _ => isFalse id
  | .request _ _ .noTable _ => isTrue trivial
  | .request _ _ (.table _) _ => inferInstanceAs (Decidable (RequestTidy ..))
  | .deliver _ => inferInstanceAs (Decidable (∀ d ∈ w.commands.head?, _))

/-! ## What one step does to the queues

One lemma for each way that a request or a response can go.
-/

section Requests

variable {w : World} {nHandlerId : Int} {tbParam : List LuaValue}

theorem login_waits (nSequenceId : Int) (valid : registerCode tbParam = some .ok) :
    Waits w (arrive nHandlerId nSequenceId (.table tbParam) .loginDirect w) nHandlerId
      (requestOf w nSequenceId tbParam) := by
  have returned : exec (dispatch nHandlerId .loginDirect (requestOf w nSequenceId tbParam))
      (w.push nHandlerId (requestOf w nSequenceId tbParam)) =
        (.ok (), (w.push nHandlerId (requestOf w nSequenceId tbParam)).issue
          [⟨.number nHandlerId, .getDeviceId, w.arrived.length,
            some (nHandlerId, requestOf w nSequenceId tbParam)⟩]) := by
    simp only [dispatch, onClientLoginDirect, requestOf, valid]
    rfl
  rw [arrive, onClientRequest_of_return returned]
  refine ⟨fun k => entries_push w nHandlerId k _, ?_, rfl, rfl, rfl, rfl, rfl⟩
  exact ⟨_, [], quiet_nil, rfl, rfl, rfl⟩

/-- What cannot be logged raises, and its entry is removed. -/
theorem login_served (nSequenceId : Int) (raises : registerCode tbParam = none) (free : Free w nHandlerId) :
    Served w (arrive nHandlerId nSequenceId (.table tbParam) .loginDirect w) (requestOf w nSequenceId tbParam) [] := by
  let request := requestOf w nSequenceId tbParam
  have pushed : ∀ k, (w.push nHandlerId request).net.entries k =
      if k = nHandlerId then w.net.entries k ++ [request] else w.net.entries k :=
    fun k => entries_push w nHandlerId k request
  have own : (w.push nHandlerId request).net.entries nHandlerId = [request] := by
    rw [pushed, if_pos rfl, free, List.nil_append]
  have raised : exec (dispatch nHandlerId .loginDirect (requestOf w nSequenceId tbParam))
      (w.push nHandlerId (requestOf w nSequenceId tbParam)) = (.error (), w.push nHandlerId request) := by
    simp only [dispatch, onClientLoginDirect, requestOf, raises]
    rfl
  rw [arrive, onClientRequest_of_raise raised own]
  exact ⟨entries_served free pushed, ⟨[], quiet_nil, (List.append_nil _).symm⟩, rfl, rfl, rfl, .inl rfl, rfl⟩

theorem request_tidy {event : Event} (nSequenceId : Int) (tidy : RequestTidy w nHandlerId tbParam event) :
    Tidy w (arrive nHandlerId nSequenceId (.table tbParam) event w) := by
  cases event with
  | other => exact tidy.elim
  | loginDirect =>
      rcases tidy with valid | ⟨raises, free⟩
      · exact .waits (login_waits nSequenceId valid)
      · exact .served (login_served nSequenceId raises free)

end Requests

section Replies

variable {w : World} {d : PendingCall AsyncEvent} {commands : List (PendingCall AsyncEvent)} {reply : Reply}
  {nHandlerId : Int}

theorem quiet_savings (call : Nat) : Quiet (savings call) := fun d member => by rw [List.eq_of_mem_replicate member]

theorem entries_update (net : NetManager) (nUserId : LuaValue) (h k : Int) :
    (net.updateHandlerIdAndUserId nUserId h).entries k = net.entries k :=
  NetManager.entries_of_requestSquence (net.requestSquence_updateHandlerIdAndUserId nUserId h) k

theorem entries_register (net : NetManager) (nUserId : LuaValue) (h k : Int) :
    (net.registerProcess nUserId h).entries k = net.entries k :=
  NetManager.entries_of_requestSquence (net.requestSquence_registerProcess nUserId h) k

/-- The response to a search, while there is a request on its connection. -/
theorem replied_device {tbParam : List LuaValue} (next : w.commands = d :: commands) (event : d.nEventId = .getDeviceId)
    (device : d.nUserId = .number nHandlerId) (param : w.net.getParamFromSquence nHandlerId = some tbParam) :
    replied reply w =
      (exec (onDevice d nHandlerId (w.net.getSquenceIdFromSquence (some nHandlerId)) tbParam reply)
        { w with commands := commands }).2 := by
  rw [replied, next]
  simp only [onRedisRespone, event, device, onDeviceId, exec_bind, exec_get, param]

/-- A response that ends a login removes its request and answers it. -/
theorem device_completed {tbParam : List LuaValue} {request : Request} {rest : List Request}
    (next : w.commands = d :: commands) {h : Int} (front : w.net.entries h = request :: rest)
    (answers : deviceTurn w nHandlerId tbParam reply = .answers (some h)) :
    Completed w (exec (onDevice d nHandlerId (w.net.getSquenceIdFromSquence (some nHandlerId)) tbParam reply)
      { w with commands := commands }).2 d h request := by
  cases reply with
  | raises => cases answers
  | text => cases answers
  | empty nUserGlobalId =>
      cases valid : isRegisterParam tbParam with
      | true => cases nUserGlobalId <;> simp [deviceTurn, valid] at answers
      | false =>
          simp only [deviceTurn, valid, Bool.false_eq_true, if_false, ReplyTurn.answers.injEq,
            Option.some.injEq] at answers
          subst answers
          have sent := exec_sendToGateway_cons (w := { w with commands := commands }) d.call
            (w.net.getSquenceIdFromSquence (some nHandlerId)) front
          simp only [onDevice, onClientRegister, valid, Bool.false_eq_true, if_false]
          rw [sent, w.net.getSquenceIdFromSquence_cons front]
          exact .of_answer w.net next (fun _ => rfl) front
  | number n cached =>
      cases cached with
      | false => cases answers
      | true =>
          let net := w.net.updateHandlerIdAndUserId (.number n) nHandlerId
          have found : net.getHandlerId (.number n) = some h := ReplyTurn.answers.inj answers
          have same : ∀ k, net.entries k = w.net.entries k := entries_update w.net _ _
          have sent := exec_sendToUser (w := { w with net := net, commands := commands }) d.call found
            ((same h).trans front)
          simp only [onDevice, onClientLogin, exec_bind, exec_modify, if_true, onResponeClientLogin]
          rw [sent]
          exact .of_answer net next same front

/-- A response that asks for more leaves the request in its queue. -/
theorem device_again {tbParam : List LuaValue} (next : w.commands = d :: commands)
    (again : deviceTurn w nHandlerId tbParam reply = .again) :
    Again w (exec (onDevice d nHandlerId (w.net.getSquenceIdFromSquence (some nHandlerId)) tbParam reply)
      { w with commands := commands }).2 d := by
  cases reply with
  | raises => cases again
  | text => cases again
  | empty nUserGlobalId =>
      cases valid : isRegisterParam tbParam with
      | false => simp [deviceTurn, valid] at again
      | true =>
          cases nUserGlobalId with
          | none => simp [deviceTurn, valid] at again
          | some nUserId =>
              simp only [onDevice, onClientRegister, valid, if_true, exec_bind, exec_modify, Script.toRedis]
              exact .of_issue _ next (entries_register w.net _ _) (quiet_savings _) rfl rfl
  | number n cached =>
      cases cached with
      | true => cases again
      | false =>
          simp only [onDevice, onClientLogin, exec_bind, exec_modify, Bool.false_eq_true, if_false, Script.toRedis]
          exact .of_issue _ next (entries_update w.net _ _) quiet_nil rfl rfl

theorem device_dropped {tbParam : List LuaValue} (next : w.commands = d :: commands)
    (silent : deviceTurn w nHandlerId tbParam reply = .silent) :
    Dropped w (exec (onDevice d nHandlerId (w.net.getSquenceIdFromSquence (some nHandlerId)) tbParam reply)
      { w with commands := commands }).2 d := by
  cases reply with
  | raises => exact .of_entries w.net next fun _ => rfl
  | text => exact .of_entries _ next (entries_update w.net _ _)
  | number n cached => cases cached <;> cases silent
  | empty nUserGlobalId =>
      cases valid : isRegisterParam tbParam with
      | false => simp [deviceTurn, valid] at silent
      | true =>
          cases nUserGlobalId with
          | some nUserId => simp [deviceTurn, valid] at silent
          | none =>
              simp only [onDevice, onClientRegister, valid, if_true]
              exact .of_entries w.net next fun _ => rfl

/-- A reply that raises, or that does nothing, is one that nobody waits for. -/
theorem idle_tidy (next : w.commands = d :: commands) (nobody : d.waits = none)
    (idle : (exec (onRedisRespone d reply) { w with commands := commands }).2 = { w with commands := commands }) :
    Tidy w (replied reply w) := by
  have after : replied reply w = { w with commands := commands } := by
    rw [replied, next]
    exact idle
  rw [after]
  exact .dropped nobody (.of_entries w.net next fun _ => rfl)

/-- A reply that answers the user that it is for. -/
theorem user_tidy (next : w.commands = d :: commands)
    (answers : onRedisRespone d reply = onResponeClientLogin d.call d.nUserId)
    (tidy : ReplyTidy w d (.answers (w.net.getHandlerId d.nUserId))) : Tidy w (replied reply w) := by
  apply tidy_of_reply tidy
  · intro silent
    cases silent
  · intro again
    cases again
  · intro h request rest front found
    have sent := exec_sendToUser (w := { w with commands := commands }) d.call (ReplyTurn.answers.inj found) front
    rw [replied, next]
    simp only [answers, onResponeClientLogin]
    rw [sent]
    exact .of_answer w.net next (fun _ => rfl) front

/-- The responses to all calls together. -/
theorem reply_tidy (next : w.commands = d :: commands) (tidy : ReplyTidy w d (replyTurn w d reply)) :
    Tidy w (replied reply w) := by
  cases event : d.nEventId with
  | none =>
      simp only [replyTurn, event] at tidy
      exact idle_tidy next tidy (by simp only [onRedisRespone, event, exec_pure])
  | getUserGlobalId =>
      simp only [replyTurn, event] at tidy
      exact idle_tidy next tidy (by simp only [onRedisRespone, event, exec_pure])
  | registering =>
      by_cases raises : reply = .raises
      · simp only [replyTurn, event, if_pos raises] at tidy
        exact idle_tidy next tidy (by simp only [onRedisRespone, event, if_pos raises, exec_raise])
      · simp only [replyTurn, event, if_neg raises] at tidy
        exact user_tidy next (by simp only [onRedisRespone, event, if_neg raises]) tidy
  | getGameData =>
      by_cases record : reply = .text
      · simp only [replyTurn, event, if_pos record] at tidy
        exact user_tidy next (by simp only [onRedisRespone, event, if_pos record]) tidy
      · simp only [replyTurn, event, if_neg record] at tidy
        exact idle_tidy next tidy (by simp only [onRedisRespone, event, if_neg record, exec_raise])
  | getDeviceId =>
      cases device : d.nUserId with
      | number k =>
          cases param : w.net.getParamFromSquence k with
          | none =>
              simp only [replyTurn, event, device, param] at tidy
              apply idle_tidy next tidy
              simp only [onRedisRespone, event, device, onDeviceId, exec_bind, exec_get, param, exec_raise]
          | some tbParam =>
              simp only [replyTurn, event, device, param] at tidy
              rw [replied_device next event device param]
              exact tidy_of_reply tidy (device_dropped next) (device_again next)
                fun front answers => device_completed next front answers
      | _ =>
          simp only [replyTurn, event, device] at tidy
          exact idle_tidy next tidy (by simp only [onRedisRespone, event, device, exec_raise])

end Replies

/-- What the login server does in order loses no entry. -/
theorem loginAct_tidy {w : World} {action : Action} (tidy : LoginTidy w action) : Tidy w (loginAct w action) := by
  cases action with
  | request nHandlerId nSequenceId decoded event =>
      cases decoded with
      | malformed => exact tidy.elim
      | noTable => exact .idle rfl
      | table tbParam => exact request_tidy nSequenceId tidy
  | deliver reply =>
      cases next : w.commands with
      | nil =>
          refine .idle ?_
          simp only [loginAct, replied, next]
      | cons d rest => exact reply_tidy next (tidy d (by rw [next]; rfl))

end GameServer.Login.Requests
