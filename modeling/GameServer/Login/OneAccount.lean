/-
Module: GameServer.Login.OneAccount
Purpose: `LOGIN_DIRECT` requests, the commands they make and the responses, in any order: one user id for a
  device, and the answers that name it.
Trusted boundary: the reply to the question for the global user id, which is queued first, was delivered;
  a record is read back as it was written
Main exports: LoginWorld, loginStep, LoginGuard, OneAccount, oneAccount_of_guarded
-/
import GameServer.Lib.Runs
import GameServer.Login.LoginProtocol
import GameServer.Login.SharedRecords
import GameServer.Script.RecordText

namespace GameServer.Login

open Lib Lib.LuaM Script

/-! ## Requests, commands and responses

Every command and every response carries the request that it goes back to, which no function of the model reads.
-/

/-- A `LOGIN_DIRECT` request; its number tells requests apart and is read by no function. -/
structure LoginRequest where
  nHandlerId : Int
  nSequenceId : Int
  strDeviceId : String
  strIp : String
  call : Nat
deriving Repr, DecidableEq

/-- The entry of the request in the queue of its connection. -/
def LoginRequest.entry (request : LoginRequest) : Request :=
  ⟨request.nSequenceId, [.string request.strDeviceId, .string request.strIp], request.call⟩

/-- A response of the database, with the request that it goes back to. -/
structure LoginResponse where
  request : LoginRequest
  nUserId : Int
  nEventId : AsyncEvent
  reply : LoginReply

/-- The login server and its database.  Commands and responses are queued, each with the request that made
them, and so are the answers that were given. -/
structure LoginWorld where
  scripts : LoginState
  commands : List (LoginRequest × RedisCall)
  responses : List LoginResponse
  registers : String → Option Int
  gameData : String → Option (String → String → LuaValue)
  arrived : List LoginRequest
  answered : List (LoginRequest × LoginAnswer)

variable (cfg : LoginConfig)

/-- The server has learnt the global user id; the database holds what former servers wrote. -/
def LoginWorld.init (nUserGlobalId : Int) (registers : String → Option Int)
    (gameData : String → Option (String → String → LuaValue)) : LoginWorld where
  scripts := .loaded cfg nUserGlobalId
  commands := []
  responses := []
  registers := registers
  gameData := gameData
  arrived := []
  answered := []

namespace LoginWorld

/-- The scripts run a function for a request. -/
def run (w : LoginWorld) (request : LoginRequest) (m : LuaM LoginState Unit) : LoginWorld :=
  let s := (exec m w.scripts).2
  { w with
    scripts := { s with toRedis := [], toGateway := [] }
    commands := w.commands ++ s.toRedis.map fun call => (request, call)
    answered := w.answered ++ s.toGateway.map fun answer => (request, answer) }

/-- A request arrives. -/
def arrive (w : LoginWorld) (nHandlerId nSequenceId : Int) (strDeviceId strIp : String) : LoginWorld :=
  let request : LoginRequest := ⟨nHandlerId, nSequenceId, strDeviceId, strIp, w.arrived.length⟩
  run { w with arrived := w.arrived ++ [request] } request (onClientRequest nHandlerId request.entry)

/-- Redis executes a command, under the key that reaches it. -/
def executed (w : LoginWorld) (request : LoginRequest) (call : RedisCall) : LoginWorld :=
  match call with
  | .get .register nUserId event strKey =>
      let reply :=
        match w.registers (redisKey strKey) with
        | some n => LoginReply.number n
        | none => .empty
      { w with responses := w.responses ++ [⟨request, nUserId, event, reply⟩] }
  | .get .gameData nUserId event strKey =>
      let reply :=
        match w.gameData (redisKey strKey) with
        | some value => LoginReply.record value
        | none => .empty
      { w with responses := w.responses ++ [⟨request, nUserId, event, reply⟩] }
  | .get _ nUserId event _ => { w with responses := w.responses ++ [⟨request, nUserId, event, .empty⟩] }
  | .set table nUserId event strKey value =>
      let w := { w with responses := w.responses ++ [⟨request, nUserId, event, .ok⟩] }
      match table, value with
      | .register, .number n => { w with registers := Function.update w.registers (redisKey strKey) (some n) }
      | .gameData, .record value =>
          { w with gameData := Function.update w.gameData (redisKey strKey) (some value) }
      | _, _ => w

/-- Redis executes the next command. -/
def execute (w : LoginWorld) : LoginWorld :=
  match w.commands with
  | [] => w
  | (request, call) :: rest => executed { w with commands := rest } request call

/-- The next response reaches the scripts. -/
def deliver (w : LoginWorld) : LoginWorld :=
  match w.responses with
  | [] => w
  | r :: rest => run { w with responses := rest } r.request (onRedisRespone cfg r.nUserId r.nEventId r.reply)

end LoginWorld

inductive LoginAction where
  | arrive (nHandlerId nSequenceId : Int) (strDeviceId strIp : String)
  | execute
  | deliver

def loginStep (w : LoginWorld) : LoginAction → LoginWorld
  | .arrive nHandlerId nSequenceId strDeviceId strIp => w.arrive nHandlerId nSequenceId strDeviceId strIp
  | .execute => w.execute
  | .deliver => w.deliver cfg

/-! ## The property and its condition

A device has one user id, in the database and in all answers, and every request is answered once.
-/

/-- The user id was registered for the device, now or before the server was started. -/
def LoginWorld.HasId (registers : String → Option Int) (w : LoginWorld) (strDeviceId : String)
    (nUserId : Int) : Prop :=
  registers strDeviceId = some nUserId ∨ ⟨nUserId, strDeviceId⟩ ∈ w.scripts.registered

/-- No device has two user ids, every answer is the one its request is waiting for and names the user id of
the device, and when nothing is under way every request was answered once. -/
structure OneAccount (registers : String → Option Int) (w : LoginWorld) : Prop where
  one : ∀ strDeviceId nUserId nUserId', w.HasId registers strDeviceId nUserId →
    w.HasId registers strDeviceId nUserId' → nUserId = nUserId'
  answers : ∀ a ∈ w.answered, ∃ nUserId, w.HasId registers a.1.strDeviceId nUserId ∧
    a.2 = ⟨a.1.nSequenceId, .ok, a.1.nHandlerId, some nUserId⟩
  complete : w.commands = [] → w.responses = [] → (w.answered.map Prod.fst).Perm w.arrived

/-- The request is the next one on its connection. -/
def LoginState.AtFront (s : LoginState) (request : LoginRequest) : Prop :=
  s.net.frontOfSquence request.nHandlerId = some request.entry

/-- What the user's object in the pool says about his id. -/
def LoginState.pooledId (s : LoginState) (nUserId : Int) : Option LuaValue :=
  (s.getUserObject nUserId).map (userIdOf s.heap)

/-- The steps that keep to one account: requests come on positive connections, and with a device id that has no NUL;
when a lookup returns, its request is the next one of its connection, a device that was not found was not registered
meanwhile and the id it is given is one that is written with all its digits, and the object of the user that was found
still has his id; when a registration or a record returns, the user is still on the connection of the request, which
is the next one there, and the object or the record has his id. -/
def LoginGuard (w : LoginWorld) : LoginAction → Prop
  | .arrive nHandlerId _ strDeviceId _ => 0 < nHandlerId ∧ NoNul strDeviceId
  | .execute => True
  | .deliver => ∀ r ∈ w.responses.head?,
      match r.nEventId with
      | .getDeviceId =>
          w.scripts.AtFront r.request ∧
            match r.reply with
            | .number nUserId => ∀ id ∈ w.scripts.pooledId nUserId, id = .number nUserId
            | _ => (∀ other ∈ w.scripts.registered, other.strDeviceId ≠ r.request.strDeviceId) ∧
                ∀ nUserGlobalId ∈ w.scripts.userGlobalId, nUserGlobalId.natAbs < 10 ^ 14
      | .registering =>
          w.scripts.AtFront r.request ∧
            w.scripts.net.getHandlerId (.number r.nUserId) = some r.request.nHandlerId ∧
            w.scripts.pooledId r.nUserId = some (.number r.nUserId)
      | .getGameData =>
          w.scripts.AtFront r.request ∧
            w.scripts.net.getHandlerId (.number r.nUserId) = some r.request.nHandlerId ∧
            ∃ value, r.reply = .record value ∧ value baseInfo userIdField = .number r.nUserId
      | _ => True

/-! ## What the scripts do

The functions that end a request, by what they leave.
-/

theorem onClientRequest_eq (request : LoginRequest) (s : LoginState) :
    (exec (onClientRequest request.nHandlerId request.entry) s).2 =
      { s with
        net := s.net.pushRequestToSquence request.nHandlerId request.entry
        toRedis := s.toRedis ++ [.get .register request.nHandlerId .getDeviceId request.strDeviceId] } :=
  rfl

/-- The request was taken from its queue and answered with the user id. -/
def Answers (request : LoginRequest) (nUserId : Int) (s t : LoginState) : Prop :=
  ∃ net, t = { s with
    net := net
    toGateway := s.toGateway ++ [⟨request.nSequenceId, .ok, request.nHandlerId, some nUserId⟩] }

/-- The record of the user was asked for. -/
def AsksRecord (nUserId : Int) (s t : LoginState) : Prop :=
  ∃ net, t = { s with
    net := net, toRedis := s.toRedis ++ [.get .gameData nUserId .getGameData nUserId.repr] }

/-- The object of a user who is cached with his id is answered with it. -/
theorem answerLogin_spec {s : LoginState} {request : LoginRequest} {nUserId : Int}
    (front : s.AtFront request) (handler : s.net.getHandlerId (.number nUserId) = some request.nHandlerId)
    (id : s.pooledId nUserId = some (.number nUserId)) :
    wp (answerLogin nUserId) (fun _ => Answers request nUserId s) (Answers request nUserId s) s := by
  obtain ⟨gameData, found, own⟩ := Option.map_eq_some_iff.mp id
  obtain ⟨rest, popped⟩ := s.net.popRequestFromSquence_of_front front
  have code : login s nUserId = (.ok, some nUserId) := by
    rw [login, found]
    exact if_pos own
  have sequence : s.net.getSquenceIdFromSquence (some request.nHandlerId) = request.nSequenceId := by
    rw [NetManager.getSquenceIdFromSquence, Option.bind_some, front]
    rfl
  simp only [answerLogin, onResponeClientLogin, sendToGateway, popRequestFromSquence, wp_bind, wp_get,
    code, handler, sequence, popped, wp_modify]
  exact ⟨_, rfl⟩

/-- A user with an object logs in at once; otherwise his record is asked for. -/
theorem onClientLogin_spec {s : LoginState} {request : LoginRequest} {nUserId : Int}
    (positive : 0 < request.nHandlerId) (front : s.AtFront request)
    (id : ∀ id ∈ s.pooledId nUserId, id = .number nUserId) :
    wp (onClientLogin request.nHandlerId nUserId)
      (fun _ t => AsksRecord nUserId s t ∨ Answers request nUserId s t)
      (fun t => AsksRecord nUserId s t ∨ Answers request nUserId s t) s := by
  let updated : LoginState :=
    { s with net := s.net.updateHandlerIdAndUserId (.number nUserId) request.nHandlerId }
  simp only [onClientLogin, wp_bind, wp_modify, wp_get]
  cases found : updated.getUserObject nUserId with
  | none => exact Or.inl ⟨_, rfl⟩
  | some gameData =>
      have handler : updated.net.getHandlerId (.number nUserId) = some request.nHandlerId := by
        simp [updated, NetManager.updateHandlerIdAndUserId, NetManager.setHandlerId, NetManager.setUserId,
          positive, NetManager.getHandlerId]
      have stillFront : updated.AtFront request := by
        rw [LoginState.AtFront, NetManager.frontOfSquence,
          NetManager.requestSquence_updateHandlerIdAndUserId]
        exact front
      have pooled : updated.pooledId nUserId = some (.number nUserId) := by
        have inPool : s.pooledId nUserId = some (userIdOf s.heap gameData) :=
          congrArg (Option.map (userIdOf s.heap)) found
        rw [id _ inPool] at inPool
        exact inPool
      have later : ∀ t, Answers request nUserId updated t → Answers request nUserId s t := by
        rintro t ⟨net, rfl⟩
        exact ⟨net, rfl⟩
      exact wp_mono (answerLogin_spec stillFront handler pooled) (fun _ t h => Or.inr (later t h))
        fun t h => Or.inr (later t h)

/-- The tables of a record that was read are its own. -/
theorem cacheRecord_spec (value : String → String → LuaValue) (s : LoginState) :
    wp (cacheRecord cfg value)
      (fun _ t => t.net = s.net ∧ t.toGateway = s.toGateway ∧ t.toRedis = s.toRedis ∧
        t.userGlobalId = s.userGlobalId ∧ t.registered = s.registered ∧ s.heap.next ≤ t.heap.next ∧
        ∀ nUserId, value baseInfo userIdField = .number nUserId →
          t.pooledId nUserId = some (.number nUserId)) (fun _ => False) s := by
  simp only [cacheRecord, wp_modify]
  refine ⟨trivial, trivial, trivial, trivial, trivial, Nat.le_add_right s.heap.next 3, ?_⟩
  intro nUserId id
  have pooled : LoginState.getUserObject
      { s with
        heap := decodeRecord cfg s.heap value
        userDataPool := Function.update s.userDataPool (value baseInfo userIdField).tostring
          (some (s.heap.next + 2)) } nUserId = some (s.heap.next + 2) := by
    simp only [LoginState.getUserObject, id, Function.update_self]
  rw [LoginState.pooledId, pooled]
  exact congrArg some ((recordAt_decodeRecord cfg s.heap value userIdField).trans id)

/-! ## The invariant

What is queued fits the request that it goes back to, and every request is under way or answered, but not both.
-/

variable (registers : String → Option Int)

/-- What a queued command has to do with the request that made it. -/
def CommandFits (w : LoginWorld) (request : LoginRequest) : RedisCall → Prop
  | .get .register nUserId event strKey =>
      event = .getDeviceId ∧ nUserId = request.nHandlerId ∧ strKey = request.strDeviceId ∧
        0 < request.nHandlerId ∧ NoNul strKey
  | .get .gameData nUserId event _ =>
      event = .getGameData ∧ w.HasId registers request.strDeviceId nUserId
  | .set .register _ event strKey (.number nUserId) =>
      event = .none ∧ ⟨nUserId, strKey⟩ ∈ w.scripts.registered ∧ NoNul strKey
  | .set .gameData nUserId event _ (.record _) =>
      event = .registering ∧ w.HasId registers request.strDeviceId nUserId
  | .set .global _ event _ _ | .set .account _ event _ _ => event = .none
  | _ => False

/-- What a queued response has to do with its request. -/
def ResponseFits (w : LoginWorld) (r : LoginResponse) : Prop :=
  match r.nEventId with
  | .getDeviceId => r.nUserId = r.request.nHandlerId ∧ 0 < r.request.nHandlerId ∧ NoNul r.request.strDeviceId ∧
      match r.reply with
      | .number nUserId => w.HasId registers r.request.strDeviceId nUserId
      | .empty => registers r.request.strDeviceId = none
      | _ => False
  | .registering | .getGameData => w.HasId registers r.request.strDeviceId r.nUserId
  | .none => True
  | .getUserGlobalId => False

def RedisCall.event : RedisCall → AsyncEvent
  | .get _ _ event _ => event
  | .set _ _ event _ _ => event

/-- The requests that a list of commands is going to continue. -/
def continued (commands : List (LoginRequest × RedisCall)) : List LoginRequest :=
  (commands.filter fun c => c.2.event ≠ .none).map Prod.fst

/-- The requests that are being worked on. -/
def LoginWorld.underWay (w : LoginWorld) : List LoginRequest :=
  (w.responses.filter fun r => r.nEventId ≠ .none).map LoginResponse.request ++ continued w.commands

structure AccountInvariant (w : LoginWorld) : Prop where
  flushed : w.scripts.toRedis = [] ∧ w.scripts.toGateway = []
  known : w.scripts.userGlobalId ≠ none
  made : friendInfoTemplate < w.scripts.heap.next
  distinct : (w.scripts.registered.map Registered.strDeviceId).Nodup
  fresh : ∀ r ∈ w.scripts.registered, registers r.strDeviceId = none
  kept : ∀ strDeviceId nUserId, registers strDeviceId = some nUserId → w.registers strDeviceId = some nUserId
  stored : ∀ strDeviceId nUserId, w.registers strDeviceId = some nUserId →
    w.HasId registers strDeviceId nUserId
  commands : ∀ c ∈ w.commands, CommandFits registers w c.1 c.2
  responses : ∀ r ∈ w.responses, ResponseFits registers w r
  answers : ∀ a ∈ w.answered, ∃ nUserId, w.HasId registers a.1.strDeviceId nUserId ∧
    a.2 = ⟨a.1.nSequenceId, .ok, a.1.nHandlerId, some nUserId⟩
  tokens : (w.underWay ++ w.answered.map Prod.fst).Perm w.arrived

theorem accountInvariant_init (nUserGlobalId : Int)
    (gameData : String → Option (String → String → LuaValue)) :
    AccountInvariant registers (.init cfg nUserGlobalId registers gameData) where
  flushed := ⟨rfl, rfl⟩
  known := Option.some_ne_none _
  made := Nat.lt_succ_self _
  distinct := List.nodup_nil
  fresh _ member := absurd member List.not_mem_nil
  kept _ _ found := found
  stored _ _ found := Or.inl found
  commands _ member := absurd member List.not_mem_nil
  responses _ member := absurd member List.not_mem_nil
  answers _ member := absurd member List.not_mem_nil
  tokens := List.Perm.refl _

section Mono

variable {registers} {w w' : LoginWorld}
  (more : ∀ r ∈ w.scripts.registered, r ∈ w'.scripts.registered)

include more

theorem LoginWorld.HasId.mono {strDeviceId : String} {nUserId : Int}
    (has : w.HasId registers strDeviceId nUserId) : w'.HasId registers strDeviceId nUserId :=
  has.imp id (more _)

theorem CommandFits.mono {request : LoginRequest} {call : RedisCall}
    (fits : CommandFits registers w request call) : CommandFits registers w' request call := by
  cases call with
  | get table nUserId event strKey =>
      cases table with
      | gameData => exact ⟨fits.1, fits.2.mono more⟩
      | register => exact fits
      | global | account => exact fits
  | set table nUserId event strKey value =>
      cases table with
      | register =>
          cases value with
          | number n => exact ⟨fits.1, more _ fits.2.1, fits.2.2⟩
          | fields _ | record _ => exact fits
      | gameData =>
          cases value with
          | record _ => exact ⟨fits.1, fits.2.mono more⟩
          | fields _ | number _ => exact fits
      | global | account => exact fits

theorem ResponseFits.mono {r : LoginResponse} (fits : ResponseFits registers w r) :
    ResponseFits registers w' r := by
  obtain ⟨request, nUserId, event, reply⟩ := r
  cases event with
  | getDeviceId =>
      cases reply with
      | number n => exact ⟨fits.1, fits.2.1, fits.2.2.1, LoginWorld.HasId.mono more fits.2.2.2⟩
      | empty | ok | record _ => exact fits
  | registering => exact LoginWorld.HasId.mono more fits
  | getGameData => exact LoginWorld.HasId.mono more fits
  | none | getUserGlobalId => exact fits

end Mono

/-- No device has two ids. -/
theorem AccountInvariant.one {w : LoginWorld} (inv : AccountInvariant registers w) (strDeviceId : String)
    (nUserId nUserId' : Int) (first : w.HasId registers strDeviceId nUserId)
    (second : w.HasId registers strDeviceId nUserId') : nUserId = nUserId' := by
  rcases first with before | now
  · rcases second with before' | now'
    · exact Option.some.inj (before.symm.trans before')
    · exact absurd (before.symm.trans (inv.fresh _ now')) (by simp)
  · rcases second with before' | now'
    · exact absurd (before'.symm.trans (inv.fresh _ now)) (by simp)
    · have same := List.inj_on_of_nodup_map inv.distinct now now' rfl
      exact congrArg Registered.nUserId same

/-- The invariant says all that the property asks for. -/
theorem AccountInvariant.oneAccount {w : LoginWorld} (inv : AccountInvariant registers w) :
    OneAccount registers w where
  one := inv.one
  answers := inv.answers
  complete noCommands noResponses := by
    have tokens := inv.tokens
    rw [LoginWorld.underWay, noCommands, noResponses] at tokens
    exact tokens

/-! ## Steps

One lemma for each kind of step, and at the end all of them in a run.
-/

theorem continued_append (commands more : List (LoginRequest × RedisCall)) :
    continued (commands ++ more) = continued commands ++ continued more := by
  simp [continued]

theorem AccountInvariant.arrive {w : LoginWorld} (inv : AccountInvariant registers w) {nHandlerId : Int}
    (positive : 0 < nHandlerId) (nSequenceId : Int) {strDeviceId : String} (noNul : NoNul strDeviceId)
    (strIp : String) :
    AccountInvariant registers (w.arrive nHandlerId nSequenceId strDeviceId strIp) := by
  let request : LoginRequest := ⟨nHandlerId, nSequenceId, strDeviceId, strIp, w.arrived.length⟩
  have ends : (w.arrive nHandlerId nSequenceId strDeviceId strIp) =
      { w with
        scripts := { w.scripts with
          net := w.scripts.net.pushRequestToSquence nHandlerId request.entry, toRedis := [], toGateway := [] }
        commands := w.commands ++ [(request, .get .register nHandlerId .getDeviceId strDeviceId)]
        arrived := w.arrived ++ [request]
        answered := w.answered ++ [] } := by
    simp only [LoginWorld.arrive, LoginWorld.run]
    rw [show (exec (onClientRequest nHandlerId (LoginRequest.entry request)) w.scripts).2 = _ from
      onClientRequest_eq request w.scripts, inv.flushed.1, inv.flushed.2]
    rfl
  rw [ends]
  have more : ∀ r ∈ w.scripts.registered, r ∈ w.scripts.registered := fun _ member => member
  constructor
  · exact ⟨rfl, rfl⟩
  · exact inv.known
  · exact inv.made
  · exact inv.distinct
  · exact inv.fresh
  · exact inv.kept
  · exact inv.stored
  · intro c member
    rcases List.mem_append.mp member with before | new
    · exact (inv.commands c before).mono more
    · rw [List.mem_singleton.mp new]
      exact ⟨rfl, rfl, rfl, positive, noNul⟩
  · exact fun r member => (inv.responses r member).mono more
  · rw [List.append_nil]
    exact inv.answers
  · rw [List.append_nil]
    change (_ ++ continued (w.commands ++ _) ++ _).Perm _
    rw [continued_append, ← List.append_assoc, List.append_assoc]
    have swap : (continued [(request, RedisCall.get .register nHandlerId .getDeviceId strDeviceId)] ++
        w.answered.map Prod.fst).Perm (w.answered.map Prod.fst ++ [request]) := List.perm_append_comm
    apply (swap.append_left _).trans
    rw [← List.append_assoc]
    exact inv.tokens.append_right [request]

/-- The response to a command has the event of the command; only a registration changes what is registered. -/
theorem executed_spec {w : LoginWorld} (inv : AccountInvariant registers w) {request : LoginRequest}
    {call : RedisCall} (fits : CommandFits registers w request call)
    (rest : List (LoginRequest × RedisCall)) :
    ∃ r stored gameData, r.request = request ∧ r.nEventId = call.event ∧ ResponseFits registers w r ∧
      LoginWorld.executed { w with commands := rest } request call =
        { w with
          commands := rest
          responses := w.responses ++ [r]
          registers := stored
          gameData := gameData } ∧
      (stored = w.registers ∨ ∃ reg ∈ w.scripts.registered,
        stored = Function.update w.registers reg.strDeviceId (some reg.nUserId)) := by
  cases call with
  | get table nUserId event strKey =>
      cases table with
      | register =>
          obtain ⟨rfl, rfl, rfl, positive, noNul⟩ := fits
          refine ⟨_, _, _, ?_, ?_, ?_, rfl, Or.inl rfl⟩
          · rfl
          · rfl
          · refine And.intro rfl (And.intro positive (And.intro noNul ?_))
            rw [redisKey_eq noNul]
            cases found : w.registers request.strDeviceId with
            | some n => exact inv.stored _ _ found
            | none =>
                apply Option.eq_none_iff_forall_ne_some.mpr
                intro n before
                exact absurd (found.symm.trans (inv.kept _ _ before)) (by simp)
      | gameData =>
          obtain ⟨rfl, has⟩ := fits
          refine ⟨_, _, _, ?_, ?_, ?_, rfl, Or.inl rfl⟩
          · rfl
          · rfl
          · exact has
      | global | account => exact absurd fits (by simp [CommandFits])
  | set table nUserId event strKey value =>
      cases table with
      | register =>
          cases value with
          | number n =>
              obtain ⟨rfl, member, noNul⟩ := fits
              refine ⟨_, _, _, ?_, ?_, ?_, rfl, Or.inr ⟨_, member, by rw [redisKey_eq noNul]⟩⟩
              · rfl
              · rfl
              · trivial
          | fields _ | record _ => exact absurd fits (by simp [CommandFits])
      | gameData =>
          cases value with
          | record _ =>
              obtain ⟨rfl, has⟩ := fits
              refine ⟨_, _, _, ?_, ?_, ?_, rfl, Or.inl rfl⟩
              · rfl
              · rfl
              · exact has
          | fields _ | number _ => exact absurd fits (by simp [CommandFits])
      | global | account =>
          have none : event = .none := fits
          subst none
          refine ⟨_, _, _, ?_, ?_, ?_, rfl, Or.inl rfl⟩
          · rfl
          · rfl
          · trivial

/-- Redis answers a search with what the device is registered under. -/
theorem AccountInvariant.execute {w : LoginWorld} (inv : AccountInvariant registers w) :
    AccountInvariant registers w.execute := by
  cases queue : w.commands with
  | nil =>
      rw [LoginWorld.execute, queue]
      exact inv
  | cons c rest =>
      obtain ⟨request, call⟩ := c
      have fits : CommandFits registers w request call :=
        inv.commands (request, call) (queue ▸ List.mem_cons_self)
      obtain ⟨r, stored, gameData, rfl, event, responseFits, ends, change⟩ :=
        executed_spec registers inv fits rest
      rw [LoginWorld.execute, queue]
      change AccountInvariant registers (LoginWorld.executed { w with commands := rest } r.request call)
      rw [ends]
      have more : ∀ r ∈ w.scripts.registered, r ∈ w.scripts.registered := fun _ member => member
      constructor
      · exact inv.flushed
      · exact inv.known
      · exact inv.made
      · exact inv.distinct
      · exact inv.fresh
      · rintro strDeviceId nUserId before
        rcases change with rfl | ⟨reg, member, rfl⟩
        · exact inv.kept _ _ before
        · -- what was registered now had no id before
          have other : strDeviceId ≠ reg.strDeviceId := by
            rintro rfl
            exact absurd (before.symm.trans (inv.fresh reg member)) (by simp)
          exact (Function.update_of_ne other _ _).trans (inv.kept _ _ before)
      · intro strDeviceId nUserId found
        rcases change with rfl | ⟨reg, member, rfl⟩
        · exact inv.stored _ _ found
        · change Function.update w.registers reg.strDeviceId (some reg.nUserId) strDeviceId =
            some nUserId at found
          by_cases here : strDeviceId = reg.strDeviceId
          · subst here
            rw [Function.update_self] at found
            cases found
            exact Or.inr member
          · rw [Function.update_of_ne here] at found
            exact inv.stored _ _ found
      · exact fun c member => (inv.commands c (queue ▸ List.mem_cons_of_mem _ member)).mono more
      · intro r' member
        rcases List.mem_append.mp member with before | new
        · exact (inv.responses r' before).mono more
        · rw [List.mem_singleton.mp new]
          exact responseFits.mono more
      · exact inv.answers
      · have same : ((w.responses ++ [r]).filter fun r => r.nEventId ≠ .none).map LoginResponse.request ++
            continued rest = w.underWay := by
          rw [LoginWorld.underWay, queue]
          by_cases none : call.event = .none <;> simp [continued, event, none]
        change (_ ++ continued rest ++ _).Perm _
        rw [same]
        exact inv.tokens

/-- The scripts worked on a response. -/
theorem AccountInvariant.handled {w : LoginWorld} (inv : AccountInvariant registers w) {r : LoginResponse}
    {rest : List LoginResponse} (queue : w.responses = r :: rest) {m : LuaM LoginState Unit}
    {t : LoginState} (ends : (exec m w.scripts).2 = t) {news : List Registered}
    (registered : t.registered = w.scripts.registered ++ news)
    (known : t.userGlobalId ≠ none) (made : friendInfoTemplate < t.heap.next)
    (distinct : (t.registered.map Registered.strDeviceId).Nodup)
    (fresh : ∀ reg ∈ news, registers reg.strDeviceId = none)
    (commands : ∀ call ∈ t.toRedis, ∀ w', w'.scripts.registered = t.registered →
      CommandFits registers w' r.request call)
    (answers : ∀ answer ∈ t.toGateway, ∃ nUserId, (registers r.request.strDeviceId = some nUserId ∨
      ⟨nUserId, r.request.strDeviceId⟩ ∈ t.registered) ∧
        answer = ⟨r.request.nSequenceId, .ok, r.request.nHandlerId, some nUserId⟩)
    (tokens : (t.toRedis.filter fun call => call.event ≠ .none).length + t.toGateway.length =
      if r.nEventId = .none then 0 else 1) :
    AccountInvariant registers (LoginWorld.run { w with responses := rest } r.request m) := by
  have more : ∀ reg ∈ w.scripts.registered, reg ∈ t.registered :=
    fun reg member => registered ▸ List.mem_append_left _ member
  simp only [LoginWorld.run, ends]
  constructor
  · exact ⟨rfl, rfl⟩
  · exact known
  · exact made
  · exact distinct
  · intro reg member
    change reg ∈ t.registered at member
    rw [registered] at member
    exact (List.mem_append.mp member).elim (inv.fresh reg) (fresh reg)
  · exact inv.kept
  · exact fun strDeviceId nUserId found => (inv.stored strDeviceId nUserId found).mono more
  · intro c member
    rcases List.mem_append.mp member with before | new
    · exact (inv.commands c before).mono more
    · obtain ⟨call, made, rfl⟩ := List.mem_map.mp new
      exact commands call made _ rfl
  · exact fun r' member => (inv.responses r' (queue ▸ List.mem_cons_of_mem _ member)).mono more
  · intro a member
    rcases List.mem_append.mp member with before | new
    · obtain ⟨nUserId, has, answer⟩ := inv.answers a before
      exact ⟨nUserId, has.mono more, answer⟩
    · obtain ⟨answer, given, rfl⟩ := List.mem_map.mp new
      exact answers answer given
  · -- the request is handed on or answered
    have newTokens : continued (t.toRedis.map fun call => (r.request, call)) =
        List.replicate (t.toRedis.filter fun call => call.event ≠ .none).length r.request := by
      rw [continued, List.filter_map, List.map_map]
      exact List.map_const' ..
    have newAnswers : (t.toGateway.map fun answer => (r.request, answer)).map Prod.fst =
        List.replicate t.toGateway.length r.request := by
      rw [List.map_map]
      exact List.map_const' ..
    have head : ((r :: rest).filter fun r => r.nEventId ≠ .none).map LoginResponse.request =
        List.replicate (if r.nEventId = .none then 0 else 1) r.request ++
          (rest.filter fun r => r.nEventId ≠ .none).map LoginResponse.request := by
      by_cases none : r.nEventId = .none <;> simp [none]
    have before := inv.tokens
    rw [LoginWorld.underWay, queue, head, ← tokens] at before
    change ((rest.filter fun r => r.nEventId ≠ .none).map LoginResponse.request ++
      continued (w.commands ++ t.toRedis.map fun call => (r.request, call)) ++
        (w.answered ++ t.toGateway.map fun answer => (r.request, answer)).map Prod.fst).Perm _
    rw [continued_append, newTokens, List.map_append, newAnswers]
    refine List.Perm.trans ?_ before
    apply List.perm_iff_count.mpr
    intro x
    simp only [List.count_append, List.replicate_add]
    omega

theorem param_of_front {s : LoginState} {request : LoginRequest} (front : s.AtFront request) :
    s.net.getParamFromSquence request.nHandlerId =
      some [.string request.strDeviceId, .string request.strIp] := by
  rw [NetManager.getParamFromSquence, front]
  rfl

/-- A device that was not found is registered. -/
theorem AccountInvariant.registers_device {w : LoginWorld} (inv : AccountInvariant registers w)
    {request : LoginRequest} {rest : List LoginResponse} {nUserId : Int}
    (queue : w.responses = ⟨request, nUserId, .getDeviceId, .empty⟩ :: rest)
    (front : w.scripts.AtFront request)
    (notYet : ∀ other ∈ w.scripts.registered, other.strDeviceId ≠ request.strDeviceId) :
    AccountInvariant registers (w.deliver cfg) := by
  have fits : ResponseFits registers w ⟨request, nUserId, .getDeviceId, .empty⟩ :=
    inv.responses _ (queue ▸ List.mem_cons_self)
  obtain ⟨handler, -, noNul, noId⟩ := fits
  simp only at handler noNul noId
  subst handler
  obtain ⟨n, known⟩ := Option.ne_none_iff_exists'.mp inv.known
  have ends : wp (onRedisRespone cfg request.nHandlerId .getDeviceId .empty)
      (fun _ t => RegisterSpec cfg w.scripts t n request.strDeviceId ∧ t.toGateway = w.scripts.toGateway)
      (fun t => RegisterSpec cfg w.scripts t n request.strDeviceId ∧ t.toGateway = w.scripts.toGateway)
      w.scripts := by
    simp only [onRedisRespone, onResponseLoginEvent, wp_bind, wp_get, param_of_front front, onClientRegister]
    apply wp_mono (register_returns cfg known inv.made request.nHandlerId request.strDeviceId request.strIp)
    · rintro code t ⟨rfl, spec, -, gateway, -⟩
      exact ⟨spec, gateway⟩
    · exact fun _ never => never.elim
  obtain ⟨spec, gateway⟩ := wp_same.mp ends
  generalize result : (exec (onRedisRespone cfg request.nHandlerId .getDeviceId .empty) w.scripts).2 = t
    at spec gateway
  have noAnswer : t.toGateway = [] := gateway.trans inv.flushed.2
  have requests := spec.requests
  rw [inv.flushed.1, List.nil_append] at requests
  have member : ⟨n, request.strDeviceId⟩ ∈ t.registered :=
    spec.registered ▸ List.mem_append_right _ List.mem_cons_self
  rw [LoginWorld.deliver, queue]
  apply inv.handled registers queue result spec.registered
  · rw [spec.globalId]
    exact Option.some_ne_none _
  · rw [spec.next]
    exact Nat.lt_succ_of_lt inv.made
  · rw [spec.registered, List.map_append, List.nodup_append]
    refine ⟨inv.distinct, List.nodup_singleton _, ?_⟩
    intro strDeviceId before other new
    obtain ⟨reg, inRegistered, rfl⟩ := List.mem_map.mp before
    rw [List.mem_singleton.mp new]
    exact notYet reg inRegistered
  · intro reg new
    rw [List.mem_singleton.mp new]
    exact noId
  · intro call made w' same
    rw [requests] at made
    simp only [List.mem_cons, List.not_mem_nil, or_false] at made
    rcases made with rfl | rfl | rfl | rfl
    · exact rfl
    · exact ⟨rfl, same ▸ member, noNul⟩
    · exact rfl
    · exact ⟨rfl, Or.inr (same ▸ member)⟩
  · rw [noAnswer]
    exact fun _ none => absurd none List.not_mem_nil
  · rw [requests, noAnswer]
    rfl

/-- The response leaves what is registered alone, and the request is answered with its device's id or asks
for the record. -/
theorem AccountInvariant.continues {w : LoginWorld} (inv : AccountInvariant registers w)
    {r : LoginResponse} {rest : List LoginResponse} (queue : w.responses = r :: rest)
    (event : r.nEventId ≠ .none) {nUserId : Int}
    (has : w.HasId registers r.request.strDeviceId nUserId)
    (ends : AsksRecord nUserId w.scripts (exec (onRedisRespone cfg r.nUserId r.nEventId r.reply) w.scripts).2 ∨
      ∃ s, s.toRedis = [] ∧ s.toGateway = [] ∧ s.registered = w.scripts.registered ∧
        s.userGlobalId = w.scripts.userGlobalId ∧ w.scripts.heap.next ≤ s.heap.next ∧
        Answers r.request nUserId s (exec (onRedisRespone cfg r.nUserId r.nEventId r.reply) w.scripts).2) :
    AccountInvariant registers (w.deliver cfg) := by
  rw [LoginWorld.deliver, queue]
  generalize result : (exec (onRedisRespone cfg r.nUserId r.nEventId r.reply) w.scripts).2 = t at ends
  rcases ends with ⟨net, rfl⟩ | ⟨s, noCommand, noAnswer, registered, globalId, next, net, rfl⟩
  · have noNews : w.scripts.registered = w.scripts.registered ++ [] := (List.append_nil _).symm
    apply inv.handled registers queue result noNews inv.known inv.made inv.distinct
    · exact fun _ none => absurd none List.not_mem_nil
    · intro call made w' same
      rw [inv.flushed.1, List.nil_append] at made
      rw [List.mem_singleton.mp made]
      exact ⟨rfl, has.imp id fun member => same ▸ member⟩
    · rw [inv.flushed.2]
      exact fun _ none => absurd none List.not_mem_nil
    · rw [inv.flushed.1, inv.flushed.2, if_neg event]
      rfl
  · have noNews : s.registered = w.scripts.registered ++ [] := registered.trans (List.append_nil _).symm
    apply inv.handled registers queue result noNews
    · exact globalId ▸ inv.known
    · exact Nat.lt_of_lt_of_le inv.made next
    · exact registered ▸ inv.distinct
    · exact fun _ none => absurd none List.not_mem_nil
    · rw [noCommand]
      exact fun _ none => absurd none List.not_mem_nil
    · intro answer given
      rw [noAnswer, List.nil_append] at given
      exact ⟨nUserId, has.imp id fun member => registered ▸ member, List.mem_singleton.mp given⟩
    · rw [noCommand, noAnswer, if_neg event]
      rfl

/-- The response meets its request at the front of the queue. -/
theorem AccountInvariant.deliver {w : LoginWorld} (inv : AccountInvariant registers w)
    (guard : LoginGuard w .deliver) : AccountInvariant registers (w.deliver cfg) := by
  cases queue : w.responses with
  | nil =>
      rw [LoginWorld.deliver, queue]
      exact inv
  | cons r rest =>
      have fits : ResponseFits registers w r := inv.responses r (queue ▸ List.mem_cons_self)
      have allowed := guard r (by rw [queue]; rfl)
      obtain ⟨request, nUserId, event, reply⟩ := r
      cases event with
      | none =>
          have noNews : w.scripts.registered = w.scripts.registered ++ [] := (List.append_nil _).symm
          rw [LoginWorld.deliver, queue]
          apply inv.handled registers queue (rfl : (exec _ w.scripts).2 = w.scripts) noNews inv.known
            inv.made inv.distinct
          · exact fun _ none => absurd none List.not_mem_nil
          · rw [inv.flushed.1]
            exact fun _ none => absurd none List.not_mem_nil
          · rw [inv.flushed.2]
            exact fun _ none => absurd none List.not_mem_nil
          · rw [inv.flushed.1, inv.flushed.2]
            rfl
      | getUserGlobalId => exact fits.elim
      | getDeviceId =>
          obtain ⟨handler, positive, -, known⟩ := fits
          obtain ⟨front, condition⟩ := allowed
          simp only at handler positive front
          subst handler
          cases reply with
          | empty => exact inv.registers_device cfg registers queue front condition.1
          | ok | record _ => exact known.elim
          | number u =>
              apply inv.continues cfg registers queue (by simp) known
              have ends : wp (onRedisRespone cfg request.nHandlerId .getDeviceId (.number u))
                  (fun _ t => AsksRecord u w.scripts t ∨ Answers request u w.scripts t)
                  (fun t => AsksRecord u w.scripts t ∨ Answers request u w.scripts t) w.scripts := by
                simp only [onRedisRespone, onResponseLoginEvent, wp_bind, wp_get, param_of_front front]
                exact onClientLogin_spec positive front condition
              apply (wp_same.mp ends).imp_right
              intro answers
              exact ⟨w.scripts, inv.flushed.1, inv.flushed.2, rfl, rfl, Nat.le_refl _, answers⟩
      | registering =>
          obtain ⟨front, handler, pooled⟩ := allowed
          apply inv.continues cfg registers queue (by simp) fits
          have ends : wp (onRedisRespone cfg nUserId .registering reply)
              (fun _ => Answers request nUserId w.scripts) (Answers request nUserId w.scripts) w.scripts :=
            answerLogin_spec front handler pooled
          exact Or.inr ⟨w.scripts, inv.flushed.1, inv.flushed.2, rfl, rfl, Nat.le_refl _, wp_same.mp ends⟩
      | getGameData =>
          obtain ⟨front, handler, value, same, id⟩ := allowed
          simp only at same
          subst same
          apply inv.continues cfg registers queue (by simp) fits
          let answered (t : LoginState) : Prop :=
            ∃ s, s.toRedis = [] ∧ s.toGateway = [] ∧ s.registered = w.scripts.registered ∧
              s.userGlobalId = w.scripts.userGlobalId ∧ w.scripts.heap.next ≤ s.heap.next ∧
              Answers request nUserId s t
          have ends : wp (onRedisRespone cfg nUserId .getGameData (.record value)) (fun _ => answered)
              answered w.scripts := by
            simp only [onRedisRespone, onResponseLoginEvent, wp_bind]
            apply wp_mono (cacheRecord_spec cfg value w.scripts)
            · rintro - s ⟨net, gateway, commands, globalId, registered, next, pooled⟩
              have answer : wp (answerLogin nUserId) (fun _ => Answers request nUserId s)
                  (Answers request nUserId s) s := by
                apply answerLogin_spec
                · rw [LoginState.AtFront, net]
                  exact front
                · rw [net]
                  exact handler
                · exact pooled nUserId id
              have facts : ∀ t, Answers request nUserId s t → answered t := fun t given =>
                ⟨s, commands.trans inv.flushed.1, gateway.trans inv.flushed.2, registered, globalId, next,
                  given⟩
              exact wp_mono answer (fun _ => facts) facts
            · exact fun _ never => never.elim
          exact Or.inr (wp_same.mp ends)

theorem AccountInvariant.step {w : LoginWorld} (inv : AccountInvariant registers w) (a : LoginAction)
    (guard : LoginGuard w a) : AccountInvariant registers (loginStep cfg w a) := by
  cases a with
  | arrive nHandlerId nSequenceId strDeviceId strIp =>
      exact inv.arrive registers guard.1 nSequenceId guard.2 strIp
  | execute => exact inv.execute registers
  | deliver => exact inv.deliver cfg registers guard

/-- In a run of steps that keep to `LoginGuard`, whatever was registered before, every device has one
account. -/
theorem oneAccount_of_guarded (nUserGlobalId : Int)
    (gameData : String → Option (String → String → LuaValue)) (actions : List LoginAction)
    (guarded : Guarded (always (loginStep cfg)) LoginGuard (.init cfg nUserGlobalId registers gameData)
      actions) :
    OneAccount registers (actions.foldl (loginStep cfg) (.init cfg nUserGlobalId registers gameData)) := by
  have inv : AccountInvariant registers
      (actions.foldl (loginStep cfg) (.init cfg nUserGlobalId registers gameData)) := by
    apply guarded_invariant _ (accountInvariant_init cfg registers nUserGlobalId gameData) guarded
      (runSteps_always _ _ _)
    intro w a w' before guard step
    cases step
    exact before.step cfg registers a guard
  exact inv.oneAccount registers

/-- A device registers and gets its answer. -/
theorem oneAccount_of_guarded_registration : OneAccount (fun _ => none)
    (([.arrive 7 1 "A" "10.0.0.1", .execute, .deliver, .execute, .execute, .execute, .execute, .deliver,
      .deliver, .deliver, .deliver] : List LoginAction).foldl (loginStep guestConfig)
        (.init guestConfig 100001 (fun _ => none) fun _ => none)) := by
  apply oneAccount_of_guarded
  refine ⟨⟨(by decide : (0 : Int) < 7), by rw [NoNul]; decide⟩, ?_⟩
  rintro _ ⟨⟩
  refine ⟨trivial, ?_⟩
  rintro _ ⟨⟩
  refine ⟨?_, ?_⟩
  · rintro _ ⟨⟩
    refine ⟨rfl, fun _ none => absurd none List.not_mem_nil, ?_⟩
    rintro _ ⟨⟩
    decide
  rintro _ ⟨⟩
  refine ⟨trivial, ?_⟩
  rintro _ ⟨⟩
  refine ⟨trivial, ?_⟩
  rintro _ ⟨⟩
  refine ⟨trivial, ?_⟩
  rintro _ ⟨⟩
  refine ⟨trivial, ?_⟩
  rintro _ ⟨⟩
  refine ⟨?_, ?_⟩
  · rintro _ ⟨⟩
    trivial
  rintro _ ⟨⟩
  refine ⟨?_, ?_⟩
  · rintro _ ⟨⟩
    trivial
  rintro _ ⟨⟩
  refine ⟨?_, ?_⟩
  · rintro _ ⟨⟩
    trivial
  rintro _ ⟨⟩
  refine ⟨?_, fun _ _ => trivial⟩
  rintro _ ⟨⟩
  exact ⟨rfl, rfl, rfl⟩

/-- Both lookups of one device are executed before anything is registered. -/
def overlappingLookups : List LoginAction :=
  [.arrive 7 1 "A" "10.0.0.1", .arrive 8 1 "A" "10.0.0.1", .execute, .execute, .deliver, .deliver]

/-- The device has two user ids. -/
theorem two_ids_after_overlap : ¬ OneAccount (fun _ => none)
    (overlappingLookups.foldl (loginStep guestConfig)
      (.init guestConfig 100001 (fun _ => none) fun _ => none)) := by
  intro account
  have ids : (overlappingLookups.foldl (loginStep guestConfig)
      (.init guestConfig 100001 (fun _ => none) fun _ => none)).scripts.registered =
        [⟨100001, "A"⟩, ⟨100002, "A"⟩] := by
    decide +kernel
  have first := account.one "A" 100001 100002 (Or.inr (by rw [ids]; decide)) (Or.inr (by rw [ids]; decide))
  exact absurd first (by decide)

end GameServer.Login
