/-
Module: GameServer.Script.RequestQueue
Purpose: `OnClientRequest` around the queues of requests: what is pushed, who removes which entry, and which calls to
  the database a request waits for.
Trusted boundary: the arguments of `OnClientRequest` are numbers and a string; responses of the database come in the
  order of the calls
Main exports: PendingCall, RequestWorld, popRequestFromSquence, sendToGateway, onClientRequest, awaitedOf
-/
import GameServer.Lib.LuaM
import GameServer.Script.NetManager

namespace GameServer.Script

open Lib Lib.LuaM

/-! ## Requests and calls to the database

The state that the queues of requests need, with what happened so far for the statements.
-/

/-- A call to the database whose reply has not been handled: for whom it was made, what is done with the reply, during
which request it was made, and the request that is answered when the reply comes, with its connection.  Requests are
told apart by numbers that no function reads. -/
structure PendingCall (ε : Type) where
  nUserId : LuaValue
  nEventId : ε
  call : Nat
  waits : Option (Int × Request)
deriving DecidableEq

/-- `NetManager` with the database, the sequence ids of all requests that were pushed, what was removed from the
queues and for which request, and the ids that were sent to the gateway and for which request.  `spoiled` are the
connections whose queue has got out of step.  No function reads what is recorded behind `commands`. -/
structure RequestWorld (ε : Type) where
  net : NetManager
  commands : List (PendingCall ε)
  arrived : List Int
  removals : List (Option Nat × Option Request)
  answers : List (Nat × Int)
  spoiled : List Int

def RequestWorld.init {ε : Type} : RequestWorld ε where
  net := .ctor
  commands := []
  arrived := []
  removals := []
  answers := []
  spoiled := []

/-- What `json.decode` makes of a body: it raises, or returns what is no table, or the parameters. -/
inductive Decoded where
  | malformed
  | noTable
  | table (tbParam : List LuaValue)
deriving Repr, DecidableEq

variable {ε : Type}

/-! ## Functions

The functions of the protocol modules that push, remove and answer requests.
-/

/-- `PopRequestFromSquence`, on behalf of a request, if there is one. -/
def popRequestFromSquence (call : Option Nat) (nHandlerId : Option Int) : LuaM (RequestWorld ε) Unit := do
  match nHandlerId with
  | none => pure ()
  | some nHandlerId => do
      let w ← get
      let removed := (call, w.net.frontOfSquence nHandlerId)
      match w.net.popRequestFromSquence nHandlerId with
      | .ok net => set { w with net := net, removals := w.removals ++ [removed] }
      | .error net => do
          set { w with net := net, removals := w.removals ++ [removed] }
          raise

namespace RequestWorld

def push (w : RequestWorld ε) (nHandlerId : Int) (request : Request) : RequestWorld ε :=
  { w with
    net := w.net.pushRequestToSquence nHandlerId request
    arrived := w.arrived ++ [request.nSequenceId] }

def answer (w : RequestWorld ε) (call : Nat) (nSequenceId : Int) : RequestWorld ε :=
  { w with answers := w.answers ++ [(call, nSequenceId)] }

def issue (w : RequestWorld ε) (calls : List (PendingCall ε)) : RequestWorld ε :=
  { w with commands := w.commands ++ calls }

def spoil (w : RequestWorld ε) (connections : List Int) : RequestWorld ε :=
  { w with spoiled := connections ++ w.spoiled }

end RequestWorld

/-- `SendToGateway`. -/
def sendToGateway (call : Nat) (nSequenceId : Int) (nHandlerId : Option Int) : LuaM (RequestWorld ε) Unit := do
  popRequestFromSquence (some call) nHandlerId
  modify fun w => w.answer call nSequenceId

/-- The first request of the connection that a user is on is answered. -/
def sendToUser (call : Nat) (nUserId : LuaValue) : LuaM (RequestWorld ε) Unit := do
  let w ← get
  let nHandlerId := w.net.getHandlerId nUserId
  sendToGateway call (w.net.getSquenceIdFromSquence nHandlerId) nHandlerId

/-- `SendToRoomServerFromLogic`, which answers nobody. -/
def sendToRoomServerFromLogic (call : Nat) (nHandlerId : Option Int) : LuaM (RequestWorld ε) Unit :=
  popRequestFromSquence (some call) nHandlerId

/-- The calls of the database that the scripts make. -/
def toRedis (calls : List (PendingCall ε)) : LuaM (RequestWorld ε) Unit := modify fun w => w.issue calls

/-- `OnClientRequest`, for the `ClientRequest` of a server. -/
def onClientRequest (clientRequest : Request → LuaM (RequestWorld ε) Unit) (nHandlerId nSequenceId : Int)
    (decoded : Decoded) : LuaM (RequestWorld ε) Unit := do
  match decoded with
  | .malformed => do
      let bRet ← pcall (raise : LuaM (RequestWorld ε) Unit)
      if bRet.isNone then
        popRequestFromSquence none (some nHandlerId)
  | .noTable => pure ()
  | .table tbParam => do
      let w ← get
      let request : Request := ⟨nSequenceId, tbParam, w.arrived.length⟩
      let bRet ← pcall do
        modify fun w => w.push nHandlerId request
        clientRequest request
      if bRet.isNone then
        popRequestFromSquence (some request.call) (some nHandlerId)

/-! ## Queues

What the functions make of a queue, when it is written as a list.
-/

namespace NetManager

variable (net : NetManager)

/-- What is in the queue of a connection. -/
def entries (nHandlerId : Int) : List Request := (net.requestSquence nHandlerId).getD []

/-- The queue of a connection has these entries now. -/
def withEntries (nHandlerId : Int) (requests : List Request) : NetManager :=
  { net with
    requestSquence :=
      Function.update net.requestSquence nHandlerId (if requests = [] then none else some requests) }

theorem entries_withEntries (nHandlerId k : Int) (requests : List Request) :
    (net.withEntries nHandlerId requests).entries k = if k = nHandlerId then requests else net.entries k := by
  by_cases same : k = nHandlerId
  · subst same
    by_cases empty : requests = []
    · simp [entries, withEntries, empty]
    · simp [entries, withEntries, empty]
  · simp [entries, withEntries, same]

theorem push_eq_withEntries (nHandlerId : Int) (request : Request) :
    net.pushRequestToSquence nHandlerId request =
      net.withEntries nHandlerId (net.entries nHandlerId ++ [request]) := by
  simp [pushRequestToSquence, withEntries, entries]

theorem requestSquence_of_entries {nHandlerId : Int} {request : Request} {rest : List Request}
    (front : net.entries nHandlerId = request :: rest) :
    net.requestSquence nHandlerId = some (request :: rest) := by
  unfold entries at front
  cases queue : net.requestSquence nHandlerId with
  | none => simp [queue] at front
  | some requests => simpa [queue] using front

/-- The first request is removed. -/
theorem popRequestFromSquence_cons {nHandlerId : Int} {request : Request} {rest : List Request}
    (front : net.entries nHandlerId = request :: rest) :
    net.popRequestFromSquence nHandlerId = .ok (net.withEntries nHandlerId rest) := by
  have queue := net.requestSquence_of_entries front
  cases rest with
  | nil => simp [popRequestFromSquence, withEntries, queue]
  | cons second rest => simp [popRequestFromSquence, withEntries, queue]

theorem frontOfSquence_cons {nHandlerId : Int} {request : Request} {rest : List Request}
    (front : net.entries nHandlerId = request :: rest) : net.frontOfSquence nHandlerId = some request := by
  simp [frontOfSquence, net.requestSquence_of_entries front]

theorem entries_of_frontOfSquence {nHandlerId : Int} {request : Request}
    (front : net.frontOfSquence nHandlerId = some request) :
    ∃ rest, net.entries nHandlerId = request :: rest := by
  obtain ⟨requests, queue, first⟩ := Option.bind_eq_some_iff.mp front
  obtain ⟨rest, rfl⟩ := List.head?_eq_some_iff.mp first
  exact ⟨rest, by rw [entries, queue, Option.getD_some]⟩

/-- The id that is found is the one of the first entry. -/
theorem getSquenceIdFromSquence_cons {nHandlerId : Int} {request : Request} {rest : List Request}
    (front : net.entries nHandlerId = request :: rest) :
    net.getSquenceIdFromSquence (some nHandlerId) = request.nSequenceId := by
  simp [getSquenceIdFromSquence, net.frontOfSquence_cons front]

/-- Without a change of the queues the entries are as before. -/
theorem entries_of_requestSquence {net net' : NetManager} (same : net'.requestSquence = net.requestSquence)
    (nHandlerId : Int) : net'.entries nHandlerId = net.entries nHandlerId := by
  rw [entries, same, entries]

end NetManager

/-- The first entry of a queue is removed, on behalf of a request. -/
def RequestWorld.remove (w : RequestWorld ε) (call : Option Nat) (nHandlerId : Int) (request : Request)
    (rest : List Request) : RequestWorld ε :=
  { w with
    net := w.net.withEntries nHandlerId rest
    removals := w.removals ++ [(call, some request)] }

section Exec

variable {w : RequestWorld ε} {nHandlerId : Int}

theorem exec_popRequestFromSquence_cons (call : Option Nat) {request : Request} {rest : List Request}
    (front : w.net.entries nHandlerId = request :: rest) :
    exec (popRequestFromSquence call (some nHandlerId)) w =
      (.ok (), w.remove call nHandlerId request rest) := by
  simp [popRequestFromSquence, exec_bind, w.net.popRequestFromSquence_cons front, w.net.frontOfSquence_cons front,
    RequestWorld.remove]

theorem exec_sendToGateway_cons (call : Nat) (nSequenceId : Int) {request : Request} {rest : List Request}
    (front : w.net.entries nHandlerId = request :: rest) :
    exec (sendToGateway call nSequenceId (some nHandlerId)) w =
      (.ok (), (w.remove (some call) nHandlerId request rest).answer call nSequenceId) := by
  simp [sendToGateway, exec_bind, exec_popRequestFromSquence_cons _ front]

theorem exec_sendToUser (call : Nat) {nUserId : LuaValue} {request : Request} {rest : List Request}
    (found : w.net.getHandlerId nUserId = some nHandlerId) (front : w.net.entries nHandlerId = request :: rest) :
    exec (sendToUser call nUserId) w =
      (.ok (), (w.remove (some call) nHandlerId request rest).answer call request.nSequenceId) := by
  simp only [sendToUser, exec_bind, exec_get, found, w.net.getSquenceIdFromSquence_cons front]
  exact exec_sendToGateway_cons _ _ front

/-- With nothing in the queue it raises, and nothing is in it afterwards. -/
theorem exec_popRequestFromSquence_nil (call : Option Nat) (empty : w.net.entries nHandlerId = []) :
    ∃ net : NetManager, (∀ k, net.entries k = w.net.entries k) ∧
      exec (popRequestFromSquence call (some nHandlerId)) w =
        (.error (), { w with net := net, removals := w.removals ++ [(call, none)] }) := by
  cases queue : w.net.requestSquence nHandlerId with
  | none =>
      refine ⟨w.net, fun _ => rfl, ?_⟩
      simp [popRequestFromSquence, exec_bind, NetManager.popRequestFromSquence, NetManager.frontOfSquence, queue]
  | some requests =>
      have nothing : requests = [] := by simpa [NetManager.entries, queue] using empty
      subst nothing
      refine ⟨w.net.withEntries nHandlerId [], fun k => ?_, ?_⟩
      · rw [NetManager.entries_withEntries]
        split
        · rename_i same
          rw [same, empty]
        · rfl
      · simp [popRequestFromSquence, exec_bind, NetManager.popRequestFromSquence, NetManager.frontOfSquence, queue,
          NetManager.withEntries]

end Exec

/-! ## A request that arrives

A request is pushed first, and removed when its handler raises.
-/

/-- No entry is in the queue of a connection. -/
def Free (w : RequestWorld ε) (nHandlerId : Int) : Prop := w.net.entries nHandlerId = []

instance (w : RequestWorld ε) (nHandlerId : Int) : Decidable (Free w nHandlerId) :=
  inferInstanceAs (Decidable (_ = _))

/-- The request as it is pushed. -/
def requestOf (w : RequestWorld ε) (nSequenceId : Int) (tbParam : List LuaValue) : Request :=
  ⟨nSequenceId, tbParam, w.arrived.length⟩

section Arrival

variable {w t : RequestWorld ε} {clientRequest : Request → LuaM (RequestWorld ε) Unit} {nHandlerId nSequenceId : Int}
  {tbParam : List LuaValue}

theorem entries_push (w : RequestWorld ε) (nHandlerId k : Int) (request : Request) :
    (w.push nHandlerId request).net.entries k =
      if k = nHandlerId then w.net.entries k ++ [request] else w.net.entries k := by
  rw [RequestWorld.push, NetManager.push_eq_withEntries, NetManager.entries_withEntries]
  split
  · next same => rw [same]
  · rfl

/-- What was pushed onto an empty queue and removed leaves every queue as it was. -/
theorem entries_served {net : NetManager} {request : Request} (free : Free w nHandlerId)
    (same : ∀ k, net.entries k = if k = nHandlerId then w.net.entries k ++ [request] else w.net.entries k) (k : Int) :
    (net.withEntries nHandlerId []).entries k = w.net.entries k := by
  rw [NetManager.entries_withEntries]
  split
  · next here => rw [here, free]
  · next elsewhere => rw [same, if_neg elsewhere]

/-- `OnClientRequest`, when the parameters are a table. -/
theorem onClientRequest_table :
    (exec (onClientRequest clientRequest nHandlerId nSequenceId (.table tbParam)) w).2 =
      match exec (clientRequest (requestOf w nSequenceId tbParam))
          (w.push nHandlerId (requestOf w nSequenceId tbParam)) with
      | (.ok _, t) => t
      | (.error _, t) => (exec (popRequestFromSquence (some w.arrived.length) (some nHandlerId)) t).2 := by
  simp only [onClientRequest, exec_bind, exec_get, exec_pcall, exec_modify, requestOf]
  cases exec (clientRequest ⟨nSequenceId, tbParam, w.arrived.length⟩)
      (w.push nHandlerId ⟨nSequenceId, tbParam, w.arrived.length⟩) with
  | mk result t =>
      cases result with
      | ok _ => rfl
      | error _ => rfl

theorem onClientRequest_of_return
    (returned : exec (clientRequest (requestOf w nSequenceId tbParam))
      (w.push nHandlerId (requestOf w nSequenceId tbParam)) = (.ok (), t)) :
    (exec (onClientRequest clientRequest nHandlerId nSequenceId (.table tbParam)) w).2 = t := by
  rw [onClientRequest_table, returned]

/-- When something raised, the first entry of the queue is removed. -/
theorem onClientRequest_of_raise {request : Request} {rest : List Request}
    (raised : exec (clientRequest (requestOf w nSequenceId tbParam))
      (w.push nHandlerId (requestOf w nSequenceId tbParam)) = (.error (), t))
    (front : t.net.entries nHandlerId = request :: rest) :
    (exec (onClientRequest clientRequest nHandlerId nSequenceId (.table tbParam)) w).2 =
      t.remove (some w.arrived.length) nHandlerId request rest := by
  rw [onClientRequest_table, raised]
  exact congrArg Prod.snd (exec_popRequestFromSquence_cons _ front)

theorem onClientRequest_of_raise_nil
    (raised : exec (clientRequest (requestOf w nSequenceId tbParam))
      (w.push nHandlerId (requestOf w nSequenceId tbParam)) = (.error (), t))
    (empty : t.net.entries nHandlerId = []) :
    ∃ net : NetManager, (∀ k, net.entries k = t.net.entries k) ∧
      (exec (onClientRequest clientRequest nHandlerId nSequenceId (.table tbParam)) w).2 =
        { t with net := net, removals := t.removals ++ [(some w.arrived.length, none)] } := by
  obtain ⟨net, same, popped⟩ := exec_popRequestFromSquence_nil (some w.arrived.length) empty
  refine ⟨net, same, ?_⟩
  rw [onClientRequest_table, raised]
  exact congrArg Prod.snd popped

/-- A body that is no JSON pushes nothing, and `PopRequestFromSquence` is called all the same. -/
theorem onClientRequest_malformed :
    (exec (onClientRequest clientRequest nHandlerId nSequenceId .malformed) w).2 =
      (exec (popRequestFromSquence none (some nHandlerId)) w).2 := rfl

end Arrival

/-! ## Requests that wait

The requests of a connection for which a call to the database is under way.
-/

/-- The requests of a connection that wait for replies, in the order of the replies. -/
def awaitedOf (commands : List (PendingCall ε)) (nHandlerId : Int) : List Request :=
  commands.filterMap fun d => (d.waits.filter fun x => x.1 = nHandlerId).map Prod.snd

theorem awaitedOf_append (first second : List (PendingCall ε)) (nHandlerId : Int) :
    awaitedOf (first ++ second) nHandlerId = awaitedOf first nHandlerId ++ awaitedOf second nHandlerId :=
  List.filterMap_append

/-- Calls that no request waits for are left out. -/
theorem awaitedOf_quiet {commands : List (PendingCall ε)} (quiet : ∀ d ∈ commands, d.waits = none)
    (nHandlerId : Int) : awaitedOf commands nHandlerId = [] := by
  rw [awaitedOf, List.filterMap_eq_nil_iff]
  intro d member
  rw [quiet d member]
  rfl

theorem awaitedOf_cons_self {d : PendingCall ε} {rest : List (PendingCall ε)} {nHandlerId : Int} {request : Request}
    (waits : d.waits = some (nHandlerId, request)) :
    awaitedOf (d :: rest) nHandlerId = request :: awaitedOf rest nHandlerId := by
  simp [awaitedOf, waits]

/-- What is no request of the connection does not count. -/
theorem awaitedOf_cons_of_ne {d : PendingCall ε} {rest : List (PendingCall ε)} {nHandlerId : Int}
    (other : ∀ request, d.waits ≠ some (nHandlerId, request)) :
    awaitedOf (d :: rest) nHandlerId = awaitedOf rest nHandlerId := by
  have skipped : (d.waits.filter fun x => x.1 = nHandlerId).map Prod.snd = none := by
    cases waits : d.waits with
    | none => rfl
    | some x =>
        obtain ⟨k, request⟩ := x
        have different : k ≠ nHandlerId := by
          rintro rfl
          exact other request waits
        simp [different]
  exact List.filterMap_cons_none skipped

/-- Who waits was pushed with the id that it has in the queue. -/
structure PendingCall.Belongs (arrived : List Int) (d : PendingCall ε) : Prop where
  id : ∀ nHandlerId request, d.waits = some (nHandlerId, request) →
    request.call = d.call ∧ arrived[request.call]? = some request.nSequenceId

theorem PendingCall.Belongs.grow {arrived : List Int} {d : PendingCall ε} (belongs : d.Belongs arrived) (n : Int) :
    d.Belongs (arrived ++ [n]) := by
  refine ⟨fun nHandlerId request waits => ?_⟩
  obtain ⟨same, id⟩ := belongs.id nHandlerId request waits
  have inside : request.call < arrived.length := (List.getElem?_eq_some_iff.mp id).1
  exact ⟨same, by rw [List.getElem?_append_left inside, id]⟩

theorem PendingCall.Belongs.of_quiet {arrived : List Int} {d : PendingCall ε} (quiet : d.waits = none) :
    d.Belongs arrived := by
  refine ⟨fun nHandlerId request waits => ?_⟩
  rw [quiet] at waits
  cases waits

end GameServer.Script
