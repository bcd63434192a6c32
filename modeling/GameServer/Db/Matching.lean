/-
Module: GameServer.Db.Matching
Purpose: Calls to the database, the worker and the delivery of responses: which response goes with which
  call, and what is left in the tables of `AsyncManager`.
Trusted boundary: the calls that a response makes the scripts do are any calls; `GetHandlerId` and the
  callbacks raise only inside `xpcall`
Main exports: AsyncWorld, asyncStep, MatchGuard, responses_matched
-/
import GameServer.Db.RedisInterface
import GameServer.Lib.Runs

namespace GameServer.Db

open Lib Script
open Login (DbTable)

variable {ν τ : Type}

/-- The two events of `OnRedisRespone` that are treated in their own way, and the strings of which
`json.decode` and `UserData:new` make a user. -/
structure ResponseConfig where
  getUserGlobalId : UInt32
  logicGetGameData : UInt32
  decodes : Bytes → Bool

/-- What `AsyncManager` assigned to a call; no function reads it. -/
structure Caller where
  nSquenceId : Nat
  tbParameters : Parameters
deriving Repr, DecidableEq

/-- A response that was delivered: the call that caused it, the id it was delivered with, and what `Pop`
returned. -/
structure Delivery where
  caller : Caller
  nAsyncSquenceId : Nat
  tbParam : Option Parameters
deriving Repr, DecidableEq

/-- The scripts and the Redis worker.  While a response is handled, `handling` holds the id whose table name
is to be removed when the callback has returned, if there is one. -/
structure AsyncWorld where
  async : AsyncManager
  requests : List (Caller × Request)
  responses : List (Caller × Response)
  handling : Option (Option Nat)
  calls : Nat
  delivered : List Delivery

def AsyncWorld.init : AsyncWorld where
  async := .ctor
  requests := []
  responses := []
  handling := none
  calls := 0
  delivered := []

variable (text : LuaText ν τ) (cfg : ResponseConfig)

namespace AsyncWorld

/-- The parameters that a call stores. -/
def parameters (w : AsyncWorld) (c : DbCall ν τ) : Parameters :=
  match c.operation with
  | .set _ _ | .delete _ => ⟨[], w.calls⟩
  | .get _ | .mget _ => ⟨c.tbParameters, w.calls⟩

/-- A script calls `GetValue`, `MGetValue` or `SetValue`.  Nothing follows when the process ends. -/
def call (w : AsyncWorld) (c : DbCall ν τ) : Option AsyncWorld :=
  match c.issue text w.calls w.async with
  | (async, none) => some { w with async := async, calls := w.calls + 1 }
  | (async, some (.pushed request)) =>
      some
        { w with
          async := async
          calls := w.calls + 1
          requests := w.requests ++ [(⟨w.async.squenceId, w.parameters c⟩, request)] }
  | (async, some .dropped) => some { w with async := async, calls := w.calls + 1 }
  | (_, some .crashed) => none

/-- The reply is one to such a command. -/
def fits : RedisCommand → RedisReply → Bool
  | .set _ _, .status _ => true
  | .get _, .bulk _ => true
  | .mget _, .array _ => true
  | .del _, .integer => true
  | _, _ => false

/-- The worker takes the next request; Redis replies. -/
def serve (w : AsyncWorld) (reply : RedisReply) : Option AsyncWorld :=
  match w.requests with
  | [] => none
  | (caller, request) :: requests =>
      match onRequest request with
      | none => none
      | some command =>
          if fits command reply then
            some
              { w with
                requests := requests
                responses := w.responses ++
                  ((generateRespond request.head reply).toList.map fun response => (caller, response)) }
          else
            none

/-- `OnRedisRespone`, up to the callback. -/
def onRedisRespone (w : AsyncWorld) (caller : Caller) (nAsyncSquenceId : Nat) (nEventId : UInt32)
    (strRepsonseJson : Bytes) : AsyncWorld :=
  let (tbParam, async) := w.async.pop nAsyncSquenceId
  let w :=
    { w with
      async := async
      delivered := w.delivered ++ [⟨caller, nAsyncSquenceId, tbParam⟩] }
  if nEventId = cfg.getUserGlobalId ∨ nEventId = cfg.logicGetGameData then
    { w with handling := some none }
  else if strRepsonseJson ≠ [] ∧ async.getSquenceIdToTableName nAsyncSquenceId = some .gameData ∧
      cfg.decodes strRepsonseJson = false then
    -- raised
    w
  else
    { w with handling := some (some nAsyncSquenceId) }

/-- `OnRedisMulDataRespone`, up to the callback; inserting into no table raises. -/
def onRedisMulDataRespone (w : AsyncWorld) (caller : Caller) (nAsyncSquenceId : Nat) : AsyncWorld :=
  let (tbParam, async) := w.async.pop nAsyncSquenceId
  { w with
    async := async
    delivered := w.delivered ++ [⟨caller, nAsyncSquenceId, tbParam⟩]
    handling := if tbParam.isSome then some (some nAsyncSquenceId) else none }

/-- The next response is delivered, when no other is being handled. -/
def deliver (w : AsyncWorld) : Option AsyncWorld :=
  match w.responses, w.handling with
  | (caller, response) :: responses, none =>
      (onDBResponse response).map fun data =>
        match data with
        | .text strRepsonseJson =>
            onRedisRespone cfg { w with responses := responses } caller response.head.uSquenceId.toNat
              response.head.uEventType strRepsonseJson
        | .mulData _ =>
            onRedisMulDataRespone { w with responses := responses } caller response.head.uSquenceId.toNat
  | _, _ => none

/-- The callback has returned. -/
def finish (w : AsyncWorld) : Option AsyncWorld :=
  w.handling.map fun nAsyncSquenceId =>
    { w with
      async := nAsyncSquenceId.elim w.async w.async.setSquenceIdToTableNameNil
      handling := none }

end AsyncWorld

inductive AsyncAction (ν τ : Type) where
  | call (c : DbCall ν τ)
  | serve (reply : RedisReply)
  | deliver
  | finish

def asyncStep (w : AsyncWorld) : AsyncAction ν τ → Option AsyncWorld
  | .call c => w.call text c
  | .serve reply => w.serve reply
  | .deliver => w.deliver cfg
  | .finish => w.finish

/-- Nothing is stored under the id that is next. -/
def AsyncManager.NextFree (async : AsyncManager) : Prop :=
  async.squence (AsyncManager.key async.squenceId) = none ∧ async.squenceIdToTableName async.squenceId = none

/-- The table name of the event's call is removed after its response. -/
def ResponseConfig.Ordinary (cfg : ResponseConfig) (nEventType : UInt32) : Prop :=
  nEventType ≠ cfg.getUserGlobalId ∧ nEventType ≠ cfg.logicGetGameData

/-- The steps that keep responses and calls together: the next id is not in use; the event of a `GetValue`
or `SetValue` is none of the two; the buffer of a `SetValue` happens to hold the id; and what is delivered
under the id of a call to the game data can be decoded. -/
def MatchGuard (w : AsyncWorld) : AsyncAction ν τ → Prop
  | .call c =>
      match c.operation with
      | .set _ _ =>
          w.async.NextFree ∧ cfg.Ordinary (UInt32.ofNat c.nEventType) ∧
            c.fresh.uSquenceId = UInt32.ofNat w.async.squenceId
      | .get _ => w.async.NextFree ∧ cfg.Ordinary (UInt32.ofNat c.nEventType)
      | .mget keys => keys = [] ∨ w.async.NextFree
      | .delete _ => False
  | .deliver => ∀ r ∈ w.responses.head?, ∀ strRepsonseJson,
      onDBResponse r.2 = some (.text strRepsonseJson) → strRepsonseJson ≠ [] →
        w.async.getSquenceIdToTableName r.2.head.uSquenceId.toNat = some .gameData →
          cfg.decodes strRepsonseJson = true
  | .serve _ | .finish => True

/-! ## Which request belongs to which call

Each request carries the sequence id of its call, except where a binding leaves what stood in the buffer.
-/

/-- The request has the id of its call, and its response is handled by `OnRedisMulDataRespone`, or by
`OnRedisRespone` in the ordinary way. -/
def Request.Tagged (caller : Caller) : Request → Prop
  | .set head _ _ _ _ | .get head _ _ _ =>
      head.uSquenceId.toNat = caller.nSquenceId ∧ cfg.Ordinary head.uEventType
  | .gets head _ _ => head.uSquenceId.toNat = caller.nSquenceId
  | .del _ _ _ _ => False

def Response.Tagged (caller : Caller) : Response → Prop
  | .common head _ _ => head.uSquenceId.toNat = caller.nSquenceId ∧ cfg.Ordinary head.uEventType
  | .multi head _ _ => head.uSquenceId.toNat = caller.nSquenceId

/-- A call that is to be answered leaves its parameters and a request with its id. -/
theorem AsyncWorld.call_spec {w w' : AsyncWorld} {c : DbCall ν τ} (small : w.async.squenceId < 10000000)
    (guard : MatchGuard cfg w (.call c)) (run : w.call text c = some w') :
    w' = { w with calls := w.calls + 1 } ∨
      w.async.NextFree ∧ ∃ request, request.Tagged cfg ⟨w.async.squenceId, w.parameters c⟩ ∧
        w' = { w with
          async := (w.async.setParameter (w.parameters c) c.table).2
          calls := w.calls + 1
          requests := w.requests ++ [(⟨w.async.squenceId, w.parameters c⟩, request)] } := by
  have fits : (UInt32.ofNat w.async.squenceId).toNat = w.async.squenceId :=
    UInt32.toNat_ofNat_of_lt' (Nat.lt_trans small (by decide))
  cases operation : c.operation with
  | set key value =>
      simp only [MatchGuard, operation] at guard
      obtain ⟨free, ordinary, buffer⟩ := guard
      have parameters : w.parameters c = ⟨[], w.calls⟩ := by simp only [AsyncWorld.parameters, operation]
      rw [AsyncWorld.call, DbCall.issue_set _ _ operation] at run
      cases szKey : key.toCString text with
      | none =>
          rw [szKey] at run
          exact absurd run (by simp)
      | some szKey' =>
          rw [szKey] at run
          cases run
          apply Or.inr
          refine ⟨free, _, ?_, by rw [parameters]⟩
          have id : c.fresh.uSquenceId.toNat = w.async.squenceId := by rw [buffer, fits]
          exact And.intro id ordinary
  | get key =>
      simp only [MatchGuard, operation] at guard
      obtain ⟨free, ordinary⟩ := guard
      have parameters : w.parameters c = ⟨c.tbParameters, w.calls⟩ := by
        simp only [AsyncWorld.parameters, operation]
      rw [AsyncWorld.call, DbCall.issue_get _ _ operation] at run
      cases run
      apply Or.inr
      refine ⟨free, _, ?_, by rw [parameters]⟩
      exact And.intro fits ordinary
  | delete key => simp [MatchGuard, operation] at guard
  | mget keys =>
      simp only [MatchGuard, operation] at guard
      have parameters : w.parameters c = ⟨c.tbParameters, w.calls⟩ := by
        simp only [AsyncWorld.parameters, operation]
      by_cases none : keys = []
      · subst none
        rw [AsyncWorld.call, DbCall.issue_mget_nil _ _ operation] at run
        cases run
        exact Or.inl rfl
      · rw [AsyncWorld.call, DbCall.issue_mget _ _ operation none] at run
        cases run
        apply Or.inr
        refine ⟨guard.resolve_left none, _, ?_, by rw [parameters]⟩
        exact fits

/-- A reply that fits becomes a response for the same call. -/
theorem generateRespond_tagged {caller : Caller} {request : Request} {command : RedisCommand}
    {reply : RedisReply} (tagged : request.Tagged cfg caller) (executed : onRequest request = some command)
    (fitting : AsyncWorld.fits command reply = true) :
    ∃ response, generateRespond request.head reply = some response ∧ response.Tagged cfg caller := by
  cases request with
  | set head _ _ _ _ =>
      cases executed
      cases reply with
      | status str => exact ⟨_, rfl, tagged⟩
      | integer | bulk _ | array _ => exact absurd fitting (by simp [AsyncWorld.fits])
  | get head _ _ _ =>
      cases executed
      cases reply with
      | bulk str => exact ⟨_, rfl, tagged⟩
      | status _ | integer | array _ => exact absurd fitting (by simp [AsyncWorld.fits])
  | gets head _ data =>
      obtain ⟨words, -, rfl⟩ := Option.map_eq_some_iff.mp executed
      cases reply with
      | array elements => exact ⟨_, rfl, tagged⟩
      | status _ | integer | bulk _ => exact absurd fitting (by simp [AsyncWorld.fits])
  | del head _ _ _ => exact absurd tagged (by simp [Request.Tagged])

/-- The worker takes a request and leaves a response for the same call. -/
theorem AsyncWorld.serve_spec {w w' : AsyncWorld} {reply : RedisReply}
    (tagged : ∀ r ∈ w.requests, r.2.Tagged cfg r.1) (run : w.serve reply = some w') :
    ∃ caller request requests response, w.requests = (caller, request) :: requests ∧
      response.Tagged cfg caller ∧
      w' = { w with requests := requests, responses := w.responses ++ [(caller, response)] } := by
  unfold AsyncWorld.serve at run
  split at run
  · exact absurd run (by simp)
  · rename_i caller request requests queue
    have tag : request.Tagged cfg caller := tagged (caller, request) (queue ▸ List.mem_cons_self)
    split at run
    · exact absurd run (by simp)
    · rename_i command executed
      split at run
      · rename_i fitting
        obtain ⟨response, generated, responseTag⟩ := generateRespond_tagged cfg tag executed fitting
        rw [generated] at run
        cases run
        exact ⟨caller, request, requests, response, queue, responseTag, rfl⟩
      · exact absurd run (by simp)

/-- A delivered response is popped with its own id; its handling ends with removing the table name. -/
theorem AsyncWorld.deliver_spec {w w' : AsyncWorld}
    (tagged : ∀ r ∈ w.responses, r.2.Tagged cfg r.1)
    (stored : ∀ r ∈ w.responses, w.async.squence (AsyncManager.key r.1.nSquenceId) = some r.1.tbParameters)
    (guard : MatchGuard cfg w (.deliver : AsyncAction ν τ)) (run : w.deliver cfg = some w') :
    ∃ caller response responses, w.responses = (caller, response) :: responses ∧ w.handling = none ∧
      w' = { w with
        async := (w.async.pop caller.nSquenceId).2
        responses := responses
        handling := some (some caller.nSquenceId)
        delivered := w.delivered ++ [⟨caller, caller.nSquenceId, some caller.tbParameters⟩] } := by
  unfold AsyncWorld.deliver at run
  split at run
  · rename_i caller response responses queue idle
    obtain ⟨data, pushed, run⟩ := Option.map_eq_some_iff.mp run
    have first : (caller, response) ∈ w.responses := queue ▸ List.mem_cons_self
    have tag : response.Tagged cfg caller := tagged _ first
    have popped : w.async.squence (AsyncManager.key caller.nSquenceId) = some caller.tbParameters :=
      stored _ first
    refine ⟨caller, response, responses, queue, idle, ?_⟩
    cases response with
    | common head nDataLen bytes =>
        obtain ⟨id, notGlobal, notHall⟩ := tag
        have event : ¬ (head.uEventType = cfg.getUserGlobalId ∨ head.uEventType = cfg.logicGetGameData) :=
          fun h => h.elim notGlobal notHall
        cases pushed
        have decodes : ¬ (cString (bytes.take nDataLen.toNatClampNeg) ≠ [] ∧
            w.async.squenceIdToTableName caller.nSquenceId = some .gameData ∧
              cfg.decodes (cString (bytes.take nDataLen.toNatClampNeg)) = false) := by
          rintro ⟨nonempty, table, fails⟩
          have succeeds := guard (caller, .common head nDataLen bytes) (by simp [queue]) _ rfl nonempty
            (by rw [AsyncManager.getSquenceIdToTableName, Response.head, id]; exact table)
          rw [succeeds] at fails
          exact absurd fails (by simp)
        simp only [Response.head, id, AsyncWorld.onRedisRespone, AsyncManager.pop, popped, if_neg event,
          AsyncManager.getSquenceIdToTableName, if_neg decodes] at run
        exact run.symm
    | multi head nValueLen bytes =>
        have id : head.uSquenceId.toNat = caller.nSquenceId := tag
        obtain ⟨values, -, rfl⟩ := Option.map_eq_some_iff.mp pushed
        simp only [Response.head, id, AsyncWorld.onRedisMulDataRespone, AsyncManager.pop, popped,
          Option.isSome_some, if_true] at run
        exact run.symm
  · exact absurd run (by simp)

/-! ## The invariant

What is under way is in one of three places: in the queue of requests, among the responses, or being handled.
-/

/-- The calls whose response was not delivered yet. -/
def AsyncWorld.outstanding (w : AsyncWorld) : List Caller :=
  w.responses.map Prod.fst ++ w.requests.map Prod.fst

/-- The tables hold what belongs to outstanding calls, all with different ids, and the table name of the
response being handled. -/
structure MatchInvariant (w : AsyncWorld) : Prop where
  small : w.async.squenceId < 10000000
  requests : ∀ r ∈ w.requests, r.2.Tagged cfg r.1
  responses : ∀ r ∈ w.responses, r.2.Tagged cfg r.1
  distinct : (w.outstanding.map Caller.nSquenceId).Nodup
  stored : ∀ caller ∈ w.outstanding,
    w.async.squence (AsyncManager.key caller.nSquenceId) = some caller.tbParameters
  onlyStored : ∀ k, w.async.squence k ≠ none →
    ∃ caller ∈ w.outstanding, k = AsyncManager.key caller.nSquenceId
  names : ∀ id, w.async.squenceIdToTableName id ≠ none →
    (∃ caller ∈ w.outstanding, id = caller.nSquenceId) ∨ w.handling = some (some id)
  matched : ∀ d ∈ w.delivered, d.nAsyncSquenceId = d.caller.nSquenceId ∧ d.tbParam = some d.caller.tbParameters

/-- The start. -/
theorem matchInvariant_init : MatchInvariant cfg .init where
  small := by decide
  requests _ member := absurd member List.not_mem_nil
  responses _ member := absurd member List.not_mem_nil
  distinct := List.nodup_nil
  stored _ member := absurd member List.not_mem_nil
  onlyStored _ some := absurd rfl some
  names _ some := absurd rfl some
  matched _ member := absurd member List.not_mem_nil

/-- Sequence ids are numbers below ten millions. -/
theorem incrementSquenceId_lt (async : AsyncManager) :
    async.incrementSquenceId.squenceId < 10000000 := by
  simp only [AsyncManager.incrementSquenceId]
  split
  · decide
  · exact Nat.mod_lt _ (by decide)

/-- A call gets an id of its own. -/
theorem MatchInvariant.call {w w' : AsyncWorld} (inv : MatchInvariant cfg w) {c : DbCall ν τ}
    (guard : MatchGuard cfg w (.call c)) (run : w.call text c = some w') : MatchInvariant cfg w' := by
  rcases AsyncWorld.call_spec text cfg inv.small guard run with rfl | ⟨free, request, tagged, rfl⟩
  · exact ⟨inv.small, inv.requests, inv.responses, inv.distinct, inv.stored, inv.onlyStored, inv.names,
      inv.matched⟩
  · let caller : Caller := ⟨w.async.squenceId, w.parameters c⟩
    -- the id is new, since nothing is stored under it
    have fresh : ∀ other ∈ w.outstanding, other.nSquenceId ≠ w.async.squenceId := by
      intro other member same
      have found := inv.stored other member
      rw [same, free.1] at found
      exact absurd found (by simp)
    have outstanding : ∀ other, other ∈ w.responses.map Prod.fst ++
        (w.requests ++ [(caller, request)]).map Prod.fst ↔ other ∈ w.outstanding ∨ other = caller := by
      intro other
      simp [AsyncWorld.outstanding, or_assoc]
    constructor
    · exact incrementSquenceId_lt _
    · intro r member
      rcases List.mem_append.mp member with before | new
      · exact inv.requests r before
      · rw [List.mem_singleton.mp new]
        exact tagged
    · exact inv.responses
    · have split : (w.responses.map Prod.fst ++ (w.requests ++ [(caller, request)]).map Prod.fst).map
          Caller.nSquenceId = w.outstanding.map Caller.nSquenceId ++ [w.async.squenceId] := by
        simp [AsyncWorld.outstanding, caller]
      change ((w.responses.map Prod.fst ++ (w.requests ++ [(caller, request)]).map Prod.fst).map
          Caller.nSquenceId).Nodup
      rw [split, List.nodup_append]
      refine ⟨inv.distinct, List.nodup_singleton _, ?_⟩
      intro id member id' new same
      obtain ⟨other, inOutstanding, rfl⟩ := List.mem_map.mp member
      exact fresh other inOutstanding (same.trans (List.mem_singleton.mp new))
    · intro other member
      change Function.update w.async.squence (AsyncManager.key w.async.squenceId) (some (w.parameters c))
        (AsyncManager.key other.nSquenceId) = some other.tbParameters
      rcases (outstanding other).mp member with before | rfl
      · rw [Function.update_of_ne fun same => fresh other before (AsyncManager.key_inj.mp same)]
        exact inv.stored other before
      · rw [Function.update_self]
    · intro k found
      change Function.update w.async.squence (AsyncManager.key w.async.squenceId) (some (w.parameters c))
        k ≠ none at found
      by_cases here : k = AsyncManager.key w.async.squenceId
      · exact ⟨caller, (outstanding caller).mpr (Or.inr rfl), here⟩
      · rw [Function.update_of_ne here] at found
        obtain ⟨other, before, same⟩ := inv.onlyStored k found
        exact ⟨other, (outstanding other).mpr (Or.inl before), same⟩
    · intro id found
      change Function.update w.async.squenceIdToTableName w.async.squenceId (some c.table) id ≠ none at found
      by_cases here : id = w.async.squenceId
      · exact Or.inl ⟨caller, (outstanding caller).mpr (Or.inr rfl), here⟩
      · rw [Function.update_of_ne here] at found
        rcases inv.names id found with ⟨other, before, same⟩ | handled
        · exact Or.inl ⟨other, (outstanding other).mpr (Or.inl before), same⟩
        · exact Or.inr handled
    · exact inv.matched

/-- The response carries the id of its request. -/
theorem MatchInvariant.serve {w w' : AsyncWorld} (inv : MatchInvariant cfg w) {reply : RedisReply}
    (run : w.serve reply = some w') : MatchInvariant cfg w' := by
  obtain ⟨caller, request, requests, response, queue, tagged, rfl⟩ :=
    AsyncWorld.serve_spec cfg inv.requests run
  have same : (w.responses ++ [(caller, response)]).map Prod.fst ++ requests.map Prod.fst =
      w.outstanding := by
    simp [AsyncWorld.outstanding, queue]
  constructor
  · exact inv.small
  · exact fun r member => inv.requests r (queue ▸ List.mem_cons_of_mem _ member)
  · intro r member
    rcases List.mem_append.mp member with before | new
    · exact inv.responses r before
    · rw [List.mem_singleton.mp new]
      exact tagged
  · rw [AsyncWorld.outstanding, same]
    exact inv.distinct
  · rw [AsyncWorld.outstanding, same]
    exact inv.stored
  · rw [AsyncWorld.outstanding, same]
    exact inv.onlyStored
  · rw [AsyncWorld.outstanding, same]
    exact inv.names
  · exact inv.matched

/-- The parameters that a callback gets are those of its call. -/
theorem MatchInvariant.deliver {w w' : AsyncWorld} (inv : MatchInvariant cfg w)
    (guard : MatchGuard cfg w (.deliver : AsyncAction ν τ)) (run : w.deliver cfg = some w') :
    MatchInvariant cfg w' := by
  have stored : ∀ r ∈ w.responses,
      w.async.squence (AsyncManager.key r.1.nSquenceId) = some r.1.tbParameters :=
    fun r member => inv.stored r.1 (List.mem_append_left _ (List.mem_map_of_mem member))
  obtain ⟨caller, response, responses, queue, idle, rfl⟩ :=
    AsyncWorld.deliver_spec cfg inv.responses stored guard run
  have outstanding : w.outstanding = caller :: (responses.map Prod.fst ++ w.requests.map Prod.fst) := by
    rw [AsyncWorld.outstanding, queue, List.map_cons, List.cons_append]
  have distinct := inv.distinct
  rw [outstanding, List.map_cons, List.nodup_cons] at distinct
  have other : ∀ o ∈ responses.map Prod.fst ++ w.requests.map Prod.fst, o.nSquenceId ≠ caller.nSquenceId :=
    fun o member same => distinct.1 (same ▸ List.mem_map_of_mem member)
  constructor
  · exact inv.small
  · exact inv.requests
  · exact fun r member => inv.responses r (queue ▸ List.mem_cons_of_mem _ member)
  · exact distinct.2
  · intro o member
    change Function.update w.async.squence (AsyncManager.key caller.nSquenceId) none
      (AsyncManager.key o.nSquenceId) = some o.tbParameters
    rw [Function.update_of_ne fun same => other o member (AsyncManager.key_inj.mp same)]
    exact inv.stored o (outstanding ▸ List.mem_cons_of_mem _ member)
  · intro k found
    change Function.update w.async.squence (AsyncManager.key caller.nSquenceId) none k ≠ none at found
    by_cases here : k = AsyncManager.key caller.nSquenceId
    · rw [here, Function.update_self] at found
      exact absurd rfl found
    · rw [Function.update_of_ne here] at found
      obtain ⟨o, member, same⟩ := inv.onlyStored k found
      rw [outstanding] at member
      cases member with
      | head => exact absurd same here
      | tail _ later => exact ⟨o, later, same⟩
  · intro id found
    rcases inv.names id found with ⟨o, member, same⟩ | handled
    · rw [outstanding] at member
      cases member with
      | head => exact Or.inr (by rw [same])
      | tail _ later => exact Or.inl ⟨o, later, same⟩
    · rw [idle] at handled
      exact absurd handled (by simp)
  · intro d member
    rcases List.mem_append.mp member with before | new
    · exact inv.matched d before
    · rw [List.mem_singleton.mp new]
      exact ⟨rfl, rfl⟩

/-- Behind the callback nothing is left of the call. -/
theorem MatchInvariant.finish {w w' : AsyncWorld} (inv : MatchInvariant cfg w)
    (run : w.finish = some w') : MatchInvariant cfg w' := by
  obtain ⟨handled, handling, rfl⟩ := Option.map_eq_some_iff.mp run
  cases handled with
  | none =>
      refine ⟨inv.small, inv.requests, inv.responses, inv.distinct, inv.stored, inv.onlyStored, ?_,
        inv.matched⟩
      intro id found
      rcases inv.names id found with outstanding | same
      · exact Or.inl outstanding
      · rw [handling] at same
        exact absurd same (by simp)
  | some id =>
      have squence : (w.async.setSquenceIdToTableNameNil id).squence = w.async.squence := by
        unfold AsyncManager.setSquenceIdToTableNameNil
        split <;> rfl
      have squenceId : (w.async.setSquenceIdToTableNameNil id).squenceId = w.async.squenceId := by
        unfold AsyncManager.setSquenceIdToTableNameNil
        split <;> rfl
      have removed : (w.async.setSquenceIdToTableNameNil id).squenceIdToTableName =
          Function.update w.async.squenceIdToTableName id none := by
        unfold AsyncManager.setSquenceIdToTableNameNil
        split
        · rfl
        · rename_i absent
          rw [← absent, Function.update_eq_self]
      constructor
      · exact Nat.lt_of_le_of_lt (Nat.le_of_eq squenceId) inv.small
      · exact inv.requests
      · exact inv.responses
      · exact inv.distinct
      · intro caller member
        exact (congrFun squence _).trans (inv.stored caller member)
      · intro k found
        exact inv.onlyStored k fun none => found ((congrFun squence k).trans none)
      · intro other found
        change (w.async.setSquenceIdToTableNameNil id).squenceIdToTableName other ≠ none at found
        rw [removed] at found
        have notId : other ≠ id := by
          rintro rfl
          exact found (Function.update_self _ _ _)
        rw [Function.update_of_ne notId] at found
        rcases inv.names other found with outstanding | same
        · exact Or.inl outstanding
        · rw [handling] at same
          exact absurd (Option.some.inj (Option.some.inj same)).symm notId
      · exact inv.matched

/-- The step lemma. -/
theorem MatchInvariant.step {w w' : AsyncWorld} (inv : MatchInvariant cfg w) (a : AsyncAction ν τ)
    (guard : MatchGuard cfg w a) (run : asyncStep text cfg w a = some w') : MatchInvariant cfg w' := by
  cases a with
  | call c => exact inv.call text cfg guard run
  | serve reply => exact inv.serve cfg run
  | deliver => exact inv.deliver cfg guard run
  | finish => exact inv.finish cfg run

/-- Every response was delivered with the id of its call and popped what that call had stored, and when
nothing is under way any more, nothing is left. -/
structure ResponsesMatched (w : AsyncWorld) : Prop where
  matched : ∀ d ∈ w.delivered, d.nAsyncSquenceId = d.caller.nSquenceId ∧ d.tbParam = some d.caller.tbParameters
  empty : w.requests = [] → w.responses = [] → w.handling = none →
    (∀ k, w.async.squence k = none) ∧ ∀ id, w.async.squenceIdToTableName id = none

/-- What the invariant says of the deliveries. -/
theorem MatchInvariant.responsesMatched {w : AsyncWorld} (inv : MatchInvariant cfg w) :
    ResponsesMatched w where
  matched := inv.matched
  empty := by
    intro noRequests noResponses idle
    have none : ∀ caller, caller ∉ w.outstanding := by
      simp [AsyncWorld.outstanding, noRequests, noResponses]
    constructor
    · intro k
      by_contra found
      obtain ⟨caller, member, -⟩ := inv.onlyStored k found
      exact none caller member
    · intro id
      by_contra found
      rcases inv.names id found with ⟨caller, member, -⟩ | handled
      · exact none caller member
      · rw [idle] at handled
        exact absurd handled (by simp)

/-- In a run of steps that keep to `MatchGuard`, responses are matched with their calls. -/
theorem responses_matched (actions : List (AsyncAction ν τ)) (w : AsyncWorld)
    (guarded : Guarded (asyncStep text cfg) (MatchGuard cfg) .init actions)
    (run : runSteps (asyncStep text cfg) .init actions = some w) : ResponsesMatched w := by
  have inv : MatchInvariant cfg w := by
    apply guarded_invariant _ (matchInvariant_init cfg) guarded run
    intro w a w' before guard step
    exact before.step text cfg a guard step
  exact inv.responsesMatched cfg

/-- The two events are 1 and 2; nothing can be decoded. -/
def plainResponses : ResponseConfig := ⟨1, 2, fun _ => false⟩

/-- A lookup of a registration with a parameter, in a buffer full of zeros. -/
def lookup : DbCall Int Unit :=
  ⟨.register, .get (.string (ascii "D")), 7, 3, [.number 5], ⟨0, 0, 0⟩⟩

/-- Another lookup, with another parameter. -/
def otherLookup : DbCall Int Unit :=
  ⟨.register, .get (.string (ascii "E")), 8, 4, [.number 6], ⟨0, 0, 0⟩⟩

/-- Both lookups are made before the first of them is served. -/
def lookups : List (AsyncAction Int Unit) :=
  [.call lookup, .call otherLookup, .serve (.bulk none), .serve (.bulk none), .deliver, .finish, .deliver, .finish]

/-- Two lookups under way at a time are each handed the parameters of their own call. -/
theorem responses_matched_lookup : ∃ w, runSteps (asyncStep plainText plainResponses) .init lookups = some w ∧
    ResponsesMatched w ∧ w.delivered =
      [⟨⟨1, ⟨[.number 5], 0⟩⟩, 1, some ⟨[.number 5], 0⟩⟩, ⟨⟨2, ⟨[.number 6], 1⟩⟩, 2, some ⟨[.number 6], 1⟩⟩] := by
  refine ⟨_, rfl, responses_matched plainText plainResponses lookups _ ?_ rfl, by decide +kernel⟩
  refine ⟨⟨⟨rfl, rfl⟩, by decide, by decide⟩, ?_⟩
  rintro _ ⟨⟩
  refine ⟨⟨⟨rfl, rfl⟩, by decide, by decide⟩, ?_⟩
  rintro _ ⟨⟩
  refine ⟨trivial, ?_⟩
  rintro _ ⟨⟩
  refine ⟨trivial, ?_⟩
  rintro _ ⟨⟩
  -- both responses are empty: there is nothing to decode
  refine ⟨?_, ?_⟩
  · rintro r ⟨⟩ str ⟨⟩ nonempty
    exact absurd rfl nonempty
  · rintro _ ⟨⟩
    refine ⟨trivial, ?_⟩
    rintro _ ⟨⟩
    refine ⟨?_, ?_⟩
    · rintro r ⟨⟩ str ⟨⟩ nonempty
      exact absurd rfl nonempty
    · rintro _ ⟨⟩
      exact ⟨trivial, fun _ _ => trivial⟩

/-- A registration, in a buffer in which a 2 stands for the sequence id. -/
def writeRegistration : DbCall Int Unit :=
  ⟨.register, .set (.string (ascii "D")) (.number 7), 0, 0, [], ⟨0, 0, 2⟩⟩

/-- The response of a `SetValue` takes the parameters of the lookup behind it. -/
theorem response_takes_parameters : ∃ w, runSteps (asyncStep plainText plainResponses) .init
    [.call writeRegistration, .call lookup, .serve (.status okStatus), .deliver] = some w ∧
      ¬ ResponsesMatched w := by
  refine ⟨_, rfl, ?_⟩
  intro matched
  have first := matched.matched ⟨⟨1, ⟨[], 0⟩⟩, 2, some ⟨[.number 5], 1⟩⟩ (by decide +kernel)
  exact absurd first (by decide)

end GameServer.Db
