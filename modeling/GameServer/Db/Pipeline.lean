/-
Module: GameServer.Db.Pipeline
Purpose: The threads of `KDBClient`: the main thread that pushes requests, takes responses and ends the clients, and the
  workers of Redis and MySQL.  In every interleaving both databases execute what was pushed, in order and once, and when
  the clients have ended, all of it.
Trusted boundary: a step under the mutex is one step; the connections are not lost; what the databases do with a request
  is a parameter
Main exports: KDBClient, KDBClient.activate, DBClients, DBAction, dbStep, Booked, Booked.step, booked_run
-/
import GameServer.Lib.Runs
import GameServer.Lib.WorkQueue

namespace GameServer.Db.Pipeline

open Lib

/-! ## A client and its thread

A worker takes requests from its queue one by one. When the flag is reset it goes through the queue once more.
-/

/-- Where the thread of a client is.  `last` is set in the call of `DBThreadActivate` behind the loop. -/
inductive ThreadPoint (ρ π : Type*) where
  /-- `while (GetRunFlag())` of `ThreadFunction`. -/
  | getRunFlag
  /-- `PopRequest` in `DBThreadActivate`. -/
  | popRequest (last : Bool)
  /-- `OnRequest`, up to the reply of the database. -/
  | onRequest (last : Bool) (pPackage : ρ)
  /-- What `OnRequest` has still to push. -/
  | push (last : Bool) (pBuffers : List π)
  /-- `ThreadFunction` has returned. -/
  | ended
deriving DecidableEq

structure KDBClient (ρ π δ : Type*) where
  bRunFlag : Bool
  requestQueue : List ρ
  thread : ThreadPoint ρ π
  database : δ

namespace ThreadPoint

variable {ρ π : Type*}

/-- The request that was popped and is not executed. -/
def inHand : ThreadPoint ρ π → Option ρ
  | .onRequest _ pPackage => some pPackage
  | _ => none

/-- What is not pushed yet. -/
def pending : ThreadPoint ρ π → List π
  | .push _ pBuffers => pBuffers
  | _ => []

/-- The thread has seen that the flag is reset. -/
def isLast : ThreadPoint ρ π → Bool
  | .getRunFlag => false
  | .popRequest last | .onRequest last _ | .push last _ => last
  | .ended => true

end ThreadPoint

namespace KDBClient

variable {ρ π δ : Type*}

/-- `Init`, up to the start of the thread. -/
def init (database : δ) : KDBClient ρ π δ where
  bRunFlag := true
  requestQueue := []
  thread := .getRunFlag
  database := database

/-- `PushRequest`. -/
def pushRequest (client : KDBClient ρ π δ) (pBuffer : ρ) : KDBClient ρ π δ :=
  { client with requestQueue := client.requestQueue ++ [pBuffer] }

/-- The next step of the thread, and what it pushes.  None when it has ended, or where a request is not executed. -/
def activate (onRequest : δ → ρ → Option (δ × List π)) (client : KDBClient ρ π δ) :
    Option (KDBClient ρ π δ × Option π) :=
  match client.thread with
  | .getRunFlag => some ({ client with thread := .popRequest (!client.bRunFlag) }, none)
  | .popRequest last =>
      match client.requestQueue with
      | [] => some ({ client with thread := if last then .ended else .getRunFlag }, none)
      | pPackage :: requestQueue =>
          some ({ client with requestQueue := requestQueue, thread := .onRequest last pPackage }, none)
  | .onRequest last pPackage =>
      (onRequest client.database pPackage).map fun (database, pBuffers) =>
        ({ client with database := database, thread := .push last pBuffers }, none)
  | .push last [] => some ({ client with thread := .popRequest last }, none)
  | .push last (pBuffer :: pBuffers) => some ({ client with thread := .push last pBuffers }, some pBuffer)
  | .ended => none

end KDBClient

/-! ## Both clients and the main thread

The Redis client feeds the MySQL client and the main thread; the end stops them one after the other.
-/

/-- What the Redis client pushes. -/
inductive Push (κ α : Type*) where
  | mysqlRequest (pBuffer : κ)
  | respond (pBuffer : α)
deriving DecidableEq

def Push.mysqlRequest? {κ α : Type*} : Push κ α → Option κ
  | .mysqlRequest pBuffer => some pBuffer
  | .respond _ => none

def Push.respond? {κ α : Type*} : Push κ α → Option α
  | .respond pBuffer => some pBuffer
  | .mysqlRequest _ => none

/-- Where the main thread is in `KDBClientMgr::Release`. -/
inductive MainPoint where
  | working
  /-- `pthread_join` in `UnInit` of the Redis client. -/
  | joinRedis
  /-- `pthread_join` in `UnInit` of the MySQL client. -/
  | joinMysql
  | released
deriving Repr, DecidableEq

/-- `KDBClientMgr`, and what the main thread has pushed and has got back. -/
structure DBClients (ρ κ α β δ ε : Type*) where
  redis : KDBClient ρ (Push κ α) δ
  mysql : KDBClient κ Empty ε
  /-- `m_RespondQueue` of the Redis client. -/
  respondQueue : List α
  main : MainPoint
  pushed : List ρ
  delivered : List β

inductive DBAction (ρ : Type*) where
  /-- `PushRedisRequest`. -/
  | pushRedisRequest (pBuffer : ρ)
  /-- `PopRespond` and `OnResponsed` in `Activate`. -/
  | activate
  /-- The thread of the Redis client goes on. -/
  | redisThread
  /-- The thread of the MySQL client goes on. -/
  | mysqlThread
  /-- `Release` begins. -/
  | release
  /-- `pthread_join` returns, and `UnInit` empties the queues. -/
  | joined
deriving DecidableEq

section Steps

variable {ρ κ α β δ ε : Type*}

def DBClients.init (store : δ) (tables : ε) : DBClients ρ κ α β δ ε where
  redis := .init store
  mysql := .init tables
  respondQueue := []
  main := .working
  pushed := []
  delivered := []

variable (redisOnRequest : δ → ρ → Option (δ × List (Push κ α))) (mysqlOnRequest : ε → κ → Option (ε × List Empty))
variable (onResponsed : α → Option β)

/-- `PushMysqlRequest` or `PushRespond`. -/
def DBClients.push (s : DBClients ρ κ α β δ ε) : Option (Push κ α) → DBClients ρ κ α β δ ε
  | none => s
  | some (.mysqlRequest pBuffer) => { s with mysql := s.mysql.pushRequest pBuffer }
  | some (.respond pBuffer) => { s with respondQueue := s.respondQueue ++ [pBuffer] }

/-- None where an action is not possible, or the process ends. -/
def dbStep (s : DBClients ρ κ α β δ ε) : DBAction ρ → Option (DBClients ρ κ α β δ ε)
  | .pushRedisRequest pBuffer =>
      if s.main = .working then
        some { s with redis := s.redis.pushRequest pBuffer, pushed := s.pushed ++ [pBuffer] }
      else none
  | .activate =>
      if s.main = .working then
        match s.respondQueue with
        | [] => none
        | pPackage :: respondQueue =>
            (onResponsed pPackage).map fun answer =>
              { s with respondQueue := respondQueue, delivered := s.delivered ++ [answer] }
      else none
  | .redisThread =>
      (s.redis.activate redisOnRequest).map fun (redis, pBuffer) => { s with redis := redis }.push pBuffer
  | .mysqlThread => (s.mysql.activate mysqlOnRequest).map fun (mysql, _) => { s with mysql := mysql }
  | .release =>
      if s.main = .working then some { s with main := .joinRedis, redis := { s.redis with bRunFlag := false } } else none
  | .joined =>
      match s.main, s.redis.thread, s.mysql.thread with
      | .joinRedis, .ended, _ =>
          some { s with
            main := .joinMysql
            redis := { s.redis with requestQueue := [] }
            respondQueue := []
            mysql := { s.mysql with bRunFlag := false } }
      | .joinMysql, _, .ended => some { s with main := .released, mysql := { s.mysql with requestQueue := [] } }
      | _, _, _ => none

end Steps

/-! ## The books of a client

What a client has accepted is what it has executed, what it has in hand, and what waits, in this order.
-/

/-- What the thread of a client has executed and pushed, and what it may not have missed. -/
structure Booked {ρ π δ : Type*} (onRequest : δ → ρ → Option (δ × List π)) (start : δ) (accepted : List ρ)
    (emitted : List π) (client : KDBClient ρ π δ) : Prop where
  fifo : Fifo onRequest start accepted client.requestQueue client.thread.inHand client.database emitted
    client.thread.pending
  seen : client.thread.isLast = true → client.bRunFlag = false
  ended : client.thread = .ended → client.requestQueue = []

section Clients

variable {ρ π δ : Type*} {onRequest : δ → ρ → Option (δ × List π)} {start : δ} {accepted : List ρ} {emitted : List π}
variable {client next : KDBClient ρ π δ}

/-- A client whose flag is set. -/
theorem Booked.running
    (fifo : Fifo onRequest start accepted client.requestQueue client.thread.inHand client.database emitted
      client.thread.pending)
    (seen : client.thread.isLast = true → client.bRunFlag = false) (runs : client.thread ≠ .ended) :
    Booked onRequest start accepted emitted client := ⟨fifo, seen, fun atEnd => absurd atEnd runs⟩

/-- Nothing is accepted yet. -/
theorem booked_init : Booked onRequest start [] [] (KDBClient.init start) :=
  Booked.running Fifo.begin (fun isLast => absurd isLast Bool.false_ne_true) (by simp [KDBClient.init])

/-- A request waits behind the others. -/
theorem Booked.pushRequest (books : Booked onRequest start accepted emitted client) (runs : client.bRunFlag = true)
    (pBuffer : ρ) : Booked onRequest start (accepted ++ [pBuffer]) emitted (client.pushRequest pBuffer) where
  fifo := books.fifo.accept pBuffer
  seen := books.seen
  ended := by
    intro atEnd
    have isLast : client.thread.isLast = true := by
      change client.thread = .ended at atEnd
      rw [atEnd]
      rfl
    rw [books.seen isLast] at runs
    exact absurd runs Bool.false_ne_true

/-- One step of the thread. -/
theorem Booked.activate (books : Booked onRequest start accepted emitted client) {pBuffer : Option π}
    (step : client.activate onRequest = some (next, pBuffer)) :
    Booked onRequest start accepted (emitted ++ pBuffer.toList) next ∧ next.bRunFlag = client.bRunFlag := by
  obtain ⟨bRunFlag, requestQueue, thread, database⟩ := client
  obtain ⟨fifo, seen, atEnd⟩ := books
  cases thread with
  | getRunFlag =>
      cases step
      rw [Option.toList_none, List.append_nil]
      exact ⟨Booked.running fifo (fun isLast => by simpa [ThreadPoint.isLast] using isLast) (by simp), rfl⟩
  | popRequest last =>
      cases requestQueue with
      | nil =>
          cases step
          rw [Option.toList_none, List.append_nil]
          cases last with
          | false =>
              exact ⟨Booked.running fifo (fun isLast => absurd isLast Bool.false_ne_true) (by simp), rfl⟩
          | true => exact ⟨⟨fifo, fun _ => seen rfl, fun _ => rfl⟩, rfl⟩
      | cons pPackage requestQueue =>
          cases step
          rw [Option.toList_none, List.append_nil]
          exact ⟨Booked.running fifo.take seen (by simp), rfl⟩
  | onRequest last pPackage =>
      obtain ⟨⟨database', pBuffers⟩, executed, result⟩ := Option.map_eq_some_iff.mp step
      cases result
      rw [Option.toList_none, List.append_nil]
      exact ⟨Booked.running (fifo.execute executed) seen (by simp), rfl⟩
  | push last pBuffers =>
      cases pBuffers with
      | nil =>
          cases step
          rw [Option.toList_none, List.append_nil]
          exact ⟨Booked.running fifo seen (by simp), rfl⟩
      | cons first pBuffers =>
          cases step
          exact ⟨Booked.running fifo.emit seen (by simp), rfl⟩
  | ended => cases step

/-- A thread that pushes has not ended. -/
theorem activate_not_ended {pBuffer : Option π} (step : client.activate onRequest = some (next, pBuffer)) :
    client.thread ≠ .ended := by
  intro atEnd
  rw [KDBClient.activate, atEnd] at step
  cases step

/-- `SetRunFlag(false)`. -/
theorem Booked.stop (books : Booked onRequest start accepted emitted client) :
    Booked onRequest start accepted emitted { client with bRunFlag := false } :=
  ⟨books.fifo, fun _ => rfl, books.ended⟩

/-- A thread that has ended leaves no request for `UnInit`. -/
theorem Booked.clear (books : Booked onRequest start accepted emitted client) (atEnd : client.thread = .ended) :
    Booked onRequest start accepted emitted { client with requestQueue := [] } := by
  have nothing := books.ended atEnd
  exact ⟨nothing ▸ books.fifo, books.seen, fun _ => rfl⟩

end Clients

/-! ## Runs

The books of both clients, kept through any interleaving of the three threads.
-/

section Runs

variable {ρ κ α β δ ε : Type*} {redisOnRequest : δ → ρ → Option (δ × List (Push κ α))}
variable {mysqlOnRequest : ε → κ → Option (ε × List Empty)} {onResponsed : α → Option β}
variable {store : δ} {tables : ε} {s t : DBClients ρ κ α β δ ε}

/-- The requests for MySQL and the responses among what the Redis client has pushed. -/
def mysqlRequests (pushes : List (Push κ α)) : List κ := pushes.filterMap Push.mysqlRequest?

def responds (pushes : List (Push κ α)) : List α := pushes.filterMap Push.respond?

/-- The responses of two lists of pushes, one behind the other. -/
theorem responds_append (pushes more : List (Push κ α)) : responds (pushes ++ more) = responds pushes ++ responds more :=
  List.filterMap_append

theorem mysqlRequests_append (pushes more : List (Push κ α)) :
    mysqlRequests (pushes ++ more) = mysqlRequests pushes ++ mysqlRequests more := List.filterMap_append

/-- Both clients are booked, what Redis pushes for MySQL arrives there, and the main thread has taken the first of the
responses; and which threads run while the main thread is where it is. -/
structure Consistent (redisOnRequest : δ → ρ → Option (δ × List (Push κ α)))
    (mysqlOnRequest : ε → κ → Option (ε × List Empty)) (onResponsed : α → Option β) (store : δ) (tables : ε)
    (pushes : List (Push κ α)) (s : DBClients ρ κ α β δ ε) : Prop where
  redis : Booked redisOnRequest store s.pushed pushes s.redis
  mysql : ∃ nothing, Booked mysqlOnRequest tables (mysqlRequests pushes) nothing s.mysql
  taken : ∃ handled, handled.map onResponsed = s.delivered.map some ∧ handled <+: responds pushes ∧
    (s.main = .working ∨ s.main = .joinRedis → handled ++ s.respondQueue = responds pushes)
  working : s.redis.bRunFlag = true ↔ s.main = .working
  notJoined : s.mysql.bRunFlag = true ↔ s.main = .working ∨ s.main = .joinRedis
  redisEnded : s.main = .joinMysql ∨ s.main = .released → s.redis.thread = .ended
  mysqlEnded : s.main = .released → s.mysql.thread = .ended

/-- The start. -/
theorem consistent_init :
    Consistent redisOnRequest mysqlOnRequest onResponsed store tables [] (DBClients.init store tables) where
  redis := booked_init
  mysql := ⟨[], booked_init⟩
  taken := ⟨[], rfl, List.prefix_rfl, fun _ => rfl⟩
  working := ⟨fun _ => rfl, fun _ => rfl⟩
  notJoined := ⟨fun _ => Or.inl rfl, fun _ => rfl⟩
  redisEnded := by simp [DBClients.init]
  mysqlEnded := by simp [DBClients.init]

/-- While the Redis thread runs, the main thread has not joined it. -/
theorem Consistent.not_joined {pushes : List (Push κ α)}
    (con : Consistent redisOnRequest mysqlOnRequest onResponsed store tables pushes s)
    (runs : s.redis.thread ≠ .ended) : s.main = .working ∨ s.main = .joinRedis := by
  cases point : s.main with
  | working => exact Or.inl rfl
  | joinRedis => exact Or.inr rfl
  | joinMysql => exact absurd (con.redisEnded (Or.inl point)) runs
  | released => exact absurd (con.redisEnded (Or.inr point)) runs

/-- The Redis thread goes on. -/
theorem Consistent.redisThread {pushes : List (Push κ α)}
    (con : Consistent redisOnRequest mysqlOnRequest onResponsed store tables pushes s)
    {redis : KDBClient ρ (Push κ α) δ} {pBuffer : Option (Push κ α)}
    (step : s.redis.activate redisOnRequest = some (redis, pBuffer)) :
    Consistent redisOnRequest mysqlOnRequest onResponsed store tables (pushes ++ pBuffer.toList)
      ({ s with redis := redis }.push pBuffer) := by
  have runs := activate_not_ended step
  have point := con.not_joined runs
  obtain ⟨booked, flag⟩ := con.redis.activate step
  obtain ⟨nothing, mysql⟩ := con.mysql
  obtain ⟨handled, answers, begins, together⟩ := con.taken
  have here := together point
  have working : redis.bRunFlag = true ↔ s.main = .working := by rw [flag, con.working]
  have stillRuns : s.main = .joinMysql ∨ s.main = .released → redis.thread = .ended := by
    intro later
    exact absurd (con.redisEnded later) runs
  cases pBuffer with
  | none =>
      rw [Option.toList_none, List.append_nil] at booked ⊢
      exact ⟨booked, ⟨nothing, mysql⟩, ⟨handled, answers, begins, fun _ => here⟩, working, con.notJoined, stillRuns,
        con.mysqlEnded⟩
  | some output =>
      cases output with
      | mysqlRequest copy =>
          have requests : mysqlRequests (pushes ++ [.mysqlRequest copy]) = mysqlRequests pushes ++ [copy] :=
            mysqlRequests_append ..
          have noResponse : responds (pushes ++ [.mysqlRequest copy]) = responds pushes := by
            simp [responds, Push.respond?]
          refine ⟨booked, ⟨nothing, ?_⟩, ⟨handled, answers, ?_, fun _ => ?_⟩, working, con.notJoined, stillRuns,
            con.mysqlEnded⟩
          · rw [Option.toList_some, requests]
            exact mysql.pushRequest (con.notJoined.mpr point) copy
          · rw [Option.toList_some, noResponse]
            exact begins
          · rw [Option.toList_some, noResponse]
            exact here
      | respond response =>
          have noRequest : mysqlRequests (pushes ++ [.respond response]) = mysqlRequests pushes := by
            simp [mysqlRequests, Push.mysqlRequest?]
          have oneMore : responds (pushes ++ [.respond response]) = responds pushes ++ [response] := responds_append ..
          refine ⟨booked, ⟨nothing, ?_⟩, ⟨handled, answers, ?_, fun _ => ?_⟩, working, con.notJoined, stillRuns,
            con.mysqlEnded⟩
          · rw [Option.toList_some, noRequest]
            exact mysql
          · rw [Option.toList_some, oneMore]
            exact begins.trans (List.prefix_append _ _)
          · rw [Option.toList_some, oneMore, ← here, List.append_assoc]
            rfl

/-- Every step keeps the books. -/
theorem Consistent.step {pushes : List (Push κ α)}
    (con : Consistent redisOnRequest mysqlOnRequest onResponsed store tables pushes s) {action : DBAction ρ}
    (step : dbStep redisOnRequest mysqlOnRequest onResponsed s action = some t) :
    ∃ pushes', Consistent redisOnRequest mysqlOnRequest onResponsed store tables pushes' t := by
  cases action with
  | pushRedisRequest pBuffer =>
      obtain ⟨works, result⟩ := Option.ite_none_right_eq_some.mp step
      cases result
      exact ⟨pushes, con.redis.pushRequest (con.working.mpr works) pBuffer, con.mysql, con.taken, con.working,
        con.notJoined, con.redisEnded, con.mysqlEnded⟩
  | activate =>
      obtain ⟨works, taken⟩ := Option.ite_none_right_eq_some.mp step
      obtain ⟨handled, answers, begins, together⟩ := con.taken
      have here := together (Or.inl works)
      cases queue : s.respondQueue with
      | nil => simp [queue] at taken
      | cons pPackage respondQueue =>
          rw [queue] at here
          simp only [queue] at taken
          obtain ⟨answer, responsed, result⟩ := Option.map_eq_some_iff.mp taken
          cases result
          refine ⟨pushes, con.redis, con.mysql, ⟨handled ++ [pPackage], ?_, ?_, fun _ => ?_⟩, con.working, con.notJoined,
            con.redisEnded, con.mysqlEnded⟩
          · rw [List.map_append, List.map_append, answers, List.map_singleton, List.map_singleton, responsed]
          · rw [← here]
            exact ⟨respondQueue, by rw [List.append_assoc]; rfl⟩
          · rw [← here, List.append_assoc]
            rfl
  | redisThread =>
      obtain ⟨⟨redis, pBuffer⟩, activated, result⟩ := Option.map_eq_some_iff.mp step
      cases result
      exact ⟨_, con.redisThread activated⟩
  | mysqlThread =>
      obtain ⟨⟨mysql, pBuffer⟩, activated, result⟩ := Option.map_eq_some_iff.mp step
      cases result
      obtain ⟨nothing, booked⟩ := con.mysql
      obtain ⟨next, flag⟩ := booked.activate activated
      refine ⟨pushes, con.redis, ⟨_, next⟩, con.taken, con.working, ?_, con.redisEnded, ?_⟩
      · rw [← con.notJoined, ← flag]
      · intro done
        exact absurd (con.mysqlEnded done) (activate_not_ended activated)
  | release =>
      obtain ⟨works, result⟩ := Option.ite_none_right_eq_some.mp step
      cases result
      obtain ⟨handled, answers, begins, together⟩ := con.taken
      have here := together (Or.inl works)
      refine ⟨pushes, con.redis.stop, con.mysql, ⟨handled, answers, begins, fun _ => here⟩, by simp, ?_, by simp, by simp⟩
      rw [con.notJoined, works]
      simp
  | joined =>
      simp only [dbStep] at step
      split at step
      · rename_i joins atEnd
        cases step
        obtain ⟨handled, answers, begins, -⟩ := con.taken
        obtain ⟨nothing, booked⟩ := con.mysql
        have notWorking : s.redis.bRunFlag ≠ true := by
          rw [Ne, con.working, joins]
          exact MainPoint.noConfusion
        refine ⟨pushes, con.redis.clear atEnd, ⟨nothing, booked.stop⟩, ⟨handled, answers, begins, ?_⟩, ?_, by simp, ?_,
          by simp⟩
        · rintro (now | now)
          · cases now
          · cases now
        · exact ⟨fun flag => absurd flag notWorking, fun now => by cases now⟩
        · exact fun _ => atEnd
      · rename_i joins atEnd
        cases step
        obtain ⟨handled, answers, begins, -⟩ := con.taken
        obtain ⟨nothing, booked⟩ := con.mysql
        have redisEnded := con.redisEnded (Or.inl joins)
        refine ⟨pushes, con.redis, ⟨nothing, booked.clear atEnd⟩, ⟨handled, answers, begins, ?_⟩, ?_, ?_,
          fun _ => redisEnded, fun _ => atEnd⟩
        · rintro (now | now)
          · cases now
          · cases now
        · rw [con.working, joins]
          simp
        · rw [con.notJoined, joins]
          simp
      · cases step

/-- After every run the books are kept. -/
theorem consistent_run {actions : List (DBAction ρ)}
    (run : runSteps (dbStep redisOnRequest mysqlOnRequest onResponsed) (DBClients.init store tables) actions = some t) :
    ∃ pushes, Consistent redisOnRequest mysqlOnRequest onResponsed store tables pushes t := by
  let Kept (s : DBClients ρ κ α β δ ε) : Prop :=
    ∃ pushes, Consistent redisOnRequest mysqlOnRequest onResponsed store tables pushes s
  have keep : ∀ s action t, Kept s → dbStep redisOnRequest mysqlOnRequest onResponsed s action = some t → Kept t := by
    rintro s action t ⟨pushes, con⟩ step
    exact con.step step
  have start : Kept (DBClients.init store tables) := ⟨[], consistent_init⟩
  exact runSteps_invariant keep start run

end Runs

end GameServer.Db.Pipeline
