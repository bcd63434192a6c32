/-
Module: GameServer.Login.GlobalId
Purpose: The global user id: three servers load it from the database or write its default there, and the
  login server hands it out and writes the next one.
Trusted boundary: the commands of a server are executed in the order they were made, also when it was
  started again in between; replies to other requests do not concern the id
Main exports: Cluster, clusterStep, DefaultNotBehind, ids_never_twice
-/
import GameServer.Lib.Runs
import GameServer.Login.SharedRecords

namespace GameServer.Login

open Lib Lib.LuaM Script

/-! ## The servers and the database

All three servers have a script that reads the global user id at the start and stores the default when there is none;
only the login server gives ids to users.
-/

inductive Server where
  | login
  | logic
  | room
deriving Repr, DecidableEq

/-- The value that a command writes under `UserGlobalId`, the one key of its table. -/
def globalSet : RedisCall → Option Int
  | .set .global _ _ _ (.number n) => some n
  | _ => none

/-- The command reads `UserGlobalId`. -/
def isGlobalGet : RedisCall → Bool
  | .get .global _ _ _ => true
  | _ => false

/-- The servers, with how often each was started, its commands on the way to Redis and the replies on
their way back (both with the start they belong to), and what is stored under `UserGlobalId`.  The logic
and the room server use only the configuration manager of the scripts.  `handedOut` lists the ids that
`GetInitUser` gave to users. -/
structure Cluster where
  scripts : Server → LoginState
  starts : Server → Nat
  queue : Server → List (Nat × RedisCall)
  replies : Server → List (Nat × Option Int)
  store : Option Int
  handedOut : List Int

variable (cfg : LoginConfig)

/-- No server was started yet. -/
def Cluster.init (store : Option Int) : Cluster where
  scripts _ := .ctor cfg
  starts _ := 0
  queue _ := []
  replies _ := []
  store := store
  handedOut := []

namespace Cluster

/-- A server runs a function of its scripts, and the commands it makes are queued. -/
def run (w : Cluster) (x : Server) (m : LuaM LoginState Unit) : Cluster :=
  let s := (exec m (w.scripts x)).2
  { w with
    scripts := Function.update w.scripts x { s with toRedis := [] }
    queue := Function.update w.queue x (w.queue x ++ s.toRedis.map fun call => (w.starts x, call)) }

/-- A server is started, or started again; what the process before it knew is lost. -/
def start (w : Cluster) (x : Server) : Cluster :=
  run
    { w with
      scripts := Function.update w.scripts x (.ctor cfg)
      starts := Function.update w.starts x (w.starts x + 1) }
    x initUserGlobalId

/-- Redis executes the next command of a server. -/
def execute (w : Cluster) (x : Server) : Cluster :=
  match w.queue x with
  | [] => w
  | (n, call) :: rest =>
      { w with
        queue := Function.update w.queue x rest
        replies :=
          if isGlobalGet call then
            Function.update w.replies x (w.replies x ++ [(n, w.store)])
          else
            w.replies
        store := (globalSet call).or w.store }

/-- The next reply reaches the scripts, if the process that asked still runs. -/
def deliver (w : Cluster) (x : Server) : Cluster :=
  match w.replies x with
  | [] => w
  | (n, reply) :: rest =>
      let w := { w with replies := Function.update w.replies x rest }
      if n = w.starts x then w.run x (onResponseGlobalConfigEvent reply) else w

/-- A registration on the login server. -/
def registerUser (w : Cluster) (c : RegisterCall) : Cluster :=
  { w.run .login (do let _ ← register cfg c.nHandlerId [.string c.strDeviceId, .string c.strIp]) with
    handedOut := w.handedOut ++ (w.scripts .login).userGlobalId.toList }

end Cluster

/-- What can happen next. -/
inductive ClusterAction where
  | start (x : Server)
  | execute (x : Server)
  | deliver (x : Server)
  | register (c : RegisterCall)

def clusterStep (w : Cluster) : ClusterAction → Cluster
  | .start x => w.start cfg x
  | .execute x => w.execute x
  | .deliver x => w.deliver x
  | .register c => w.registerUser cfg c

/-- When Redis executes a write of the logic or the room server, which is a write of the default, the
stored id is not greater already. -/
def DefaultNotBehind (w : Cluster) : ClusterAction → Prop
  | .execute x => x ≠ .login → ∀ e ∈ (w.queue x).head?, ∀ n ∈ globalSet e.2, ∀ m ∈ w.store, m ≤ n
  | _ => True

instance (w : Cluster) : (a : ClusterAction) → Decidable (DefaultNotBehind w a)
  | .start _ | .deliver _ | .register _ => isTrue trivial
  | .execute x => inferInstanceAs
      (Decidable (x ≠ .login → ∀ e ∈ (w.queue x).head?, ∀ n ∈ globalSet e.2, ∀ m ∈ w.store, m ≤ n))

/-! ## What the scripts do

What a run of each script leaves, field by field.
-/

/-- The id is asked for at once. -/
theorem initUserGlobalId_ctor : (exec initUserGlobalId (.ctor cfg)).2 =
    { LoginState.ctor cfg with toRedis := [.get .global 0 .getUserGlobalId "UserGlobalId"] } := rfl

theorem onResponse_eq (reply : Option Int) (s : LoginState) :
    (exec (onResponseGlobalConfigEvent reply) s).2 =
      { s with
        userGlobalId := some (globalIdOr reply)
        toRedis := s.toRedis ++
          if reply.isSome then []
          else [.set .global 0 .none "UserGlobalId" (.number (globalIdOr reply))] } := by
  cases reply with
  | none => rfl
  | some n =>
      change { s with userGlobalId := some (globalIdOr (some n)) } = _
      simp

/-- Without the global user id a registration raises before it asks for anything. -/
theorem register_unknown {s : LoginState} (unknown : s.userGlobalId = none) (nHandlerId : Int)
    (strDeviceId strIp : String) :
    wp (register cfg nHandlerId [.string strDeviceId, .string strIp]) (fun _ _ => False)
      (fun t => t.userGlobalId = none ∧ t.toRedis = s.toRedis ∧ s.heap.next ≤ t.heap.next) s := by
  simp only [register, getInitUser, getInitGameData, wp_bind, wp_get, wp_modify, wp_pure, unknown,
    cacheUserObject]
  split
  · simp only [wp_raise]
    exact ⟨trivial, trivial, Nat.le_succ _⟩
  · simp only [wp_modify, wp_raise]
    exact ⟨trivial, trivial, Nat.le_succ _⟩

theorem globalIdOr_nextGlobalId (n : Int) : globalIdOr (some (nextGlobalId n)) = nextGlobalId n := by
  simp only [nextGlobalId, globalIdOr]
  split <;> simp_all [userGlobalIdDefault]

/-! ## The invariant

The ids that were handed out are smaller than what will be stored. From its start to the reply the login server goes
through phases, each with its own facts about the queue.
-/

/-- The last id on the way to be written. -/
def lastSet (queue : List (Nat × RedisCall)) : Option Int :=
  (queue.filterMap fun e => globalSet e.2).getLast?

/-- What will be stored when all commands of the login server are executed. -/
def Cluster.written (w : Cluster) : Option Int := (lastSet (w.queue .login)).or w.store

/-- A later write is the one that counts. -/
theorem lastSet_append (queue more : List (Nat × RedisCall)) :
    lastSet (queue ++ more) = (lastSet more).or (lastSet queue) := by
  simp [lastSet, List.getLast?_append]

theorem lastSet_cons (e : Nat × RedisCall) (queue : List (Nat × RedisCall)) :
    lastSet (e :: queue) = (lastSet queue).or (globalSet e.2) := by
  rw [← List.singleton_append, lastSet_append]
  congr 1
  cases value : globalSet e.2 <;> simp [lastSet, value]

/-- What the login server waits for: nothing before it is started; then for its question to be executed,
then for the reply, which is greater than the ids handed out; then it has the next id. -/
inductive Phase (w : Cluster) : Prop where
  | notStarted (unknown : (w.scripts .login).userGlobalId = none) (queue : w.queue .login = [])
      (replies : w.replies .login = [])
  | asked (before : List (Nat × RedisCall)) (unknown : (w.scripts .login).userGlobalId = none)
      (queue : w.queue .login =
        before ++ [(w.starts .login, .get .global 0 .getUserGlobalId "UserGlobalId")])
      (old : ∀ e ∈ before, e.1 < w.starts .login) (replies : ∀ r ∈ w.replies .login, r.1 < w.starts .login)
  | answered (before : List (Nat × Option Int)) (reply : Option Int)
      (unknown : (w.scripts .login).userGlobalId = none)
      (queue : w.queue .login = []) (replies : w.replies .login = before ++ [(w.starts .login, reply)])
      (old : ∀ r ∈ before, r.1 < w.starts .login) (greater : ∀ id ∈ w.handedOut, id < globalIdOr reply)
  | loaded (next : Int) (known : (w.scripts .login).userGlobalId = some next)
      (greater : ∀ id ∈ w.handedOut, id < next)
      (queue : ∀ e ∈ w.queue .login, isGlobalGet e.2 = true → e.1 < w.starts .login)
      (replies : ∀ r ∈ w.replies .login, r.1 < w.starts .login)

/-- No id was handed out twice, what will be stored is greater than all of them, and the other servers
write nothing but the default. -/
structure IdInvariant (w : Cluster) : Prop where
  nodup : w.handedOut.Nodup
  written : ∀ id ∈ w.handedOut, id < globalIdOr w.written
  phase : Phase w
  tags : ∀ e ∈ w.queue .login, e.1 ≤ w.starts .login
  replyTags : ∀ r ∈ w.replies .login, r.1 ≤ w.starts .login
  others : ∀ x, x ≠ .login → ∀ e ∈ w.queue x, ∀ n, globalSet e.2 = some n → n = userGlobalIdDefault
  flushed : ∀ x, (w.scripts x).toRedis = []
  made : friendInfoTemplate < (w.scripts .login).heap.next

theorem idInvariant_init (store : Option Int) : IdInvariant (.init cfg store) where
  nodup := List.nodup_nil
  written _ member := absurd member List.not_mem_nil
  phase := .notStarted rfl rfl rfl
  tags _ member := absurd member List.not_mem_nil
  replyTags _ member := absurd member List.not_mem_nil
  others _ _ _ member := absurd member List.not_mem_nil
  flushed _ := rfl
  made := Nat.lt_succ_self _

/-! ## Steps of the other servers

These servers write nothing but the default.
-/

/-- A step that leaves the login server alone and does not put back what will be stored. -/
theorem IdInvariant.elsewhere {w w' : Cluster} (inv : IdInvariant w)
    (scripts : w'.scripts .login = w.scripts .login) (starts : w'.starts .login = w.starts .login)
    (queue : w'.queue .login = w.queue .login) (replies : w'.replies .login = w.replies .login)
    (handedOut : w'.handedOut = w.handedOut) (written : globalIdOr w.written ≤ globalIdOr w'.written)
    (others : ∀ x, x ≠ .login → ∀ e ∈ w'.queue x, ∀ n, globalSet e.2 = some n → n = userGlobalIdDefault)
    (flushed : ∀ x, (w'.scripts x).toRedis = []) : IdInvariant w' where
  nodup := handedOut ▸ inv.nodup
  written id member := Int.lt_of_lt_of_le (inv.written id (handedOut ▸ member)) written
  phase := by
    cases inv.phase with
    | notStarted unknown noQueue noReplies =>
        exact .notStarted (scripts ▸ unknown) (queue.trans noQueue) (replies.trans noReplies)
    | asked before unknown asked old oldReplies =>
        refine .asked before (scripts ▸ unknown) ?_ ?_ ?_
        · rw [queue, starts, asked]
        · rw [starts]
          exact old
        · rw [replies, starts]
          exact oldReplies
    | answered before reply unknown noQueue answer old greater =>
        refine .answered before reply (scripts ▸ unknown) ?_ ?_ ?_ ?_
        · rw [queue]
          exact noQueue
        · rw [replies, starts, answer]
        · rw [starts]
          exact old
        · rw [handedOut]
          exact greater
    | loaded next known greater oldQueue oldReplies =>
        refine .loaded next (scripts ▸ known) ?_ ?_ ?_
        · rw [handedOut]
          exact greater
        · rw [queue, starts]
          exact oldQueue
        · rw [replies, starts]
          exact oldReplies
  tags := by
    rw [queue, starts]
    exact inv.tags
  replyTags := by
    rw [replies, starts]
    exact inv.replyTags
  others := others
  flushed := flushed
  made := scripts ▸ inv.made

/-- Another server runs scripts that ask for nothing but writes of the default. -/
theorem IdInvariant.run_elsewhere {w : Cluster} (inv : IdInvariant w) {x : Server} (other : x ≠ .login)
    (m : LuaM LoginState Unit)
    (defaults : ∀ call ∈ (exec m (w.scripts x)).2.toRedis, ∀ n, globalSet call = some n →
      n = userGlobalIdDefault) : IdInvariant (w.run x m) := by
  have notLogin : Server.login ≠ x := Ne.symm other
  apply inv.elsewhere
  · exact Function.update_of_ne notLogin _ _
  · rfl
  · exact Function.update_of_ne notLogin _ _
  · rfl
  · rfl
  · have same : (w.run x m).queue .login = w.queue .login := Function.update_of_ne notLogin _ _
    rw [Cluster.written, Cluster.written, same]
    exact Int.le_refl _
  · intro y notLogin' e member n value
    by_cases here : y = x
    · subst here
      simp only [Cluster.run, Function.update_self] at member
      rcases List.mem_append.mp member with before | new
      · exact inv.others y notLogin' e before n value
      · obtain ⟨call, made, rfl⟩ := List.mem_map.mp new
        exact defaults call made n value
    · simp only [Cluster.run, Function.update_of_ne here] at member
      exact inv.others y notLogin' e member n value
  · intro y
    by_cases here : y = x
    · subst here
      simp [Cluster.run]
    · simp only [Cluster.run, Function.update_of_ne here]
      exact inv.flushed y

theorem IdInvariant.start_elsewhere {w : Cluster} (inv : IdInvariant w) {x : Server} (other : x ≠ .login) :
    IdInvariant (w.start cfg x) := by
  have notLogin : Server.login ≠ x := Ne.symm other
  have restarted : IdInvariant
      { w with
        scripts := Function.update w.scripts x (.ctor cfg)
        starts := Function.update w.starts x (w.starts x + 1) } := by
    apply inv.elsewhere
    · exact Function.update_of_ne notLogin _ _
    · exact Function.update_of_ne notLogin _ _
    · rfl
    · rfl
    · rfl
    · exact Int.le_refl _
    · exact inv.others
    · intro y
      by_cases here : y = x
      · subst here
        simp [LoginState.ctor]
      · simp only [Function.update_of_ne here]
        exact inv.flushed y
  apply restarted.run_elsewhere other
  intro call member n value
  simp only [Function.update_self, initUserGlobalId_ctor, List.mem_singleton] at member
  subst member
  exact absurd value (by simp [globalSet])

theorem IdInvariant.deliver_elsewhere {w : Cluster} (inv : IdInvariant w) {x : Server}
    (other : x ≠ .login) : IdInvariant (w.deliver x) := by
  have notLogin : Server.login ≠ x := Ne.symm other
  unfold Cluster.deliver
  cases replies : w.replies x with
  | nil => exact inv
  | cons r rest =>
      obtain ⟨n, reply⟩ := r
      have taken : IdInvariant { w with replies := Function.update w.replies x rest } := by
        apply inv.elsewhere
        · rfl
        · rfl
        · rfl
        · exact Function.update_of_ne notLogin _ _
        · rfl
        · exact Int.le_refl _
        · exact inv.others
        · exact inv.flushed
      simp only
      split
      · apply taken.run_elsewhere other
        intro call member m value
        rw [onResponse_eq, inv.flushed x] at member
        cases reply with
        | some _ => exact absurd member List.not_mem_nil
        | none =>
            rw [List.mem_singleton.mp member] at value
            exact (Option.some.inj value).symm
      · exact taken

/-- The default of another server is written where it does not put the id back. -/
theorem IdInvariant.execute_elsewhere {w : Cluster} (inv : IdInvariant w) {x : Server}
    (other : x ≠ .login) (notBehind : DefaultNotBehind w (.execute x)) : IdInvariant (w.execute x) := by
  have notLogin : Server.login ≠ x := Ne.symm other
  unfold Cluster.execute
  cases queue : w.queue x with
  | nil => exact inv
  | cons e rest =>
      obtain ⟨n, call⟩ := e
      simp only
      apply inv.elsewhere
      · rfl
      · rfl
      · exact Function.update_of_ne notLogin _ _
      · simp only
        split
        · exact Function.update_of_ne notLogin _ _
        · rfl
      · rfl
      · simp only [Cluster.written, Function.update_of_ne notLogin]
        cases last : lastSet (w.queue .login) with
        | some m => exact Int.le_refl _
        | none =>
            cases value : globalSet call with
            | none => exact Int.le_refl _
            | some d =>
                have isDefault : d = userGlobalIdDefault :=
                  inv.others x other ⟨n, call⟩ (queue ▸ List.mem_cons_self) d value
                have behind := notBehind other ⟨n, call⟩ (by simp [queue]) d value
                subst isDefault
                cases store : w.store with
                | none => exact Int.le_refl _
                | some m =>
                    have le := behind m store
                    simp only [Option.none_or, Option.some_or, globalIdOr]
                    split <;> simp_all [userGlobalIdDefault]
      · intro y notLogin' e member m value
        by_cases here : y = x
        · subst here
          simp only [Function.update_self] at member
          exact inv.others y notLogin' e (queue ▸ List.mem_cons_of_mem _ member) m value
        · simp only [Function.update_of_ne here] at member
          exact inv.others y notLogin' e member m value
      · exact inv.flushed

/-! ## Steps of the login server

One lemma for each kind of step, by the phase that the server is in.
-/

/-- A new process asks for the id behind all commands of the old one. -/
theorem IdInvariant.start_login {w : Cluster} (inv : IdInvariant w) : IdInvariant (w.start cfg .login) := by
  have scripts : ((w.start cfg .login).scripts .login) = { LoginState.ctor cfg with toRedis := [] } := by
    simp [Cluster.start, Cluster.run, initUserGlobalId_ctor]
  have queue : (w.start cfg .login).queue .login = w.queue .login ++
      [(w.starts .login + 1, .get .global 0 .getUserGlobalId "UserGlobalId")] := by
    simp [Cluster.start, Cluster.run, initUserGlobalId_ctor]
  have starts : (w.start cfg .login).starts .login = w.starts .login + 1 := by
    simp [Cluster.start, Cluster.run]
  have replies : (w.start cfg .login).replies .login = w.replies .login := rfl
  have sameWritten : (w.start cfg .login).written = w.written := by
    rw [Cluster.written, Cluster.written, queue, lastSet_append]
    rfl
  constructor
  · exact inv.nodup
  · rw [sameWritten]
    exact inv.written
  · apply Phase.asked (w.queue .login)
    · rw [scripts]
      rfl
    · rw [queue, starts]
    · intro e member
      rw [starts]
      exact Nat.lt_succ_of_le (inv.tags e member)
    · intro r member
      rw [starts]
      exact Nat.lt_succ_of_le (inv.replyTags r (replies ▸ member))
  · intro e member
    rw [queue] at member
    rw [starts]
    rcases List.mem_append.mp member with before | new
    · exact Nat.le_succ_of_le (inv.tags e before)
    · rw [List.mem_singleton.mp new]
  · intro r member
    rw [starts]
    exact Nat.le_succ_of_le (inv.replyTags r (replies ▸ member))
  · intro x other e member n value
    have same : (w.start cfg .login).queue x = w.queue x := by
      simp [Cluster.start, Cluster.run, Function.update_of_ne other]
    exact inv.others x other e (same ▸ member) n value
  · intro x
    by_cases here : x = .login
    · rw [here, scripts]
    · have same : (w.start cfg .login).scripts x = w.scripts x := by
        simp [Cluster.start, Cluster.run, Function.update_of_ne here]
      rw [same]
      exact inv.flushed x
  · rw [scripts]
    exact Nat.lt_succ_self _

/-- Executing a command of the login server changes nothing about what will be stored. -/
theorem IdInvariant.execute_login {w : Cluster} (inv : IdInvariant w) : IdInvariant (w.execute .login) := by
  cases queue : w.queue .login with
  | nil =>
      have same : w.execute .login = w := by rw [Cluster.execute, queue]
      rw [same]
      exact inv
  | cons e rest =>
      obtain ⟨n, call⟩ := e
      have rest' : (w.execute .login).queue .login = rest := by
        simp [Cluster.execute, queue]
      have replies : (w.execute .login).replies .login =
          if isGlobalGet call then w.replies .login ++ [(n, w.store)] else w.replies .login := by
        simp only [Cluster.execute, queue]
        split <;> simp
      have starts : (w.execute .login).starts = w.starts := by
        simp [Cluster.execute, queue]
      have scripts : (w.execute .login).scripts = w.scripts := by
        simp [Cluster.execute, queue]
      have handedOut : (w.execute .login).handedOut = w.handedOut := by
        simp [Cluster.execute, queue]
      have sameWritten : (w.execute .login).written = w.written := by
        rw [Cluster.written, Cluster.written, rest', queue, lastSet_cons, Option.or_assoc]
        simp [Cluster.execute, queue]
      have tag : n ≤ w.starts .login := inv.tags ⟨n, call⟩ (queue ▸ List.mem_cons_self)
      have restTags : ∀ e ∈ rest, e ∈ w.queue .login := fun e member => queue ▸ List.mem_cons_of_mem _ member
      constructor
      · rw [handedOut]
        exact inv.nodup
      · rw [sameWritten, handedOut]
        exact inv.written
      · cases inv.phase with
        | notStarted unknown noQueue noReplies =>
            rw [queue] at noQueue
            exact absurd noQueue (by simp)
        | asked before unknown asked old oldReplies =>
            cases before with
            | nil =>
                -- the question itself: nothing is on the way to be written behind it
                rw [queue, List.nil_append] at asked
                obtain ⟨question, noRest⟩ := List.cons.inj asked
                obtain ⟨rfl, rfl⟩ := Prod.mk.inj question
                subst noRest
                apply Phase.answered (w.replies .login) w.store
                · rw [scripts]
                  exact unknown
                · exact rest'
                · rw [replies, starts]
                  rfl
                · rw [starts]
                  exact oldReplies
                · rw [handedOut]
                  have written := inv.written
                  rw [Cluster.written, queue] at written
                  exact written
            | cons e before =>
                rw [queue, List.cons_append] at asked
                obtain ⟨head, tail⟩ := List.cons.inj asked
                apply Phase.asked before
                · rw [scripts]
                  exact unknown
                · rw [rest', starts]
                  exact tail
                · rw [starts]
                  exact fun e member => old e (List.mem_cons_of_mem _ member)
                · have oldTag := old e List.mem_cons_self
                  rw [← head] at oldTag
                  rw [replies, starts]
                  split
                  · intro r member
                    rcases List.mem_append.mp member with before | new
                    · exact oldReplies r before
                    · rw [List.mem_singleton.mp new]
                      exact oldTag
                  · exact oldReplies
        | answered before reply unknown noQueue =>
            rw [queue] at noQueue
            exact absurd noQueue (by simp)
        | loaded next known greater oldQueue oldReplies =>
            apply Phase.loaded next
            · rw [scripts]
              exact known
            · rw [handedOut]
              exact greater
            · rw [rest', starts]
              exact fun e member => oldQueue e (restTags e member)
            · rw [replies, starts]
              split
              · rename_i isGet
                intro r member
                rcases List.mem_append.mp member with before | new
                · exact oldReplies r before
                · rw [List.mem_singleton.mp new]
                  exact oldQueue ⟨n, call⟩ (queue ▸ List.mem_cons_self) isGet
              · exact oldReplies
      · rw [rest', starts]
        exact fun e member => inv.tags e (restTags e member)
      · rw [replies, starts]
        split
        · intro r member
          rcases List.mem_append.mp member with before | new
          · exact inv.replyTags r before
          · rw [List.mem_singleton.mp new]
            exact tag
        · exact inv.replyTags
      · intro x other e member m value
        have same : (w.execute .login).queue x = w.queue x := by
          simp [Cluster.execute, queue, Function.update_of_ne other]
        exact inv.others x other e (same ▸ member) m value
      · rw [scripts]
        exact inv.flushed
      · rw [scripts]
        exact inv.made

/-- The login server learns the next id; when the reply was empty, it asks for the default to be
written. -/
theorem IdInvariant.loads {w : Cluster} (inv : IdInvariant w) {reply : Option Int}
    (replies : w.replies .login = [(w.starts .login, reply)]) (noQueue : w.queue .login = [])
    (greater : ∀ id ∈ w.handedOut, id < globalIdOr reply) : IdInvariant (w.deliver .login) := by
  have delivered : w.deliver .login =
      Cluster.run { w with replies := Function.update w.replies .login [] } .login
        (onResponseGlobalConfigEvent reply) := by
    simp only [Cluster.deliver, replies]
    exact if_pos trivial
  have scripts : (w.deliver .login).scripts .login =
      { w.scripts .login with userGlobalId := some (globalIdOr reply), toRedis := [] } := by
    rw [delivered]
    simp [Cluster.run, onResponse_eq]
  have queue : (w.deliver .login).queue .login =
      if reply.isSome then []
      else [(w.starts .login, .set .global 0 .none "UserGlobalId" (.number (globalIdOr reply)))] := by
    rw [delivered]
    simp only [Cluster.run, onResponse_eq, inv.flushed, noQueue, Function.update_self, List.nil_append]
    split <;> rfl
  have noReplies : (w.deliver .login).replies .login = [] := by
    rw [delivered]
    simp [Cluster.run]
  have starts : (w.deliver .login).starts = w.starts := by
    rw [delivered]
    rfl
  have handedOut : (w.deliver .login).handedOut = w.handedOut := by
    rw [delivered]
    rfl
  have store : (w.deliver .login).store = w.store := by
    rw [delivered]
    rfl
  constructor
  · rw [handedOut]
    exact inv.nodup
  · rw [handedOut, Cluster.written, queue, store]
    have before := inv.written
    rw [Cluster.written, noQueue] at before
    cases reply with
    | some n => exact before
    | none => exact greater
  · apply Phase.loaded (globalIdOr reply)
    · rw [scripts]
    · rw [handedOut]
      exact greater
    · rw [queue]
      intro e member isGet
      cases reply with
      | some n => exact absurd member List.not_mem_nil
      | none =>
          rw [List.mem_singleton.mp member] at isGet
          exact absurd isGet (by simp [isGlobalGet])
    · rw [noReplies]
      exact fun _ member => absurd member List.not_mem_nil
  · rw [queue, starts]
    intro e member
    cases reply with
    | some n => exact absurd member List.not_mem_nil
    | none =>
        rw [List.mem_singleton.mp member]
  · rw [noReplies]
    exact fun _ member => absurd member List.not_mem_nil
  · intro x other e member n value
    have same : (w.deliver .login).queue x = w.queue x := by
      rw [delivered]
      simp [Cluster.run, Function.update_of_ne other]
    exact inv.others x other e (same ▸ member) n value
  · intro x
    by_cases here : x = .login
    · rw [here, scripts]
    · have same : (w.deliver .login).scripts x = w.scripts x := by
        rw [delivered]
        simp [Cluster.run, Function.update_of_ne here]
      rw [same]
      exact inv.flushed x
  · rw [scripts]
    exact inv.made

/-- The reply to the question of the running process tells it the next id. -/
theorem IdInvariant.deliver_login {w : Cluster} (inv : IdInvariant w) : IdInvariant (w.deliver .login) := by
  cases replies : w.replies .login with
  | nil =>
      have same : w.deliver .login = w := by rw [Cluster.deliver, replies]
      rw [same]
      exact inv
  | cons r rest =>
      obtain ⟨n, reply⟩ := r
      by_cases current : n = w.starts .login
      · subst current
        cases inv.phase with
        | notStarted unknown noQueue noReplies =>
            rw [replies] at noReplies
            exact absurd noReplies (by simp)
        | asked before unknown asked old oldReplies =>
            exact absurd (oldReplies _ (replies ▸ List.mem_cons_self)) (Nat.lt_irrefl _)
        | loaded next known greater oldQueue oldReplies =>
            exact absurd (oldReplies _ (replies ▸ List.mem_cons_self)) (Nat.lt_irrefl _)
        | answered before reply' unknown noQueue answer old greater =>
            have noneBefore : before = [] := by
              cases before with
              | nil => rfl
              | cons r' before =>
                  rw [replies, List.cons_append] at answer
                  have head := old r' List.mem_cons_self
                  rw [← (List.cons.inj answer).1] at head
                  exact absurd head (Nat.lt_irrefl _)
            subst noneBefore
            rw [replies, List.nil_append] at answer
            obtain ⟨same, noRest⟩ := List.cons.inj answer
            obtain ⟨-, rfl⟩ := Prod.mk.inj same
            subst noRest
            exact inv.loads replies noQueue greater
      · have old : n < w.starts .login :=
          Nat.lt_of_le_of_ne (inv.replyTags _ (replies ▸ List.mem_cons_self)) current
        have dropped : w.deliver .login = { w with replies := Function.update w.replies .login rest } := by
          simp only [Cluster.deliver, replies]
          exact if_neg current
        rw [dropped]
        have restReplies : ∀ r ∈ rest, r ∈ w.replies .login :=
          fun r member => replies ▸ List.mem_cons_of_mem _ member
        refine ⟨inv.nodup, inv.written, ?_, inv.tags, ?_, inv.others, inv.flushed, inv.made⟩
        · cases inv.phase with
          | notStarted unknown noQueue noReplies =>
              rw [replies] at noReplies
              exact absurd noReplies (by simp)
          | asked before unknown asked oldBefore oldReplies =>
              refine .asked before unknown asked oldBefore ?_
              simp only [Function.update_self]
              exact fun r member => oldReplies r (restReplies r member)
          | answered before reply' unknown noQueue answer oldBefore greater =>
              cases before with
              | nil =>
                  rw [replies, List.nil_append] at answer
                  exact absurd (Prod.mk.inj (List.cons.inj answer).1).1 current
              | cons r' before =>
                  rw [replies, List.cons_append] at answer
                  refine .answered before reply' unknown noQueue ?_ ?_ ?_
                  · simp only [Function.update_self]
                    exact (List.cons.inj answer).2
                  · exact fun r member => oldBefore r (List.mem_cons_of_mem _ member)
                  · exact greater
          | loaded next known greater oldQueue oldReplies =>
              refine .loaded next known greater oldQueue ?_
              simp only [Function.update_self]
              exact fun r member => oldReplies r (restReplies r member)
        · simp only [Function.update_self]
          exact fun r member => inv.replyTags r (restReplies r member)

/-- What the scripts do at a registration. -/
theorem scripts_registerUser (w : Cluster) (c : RegisterCall) :
    ((w.registerUser cfg c).scripts .login) =
      { registerOne cfg (w.scripts .login) c with toRedis := [] } := by
  simp only [Cluster.registerUser, Cluster.run, Function.update_self, exec_bind, registerOne]
  cases exec (register cfg c.nHandlerId [.string c.strDeviceId, .string c.strIp]) (w.scripts .login) with
  | mk result t => cases result <;> rfl

theorem queue_registerUser (w : Cluster) (c : RegisterCall) :
    (w.registerUser cfg c).queue .login = w.queue .login ++
      (registerOne cfg (w.scripts .login) c).toRedis.map fun call => (w.starts .login, call) := by
  simp only [Cluster.registerUser, Cluster.run, Function.update_self, exec_bind, registerOne]
  cases exec (register cfg c.nHandlerId [.string c.strDeviceId, .string c.strIp]) (w.scripts .login) with
  | mk result t => cases result <;> rfl

/-- A registration is a step of the login server. -/
theorem IdInvariant.registers {w : Cluster} (inv : IdInvariant w) (c : RegisterCall)
    (nodup : (w.registerUser cfg c).handedOut.Nodup)
    (written : ∀ id ∈ (w.registerUser cfg c).handedOut, id < globalIdOr (w.registerUser cfg c).written)
    (phase : Phase (w.registerUser cfg c))
    (made : friendInfoTemplate < (registerOne cfg (w.scripts .login) c).heap.next) :
    IdInvariant (w.registerUser cfg c) where
  nodup := nodup
  written := written
  phase := phase
  tags := by
    intro e member
    rw [queue_registerUser] at member
    rcases List.mem_append.mp member with before | new
    · exact inv.tags e before
    · obtain ⟨call, -, rfl⟩ := List.mem_map.mp new
      exact Nat.le_refl _
  replyTags := inv.replyTags
  others := by
    intro x other e member n value
    have same : (w.registerUser cfg c).queue x = w.queue x := by
      simp [Cluster.registerUser, Cluster.run, Function.update_of_ne other]
    exact inv.others x other e (same ▸ member) n value
  flushed := by
    intro x
    by_cases here : x = .login
    · rw [here, scripts_registerUser]
    · have same : (w.registerUser cfg c).scripts x = w.scripts x := by
        simp [Cluster.registerUser, Cluster.run, Function.update_of_ne here]
      rw [same]
      exact inv.flushed x
  made := by
    rw [scripts_registerUser]
    exact made

/-- While the id is not known, a registration gives out nothing. -/
theorem IdInvariant.registers_unknown {w : Cluster} (inv : IdInvariant w) (c : RegisterCall)
    (unknown : (w.scripts .login).userGlobalId = none) : IdInvariant (w.registerUser cfg c) := by
  have spec := register_unknown cfg unknown c.nHandlerId c.strDeviceId c.strIp
  have ends : (registerOne cfg (w.scripts .login) c).userGlobalId = none ∧
      (registerOne cfg (w.scripts .login) c).toRedis = (w.scripts .login).toRedis ∧
      (w.scripts .login).heap.next ≤ (registerOne cfg (w.scripts .login) c).heap.next :=
    wp_same.mp (wp_mono spec (fun _ _ never => never.elim) fun _ raised => raised)
  obtain ⟨stillUnknown, noRequests, next⟩ := ends
  have queue : (w.registerUser cfg c).queue .login = w.queue .login := by
    rw [queue_registerUser, noRequests, inv.flushed, List.map_nil, List.append_nil]
  have handedOut : (w.registerUser cfg c).handedOut = w.handedOut := by
    simp [Cluster.registerUser, Cluster.run, unknown]
  have sameWritten : (w.registerUser cfg c).written = w.written := by
    rw [Cluster.written, queue]
    rfl
  have scripts : ((w.registerUser cfg c).scripts .login).userGlobalId = none := by
    rw [scripts_registerUser]
    exact stillUnknown
  apply inv.registers cfg c
  · rw [handedOut]
    exact inv.nodup
  · rw [handedOut, sameWritten]
    exact inv.written
  · cases inv.phase with
    | notStarted _ noQueue noReplies => exact .notStarted scripts (queue.trans noQueue) noReplies
    | asked before _ asked old oldReplies => exact .asked before scripts (queue.trans asked) old oldReplies
    | answered before reply _ noQueue answer old greater =>
        refine .answered before reply scripts (queue.trans noQueue) answer old ?_
        rw [handedOut]
        exact greater
    | loaded next known => exact absurd (unknown.symm.trans known) (by simp)
  · exact Nat.lt_of_lt_of_le inv.made next

/-- A registration takes the id that is next, and asks for the one behind it to be written. -/
theorem IdInvariant.registers_known {w : Cluster} (inv : IdInvariant w) (c : RegisterCall) {n : Int}
    (known : (w.scripts .login).userGlobalId = some n) (greater : ∀ id ∈ w.handedOut, id < n)
    (oldQueue : ∀ e ∈ w.queue .login, isGlobalGet e.2 = true → e.1 < w.starts .login)
    (oldReplies : ∀ r ∈ w.replies .login, r.1 < w.starts .login) : IdInvariant (w.registerUser cfg c) := by
  have spec := registerOne_spec cfg known inv.made c
  have requests := spec.requests
  rw [inv.flushed, List.nil_append] at requests
  have handedOut : (w.registerUser cfg c).handedOut = w.handedOut ++ [n] := by
    simp [Cluster.registerUser, Cluster.run, known]
  have nextGreater : ∀ id ∈ w.handedOut ++ [n], id < nextGlobalId n := by
    intro id member
    rcases List.mem_append.mp member with before | new
    · exact Int.lt_trans (greater id before) (lt_nextGlobalId n)
    · rw [List.mem_singleton.mp new]
      exact lt_nextGlobalId n
  apply inv.registers cfg c
  · rw [handedOut, List.nodup_append]
    refine ⟨inv.nodup, List.nodup_singleton n, fun id member id' new => ?_⟩
    rw [List.mem_singleton.mp new]
    exact Int.ne_of_lt (greater id member)
  · have written : (w.registerUser cfg c).written = some (nextGlobalId n) := by
      rw [Cluster.written, queue_registerUser, requests, lastSet_append]
      rfl
    rw [handedOut, written, globalIdOr_nextGlobalId]
    exact nextGreater
  · apply Phase.loaded (nextGlobalId n)
    · rw [scripts_registerUser]
      exact spec.globalId
    · rw [handedOut]
      exact nextGreater
    · intro e member isGet
      rw [queue_registerUser, requests] at member
      rcases List.mem_append.mp member with before | new
      · exact oldQueue e before isGet
      · -- a registration asks for writes only
        obtain ⟨call, made, rfl⟩ := List.mem_map.mp new
        exfalso
        revert isGet
        simp only [List.mem_cons, List.not_mem_nil, or_false] at made
        rcases made with rfl | rfl | rfl | rfl <;> simp [isGlobalGet]
    · exact oldReplies
  · rw [spec.next]
    exact Nat.lt_succ_of_lt inv.made

theorem IdInvariant.registerUser {w : Cluster} (inv : IdInvariant w) (c : RegisterCall) :
    IdInvariant (w.registerUser cfg c) := by
  cases inv.phase with
  | notStarted unknown => exact inv.registers_unknown cfg c unknown
  | asked _ unknown => exact inv.registers_unknown cfg c unknown
  | answered _ _ unknown => exact inv.registers_unknown cfg c unknown
  | loaded _ known greater oldQueue oldReplies =>
      exact inv.registers_known cfg c known greater oldQueue oldReplies

/-! ## Runs

A run in which the default is never behind gives no id twice; the example after it is a run in which it is.
-/

/-- All kinds of steps together. -/
theorem IdInvariant.step {w : Cluster} (inv : IdInvariant w) (a : ClusterAction)
    (notBehind : DefaultNotBehind w a) : IdInvariant (clusterStep cfg w a) := by
  cases a with
  | start x =>
      by_cases login : x = .login
      · subst login
        exact inv.start_login cfg
      · exact inv.start_elsewhere cfg login
  | execute x =>
      by_cases login : x = .login
      · subst login
        exact inv.execute_login
      · exact inv.execute_elsewhere login notBehind
  | deliver x =>
      by_cases login : x = .login
      · subst login
        exact inv.deliver_login
      · exact inv.deliver_elsewhere login
  | register c => exact inv.registerUser cfg c

/-- When no default is written over a greater id, no id is handed out twice, whatever the order of the
commands and however often the servers are started. -/
theorem ids_never_twice (store : Option Int) (actions : List ClusterAction)
    (notBehind : Guarded (always (clusterStep cfg)) DefaultNotBehind (.init cfg store) actions) :
    (actions.foldl (clusterStep cfg) (.init cfg store)).handedOut.Nodup := by
  have inv : IdInvariant (actions.foldl (clusterStep cfg) (.init cfg store)) := by
    apply guarded_invariant _ (idInvariant_init cfg store) notBehind (runSteps_always _ _ _)
    intro w a w' before guard step
    cases step
    exact before.step cfg a guard
  exact inv.nodup

/-- The first start of the three servers with an empty database, a registration, a second start of the
login server and another registration. -/
theorem ids_never_twice_twoStarts :
    ([.start .login, .execute .login, .deliver .login, .execute .login, .start .logic, .execute .logic,
      .deliver .logic, .register ⟨7, "A", "10.0.0.1"⟩, .execute .login, .start .login, .execute .login,
      .execute .login, .execute .login, .execute .login, .deliver .login, .register ⟨8, "B", "10.0.0.2"⟩] :
      List ClusterAction).foldl (clusterStep guestConfig) (.init guestConfig none) |>.handedOut.Nodup := by
  apply ids_never_twice
  decide

/-- Login and logic server find an empty database; the default of the logic server is executed after the
first user was registered, and the login server is started again. -/
def delayedDefault : List ClusterAction :=
  [.start .login, .start .logic, .execute .login, .execute .logic, .deliver .login, .deliver .logic,
    .execute .login, .register ⟨7, "A", "10.0.0.1"⟩, .execute .login, .execute .login, .execute .login,
    .execute .login, .execute .logic, .start .login, .execute .login, .deliver .login,
    .register ⟨8, "B", "10.0.0.2"⟩]

/-- Both users get the id 100001. -/
theorem id_twice_after_delayedDefault :
    ¬ (delayedDefault.foldl (clusterStep guestConfig) (.init guestConfig none)).handedOut.Nodup := by
  have ids : (delayedDefault.foldl (clusterStep guestConfig) (.init guestConfig none)).handedOut =
      [100001, 100001] := by
    decide +kernel
  rw [ids]
  decide

end GameServer.Login
