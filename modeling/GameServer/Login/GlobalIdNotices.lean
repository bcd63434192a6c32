/-
Module: GameServer.Login.GlobalIdNotices
Purpose: The logic server's copy of the global user id: it is loaded once, and the login server sends the next id
  with every registration.
Trusted boundary: notices and commands arrive in their order; the login server has loaded the id
Main exports: onUpdateUserGlobalId, IdServers, idStep, IdsConverge, LoadedFirst, idsConverge_iff
-/
import GameServer.Login.GlobalId

namespace GameServer.Login

open Lib Lib.LuaM Script

/-! ## The servers

The login server gives out ids and sends a notice for each; the logic server asks the database once and then follows
the notices.
-/

/-- `OnUpdateUserGlobalId`; comparing with nil raises. -/
def onUpdateUserGlobalId (nUserGlobalId : LuaValue) : LuaM LoginState Unit := do
  match nUserGlobalId with
  | .number n => do
      let s ← get
      match s.userGlobalId with
      | none => raise
      | some nCurrent =>
          if n < nCurrent then
            pure ()
          else
            setUserGlobalId (some n) true
  | _ => pure ()

/-- The scripts of both servers, their commands on the way to Redis, the responses to the logic server, the
notices on their way to it, and what is stored under `UserGlobalId`.  `raised` tells whether a handler has raised;
no function reads it. -/
structure IdServers where
  login : LoginState
  logic : LoginState
  loginCommands : List RedisCall
  logicCommands : List RedisCall
  responses : List (Option Int)
  notices : List Int
  store : Option Int
  raised : Bool

/-- Did the function raise? -/
def isError {α : Type} : Except Unit α → Bool
  | .ok _ => false
  | .error _ => true

namespace IdServers

/-- The login server runs a function of its scripts. -/
def runLogin {α : Type} (w : IdServers) (m : LuaM LoginState α) : IdServers :=
  let (result, s) := exec m w.login
  { w with
    login := { s with toRedis := [], toLogic := [] }
    loginCommands := w.loginCommands ++ s.toRedis
    notices := w.notices ++ s.toLogic
    raised := w.raised || isError result }

/-- The logic server runs a function of its scripts. -/
def runLogic {α : Type} (w : IdServers) (m : LuaM LoginState α) : IdServers :=
  let (result, s) := exec m w.logic
  { w with
    logic := { s with toRedis := [] }
    logicCommands := w.logicCommands ++ s.toRedis
    raised := w.raised || isError result }

variable (cfg : LoginConfig)

/-- Both servers have loaded their scripts, and nothing was asked. -/
def ctor (store : Option Int) : IdServers where
  login := .ctor cfg
  logic := .ctor cfg
  loginCommands := []
  logicCommands := []
  responses := []
  notices := []
  store := store
  raised := false

/-- The login server has the response to its question, and the logic server has asked. -/
def init (store : Option Int) : IdServers :=
  ((ctor cfg store).runLogin (onResponseGlobalConfigEvent store)).runLogic initUserGlobalId

/-- Redis executes the next command of the login server, none of which reads the id. -/
def executeLogin (w : IdServers) : IdServers :=
  match w.loginCommands with
  | [] => w
  | call :: rest => { w with loginCommands := rest, store := (globalSet call).or w.store }

/-- Redis executes the next command of the logic server. -/
def executeLogic (w : IdServers) : IdServers :=
  match w.logicCommands with
  | [] => w
  | call :: rest =>
      { w with
        logicCommands := rest
        responses := if isGlobalGet call then w.responses ++ [w.store] else w.responses
        store := (globalSet call).or w.store }

/-- The next response reaches the logic server. -/
def deliverResponse (w : IdServers) : IdServers :=
  match w.responses with
  | [] => w
  | response :: rest => { w with responses := rest }.runLogic (onResponseGlobalConfigEvent response)

/-- The next notice reaches the logic server. -/
def deliverNotice (w : IdServers) : IdServers :=
  match w.notices with
  | [] => w
  | nUserGlobalId :: rest => { w with notices := rest }.runLogic (onUpdateUserGlobalId (.number nUserGlobalId))

end IdServers

inductive IdAction where
  | register (c : RegisterCall)
  | executeLogin
  | executeLogic
  | deliverResponse
  | deliverNotice

def idStep (cfg : LoginConfig) (w : IdServers) : IdAction → IdServers
  | .register c => w.runLogin (register cfg c.nHandlerId [.string c.strDeviceId, .string c.strIp])
  | .executeLogin => w.executeLogin
  | .executeLogic => w.executeLogic
  | .deliverResponse => w.deliverResponse
  | .deliverNotice => w.deliverNotice

/-! ## The property and its condition

When all was delivered, both servers have the same id.
-/

/-- Everything that was sent has been delivered, and the logic server's question answered. -/
def AllDelivered (w : IdServers) : Prop :=
  w.notices = [] ∧ w.responses = [] ∧ ∀ call ∈ w.logicCommands, isGlobalGet call = false

/-- No handler raises, the logic server's id never decreases, and it is the login server's when everything has
been delivered. -/
structure IdsConverge (cfg : LoginConfig) (store : Option Int) (actions : List IdAction) : Prop where
  noneRaised : ∀ pre, pre <+: actions → (pre.foldl (idStep cfg) (.init cfg store)).raised = false
  monotone : ∀ pre a, pre ++ [a] <+: actions →
    ∀ n ∈ (pre.foldl (idStep cfg) (.init cfg store)).logic.userGlobalId,
      ∃ m ∈ ((pre ++ [a]).foldl (idStep cfg) (.init cfg store)).logic.userGlobalId, n ≤ m
  converged : ∀ pre, pre <+: actions → AllDelivered (pre.foldl (idStep cfg) (.init cfg store)) →
    (pre.foldl (idStep cfg) (.init cfg store)).logic.userGlobalId =
      (pre.foldl (idStep cfg) (.init cfg store)).login.userGlobalId

/-- A notice is delivered when the id is loaded. -/
def LoadedFirst (w : IdServers) : IdAction → Prop
  | .deliverNotice => w.notices ≠ [] → w.logic.userGlobalId.isSome
  | _ => True

/-! ## Taking in notices

What a list of notices makes of the id, as a function on numbers.
-/

/-- The id after a notice. -/
def afterNotice (nCurrent n : Int) : Int := if n < nCurrent then nCurrent else globalIdOr (some n)

/-- The id after notices. -/
def afterNotices (nCurrent : Int) (notices : List Int) : Int := notices.foldl afterNotice nCurrent

theorem le_globalIdOr (n : Int) : n ≤ globalIdOr (some n) := by
  unfold globalIdOr userGlobalIdDefault
  dsimp only
  split <;> omega

/-- A notice never lowers the id. -/
theorem le_afterNotice (nCurrent n : Int) : nCurrent ≤ afterNotice nCurrent n := by
  unfold afterNotice
  split
  · exact Int.le_refl nCurrent
  · next notLess => exact Int.le_trans (Int.not_lt.mp notLess) (le_globalIdOr n)

/-- The notice of a registration brings the next id. -/
theorem afterNotice_next (n : Int) : afterNotice n (n + 1) = nextGlobalId n := by
  unfold afterNotice nextGlobalId
  rw [if_neg (by omega)]

/-- Notices that are not greater change nothing. -/
theorem afterNotices_of_le {nCurrent : Int} (nonzero : nCurrent ≠ 0) {notices : List Int}
    (old : ∀ n ∈ notices, n ≤ nCurrent) : afterNotices nCurrent notices = nCurrent := by
  induction notices with
  | nil => rfl
  | cons n notices ih =>
      have same : afterNotice nCurrent n = nCurrent := by
        unfold afterNotice
        split
        · rfl
        · next notLess =>
          have equal : n = nCurrent := Int.le_antisymm (old n List.mem_cons_self) (Int.not_lt.mp notLess)
          rw [equal, globalIdOr, if_neg nonzero]
      change afterNotices (afterNotice nCurrent n) notices = nCurrent
      rw [same]
      exact ih fun m member => old m (List.mem_cons_of_mem n member)

/-- The last notice is taken in last. -/
theorem afterNotices_append (nCurrent : Int) (notices : List Int) (n : Int) :
    afterNotices nCurrent (notices ++ [n]) = afterNotice (afterNotices nCurrent notices) n := by
  simp [afterNotices]

theorem globalIdOr_ne_zero (reply : Option Int) : globalIdOr reply ≠ 0 := by
  unfold globalIdOr userGlobalIdDefault
  split
  · split <;> omega
  · omega

theorem nextGlobalId_ne_zero (n : Int) : nextGlobalId n ≠ 0 := globalIdOr_ne_zero _

theorem globalIdOr_globalIdOr (reply : Option Int) : globalIdOr (some (globalIdOr reply)) = globalIdOr reply := by
  rw [globalIdOr, if_neg (globalIdOr_ne_zero reply)]

/-! ## The invariant

The id that the logic server will have, when it has taken in the notices on their way, is that of the login server.
-/

/-- What the logic server waits for.  Whatever it may read, or has, is made the login server's id by the notices
on their way. -/
inductive LogicPhase (w : IdServers) (nLogin : Int) : Prop where
  | asking (unknown : w.logic.userGlobalId = none)
      (commands : w.logicCommands = [.get .global 0 .getUserGlobalId "UserGlobalId"]) (responses : w.responses = [])
      (stored : afterNotices (globalIdOr w.store) w.notices = nLogin)
      (queued : ∀ call ∈ w.loginCommands, ∀ n, globalSet call = some n →
        afterNotices (globalIdOr (some n)) w.notices = nLogin)
  | answered (response : Option Int) (unknown : w.logic.userGlobalId = none) (commands : w.logicCommands = [])
      (responses : w.responses = [response])
      (read : afterNotices (globalIdOr response) w.notices = nLogin)
  | loaded (nCurrent : Int) (known : w.logic.userGlobalId = some nCurrent)
      (commands : ∀ call ∈ w.logicCommands, isGlobalGet call = false) (responses : w.responses = [])
      (current : afterNotices nCurrent w.notices = nLogin)

/-- The login server's id is not less than any notice on its way. -/
structure IdsKept (w : IdServers) (nLogin : Int) : Prop where
  login : w.login.userGlobalId = some nLogin
  nonzero : nLogin ≠ 0
  made : friendInfoTemplate < w.login.heap.next
  flushed : w.login.toRedis = [] ∧ w.login.toLogic = [] ∧ w.logic.toRedis = []
  notices : ∀ n ∈ w.notices, n ≤ nLogin
  phase : LogicPhase w nLogin
  fine : w.raised = false

section Steps

variable {cfg : LoginConfig} {w : IdServers} {nLogin : Int}

theorem idsKept_init (store : Option Int) : IdsKept (.init cfg store) (globalIdOr store) := by
  have login : (exec (onResponseGlobalConfigEvent store) (LoginState.ctor cfg)) = (.ok (), { LoginState.ctor cfg with
      userGlobalId := some (globalIdOr store)
      toRedis := if store.isSome then [] else [.set .global 0 .none "UserGlobalId" (.number (globalIdOr store))] }) := by
    cases store with
    | none => rfl
    | some n => rfl
  have init : IdServers.init cfg store =
      { login := { LoginState.ctor cfg with userGlobalId := some (globalIdOr store) }
        logic := .ctor cfg
        loginCommands :=
          if store.isSome then [] else [.set .global 0 .none "UserGlobalId" (.number (globalIdOr store))]
        logicCommands := [.get .global 0 .getUserGlobalId "UserGlobalId"]
        responses := []
        notices := []
        store := store
        raised := false } := by
    unfold IdServers.init IdServers.runLogin
    dsimp only [IdServers.ctor]
    rw [login]
    rfl
  rw [init]
  constructor
  · rfl
  · exact globalIdOr_ne_zero store
  · exact Nat.lt_succ_self _
  · exact ⟨rfl, rfl, rfl⟩
  · intro n member
    exact absurd member List.not_mem_nil
  · refine .asking rfl rfl rfl rfl ?_
    intro call member n value
    cases store with
    | none =>
        cases List.mem_singleton.mp member
        cases value
        exact globalIdOr_globalIdOr none
    | some m => exact absurd member List.not_mem_nil
  · rfl

/-- Whatever the notices make the login server's id, they and the next notice make its next id. -/
theorem afterNotices_register {nCurrent : Int} {notices : List Int} (current : afterNotices nCurrent notices = nLogin) :
    afterNotices nCurrent (notices ++ [nLogin + 1]) = nextGlobalId nLogin := by
  rw [afterNotices_append, current, afterNotice_next]

theorem IdsKept.register (kept : IdsKept w nLogin) (c : RegisterCall) :
    IdsKept (idStep cfg w (.register c)) (nextGlobalId nLogin) := by
  obtain ⟨code, t, done, _, spec, _, _, notice⟩ :=
    exec_eq_of_wp (register_returns cfg kept.login kept.made c.nHandlerId c.strDeviceId c.strIp)
  obtain ⟨noCommands, noNotices, logicFlushed⟩ := kept.flushed
  have requests := spec.requests
  rw [noCommands, List.nil_append] at requests
  rw [noNotices, List.nil_append] at notice
  have step : idStep cfg w (.register c) =
      { w with
        login := { t with toRedis := [], toLogic := [] }
        loginCommands := w.loginCommands ++ t.toRedis
        notices := w.notices ++ [nLogin + 1]
        raised := w.raised || false } := by
    simp only [idStep, IdServers.runLogin]
    rw [done, notice]
    rfl
  have old : ∀ n ∈ w.notices ++ [nLogin + 1], n ≤ nextGlobalId nLogin := by
    intro n member
    rcases List.mem_append.mp member with before | new
    · exact Int.le_trans (kept.notices n before) (Int.le_of_lt (lt_nextGlobalId nLogin))
    · rw [List.mem_singleton.mp new]
      exact le_globalIdOr (nLogin + 1)
  rw [step]
  constructor
  · exact spec.globalId
  · exact nextGlobalId_ne_zero nLogin
  · change friendInfoTemplate < t.heap.next
    rw [spec.next]
    exact Nat.lt_succ_of_lt kept.made
  · exact ⟨rfl, rfl, logicFlushed⟩
  · exact old
  · cases kept.phase with
    | asking unknown commands responses stored queued =>
        refine .asking unknown commands responses (afterNotices_register stored) ?_
        intro call member n value
        rcases List.mem_append.mp member with before | new
        · exact afterNotices_register (queued call before n value)
        · have next : n = nextGlobalId nLogin := by
            rw [requests] at new
            simp only [List.mem_cons, List.not_mem_nil, or_false] at new
            rcases new with rfl | rfl | rfl | rfl
            · exact (Option.some.inj value).symm
            all_goals exact absurd value (by simp [globalSet])
          rw [next, nextGlobalId, globalIdOr_globalIdOr]
          exact afterNotices_of_le (nextGlobalId_ne_zero nLogin) old
    | answered response unknown commands responses read =>
        exact .answered response unknown commands responses (afterNotices_register read)
    | loaded nCurrent known commands responses current =>
        exact .loaded nCurrent known commands responses (afterNotices_register current)
  · change (w.raised || false) = false
    rw [kept.fine]
    rfl

/-- A write of the login server changes what the logic server may read to something it may read later anyway. -/
theorem IdsKept.executeLogin (kept : IdsKept w nLogin) : IdsKept w.executeLogin nLogin := by
  unfold IdServers.executeLogin
  cases commands : w.loginCommands with
  | nil => exact kept
  | cons call rest =>
      refine ⟨kept.login, kept.nonzero, kept.made, kept.flushed, kept.notices, ?_, kept.fine⟩
      cases kept.phase with
      | asking unknown asked responses stored queued =>
          rw [commands] at queued
          refine .asking unknown asked responses ?_ ?_
          · change afterNotices (globalIdOr ((globalSet call).or w.store)) w.notices = nLogin
            cases value : globalSet call with
            | none => exact stored
            | some n => exact queued call List.mem_cons_self n value
          · exact fun later member => queued later (List.mem_cons_of_mem call member)
      | answered response unknown noCommands responses read =>
          exact .answered response unknown noCommands responses read
      | loaded nCurrent known others responses current => exact .loaded nCurrent known others responses current

/-- The logic server's question is answered with what is stored. -/
theorem IdsKept.executeLogic (kept : IdsKept w nLogin) : IdsKept w.executeLogic nLogin := by
  unfold IdServers.executeLogic
  cases commands : w.logicCommands with
  | nil => exact kept
  | cons call rest =>
      refine ⟨kept.login, kept.nonzero, kept.made, kept.flushed, kept.notices, ?_, kept.fine⟩
      cases kept.phase with
      | asking unknown asked responses stored queued =>
          rw [commands] at asked
          cases asked
          refine .answered w.store unknown rfl ?_ stored
          simp [isGlobalGet, responses]
      | answered response unknown noCommands responses read =>
          exact absurd (commands.symm.trans noCommands) (by simp)
      | loaded nCurrent known others responses current =>
          rw [commands] at others
          refine .loaded nCurrent known ?_ ?_ ?_
          · exact fun later member => others later (List.mem_cons_of_mem call member)
          · change (if isGlobalGet call then w.responses ++ [w.store] else w.responses) = []
            rw [others call List.mem_cons_self]
            exact responses
          · exact current

theorem IdsKept.deliverResponse (kept : IdsKept w nLogin) : IdsKept w.deliverResponse nLogin := by
  unfold IdServers.deliverResponse
  cases queue : w.responses with
  | nil => exact kept
  | cons response rest =>
      cases kept.phase with
      | asking unknown asked responses stored queued => exact absurd (queue.symm.trans responses) (by simp)
      | answered answer unknown noCommands responses read =>
          rw [queue] at responses
          cases responses
          have done : exec (onResponseGlobalConfigEvent response) w.logic = (.ok (), { w.logic with
              userGlobalId := some (globalIdOr response)
              toRedis := w.logic.toRedis ++ if response.isSome then []
                else [.set .global 0 .none "UserGlobalId" (.number (globalIdOr response))] }) := by
            cases response with
            | none => rfl
            | some n =>
                change (_, { w.logic with userGlobalId := some (globalIdOr (some n)) }) = _
                simp
          simp only [IdServers.runLogic]
          rw [done]
          refine ⟨kept.login, kept.nonzero, kept.made, ⟨kept.flushed.1, kept.flushed.2.1, rfl⟩, kept.notices, ?_, ?_⟩
          · refine .loaded (globalIdOr response) rfl ?_ rfl read
            intro call member
            change call ∈ w.logicCommands ++ (w.logic.toRedis ++ _) at member
            rw [noCommands, kept.flushed.2.2, List.nil_append, List.nil_append] at member
            split at member
            · exact absurd member List.not_mem_nil
            · rw [List.mem_singleton.mp member]
              rfl
          · change (w.raised || false) = false
            rw [kept.fine]
            rfl
      | loaded nCurrent known others responses current => exact absurd (queue.symm.trans responses) (by simp)

/-- A notice that finds the id loaded. -/
theorem exec_onUpdateUserGlobalId {s : LoginState} {nCurrent : Int} (known : s.userGlobalId = some nCurrent) (n : Int) :
    exec (onUpdateUserGlobalId (.number n)) s =
      (.ok (), { s with userGlobalId := some (afterNotice nCurrent n) }) := by
  simp only [onUpdateUserGlobalId, exec_bind, exec_get, known]
  unfold afterNotice
  split
  · rw [← known]
    rfl
  · rfl

/-- A notice that comes before the id raises. -/
theorem exec_onUpdateUserGlobalId_unknown {s : LoginState} (unknown : s.userGlobalId = none) (n : Int) :
    exec (onUpdateUserGlobalId (.number n)) s = (.error (), s) := by
  simp only [onUpdateUserGlobalId, exec_bind, exec_get, unknown]
  rfl

theorem IdsKept.deliverNotice (kept : IdsKept w nLogin) (guard : LoadedFirst w .deliverNotice) :
    IdsKept w.deliverNotice nLogin := by
  unfold IdServers.deliverNotice
  cases queue : w.notices with
  | nil => exact kept
  | cons n rest =>
      have isLoaded := guard (by simp [queue])
      cases kept.phase with
      | asking unknown asked responses stored queued => exact absurd isLoaded (by simp [unknown])
      | answered answer unknown noCommands responses read => exact absurd isLoaded (by simp [unknown])
      | loaded nCurrent known others responses current =>
          simp only [IdServers.runLogic]
          rw [exec_onUpdateUserGlobalId known]
          rw [queue] at current
          refine ⟨kept.login, kept.nonzero, kept.made, ⟨kept.flushed.1, kept.flushed.2.1, rfl⟩, ?_, ?_, ?_⟩
          · intro m member
            apply kept.notices m
            rw [queue]
            exact List.mem_cons_of_mem n member
          · refine .loaded (afterNotice nCurrent n) rfl ?_ responses current
            intro call member
            change call ∈ w.logicCommands ++ w.logic.toRedis at member
            rw [kept.flushed.2.2, List.append_nil] at member
            exact others call member
          · change (w.raised || false) = false
            rw [kept.fine]
            rfl

/-- Without the id the handler raises. -/
theorem raised_of_not_loaded (notLoaded : ¬ LoadedFirst w .deliverNotice) : w.deliverNotice.raised = true := by
  unfold LoadedFirst at notLoaded
  push Not at notLoaded
  obtain ⟨waiting, unknown⟩ := notLoaded
  unfold IdServers.deliverNotice
  cases queue : w.notices with
  | nil => exact absurd queue waiting
  | cons n rest =>
      have isNone : w.logic.userGlobalId = none := by simpa using unknown
      simp only [IdServers.runLogic]
      rw [exec_onUpdateUserGlobalId_unknown isNone]
      exact Bool.or_true w.raised

/-- Handlers of the login server do not concern the logic server's id, and its own let it grow. -/
theorem idStep_monotone (kept : IdsKept w nLogin) (a : IdAction) :
    ∀ n ∈ w.logic.userGlobalId, ∃ m ∈ (idStep cfg w a).logic.userGlobalId, n ≤ m := by
  intro n known
  cases a with
  | register c => exact ⟨n, known, Int.le_refl n⟩
  | executeLogin =>
      refine ⟨n, ?_, Int.le_refl n⟩
      simp only [idStep, IdServers.executeLogin]
      split
      · exact known
      · exact known
  | executeLogic =>
      refine ⟨n, ?_, Int.le_refl n⟩
      simp only [idStep, IdServers.executeLogic]
      split
      · exact known
      · exact known
  | deliverResponse =>
      have nothing : w.responses = [] := by
        cases kept.phase with
        | asking unknown _ _ _ _ => exact absurd (unknown.symm.trans known) (by simp)
        | answered _ unknown _ _ _ => exact absurd (unknown.symm.trans known) (by simp)
        | loaded _ _ _ responses _ => exact responses
      refine ⟨n, ?_, Int.le_refl n⟩
      simp only [idStep, IdServers.deliverResponse]
      rw [nothing]
      exact known
  | deliverNotice =>
      simp only [idStep, IdServers.deliverNotice]
      split
      · exact ⟨n, known, Int.le_refl n⟩
      · next notice rest _ =>
        simp only [IdServers.runLogic]
        rw [exec_onUpdateUserGlobalId known]
        exact ⟨afterNotice n notice, rfl, le_afterNotice n notice⟩

/-- Each step that meets the condition keeps the invariant, with a new id where a device was registered. -/
theorem idStep_kept (kept : IdsKept w nLogin) {a : IdAction} (guard : LoadedFirst w a) :
    ∃ nLogin', IdsKept (idStep cfg w a) nLogin' := by
  cases a with
  | register c => exact ⟨_, kept.register c⟩
  | executeLogin => exact ⟨nLogin, kept.executeLogin⟩
  | executeLogic => exact ⟨nLogin, kept.executeLogic⟩
  | deliverResponse => exact ⟨nLogin, kept.deliverResponse⟩
  | deliverNotice => exact ⟨nLogin, kept.deliverNotice guard⟩

/-- With nothing on its way the two ids are one. -/
theorem IdsKept.converged (kept : IdsKept w nLogin) (delivered : AllDelivered w) :
    w.logic.userGlobalId = w.login.userGlobalId := by
  obtain ⟨noNotices, noResponses, noQuestion⟩ := delivered
  cases kept.phase with
  | asking unknown commands _ _ _ =>
      have question := noQuestion (.get .global 0 .getUserGlobalId "UserGlobalId") (by rw [commands]; simp)
      exact absurd question (by simp [isGlobalGet])
  | answered response _ _ responses _ => exact absurd (responses.symm.trans noResponses) (by simp)
  | loaded nCurrent known _ _ current =>
      rw [noNotices] at current
      rw [known, kept.login]
      exact congrArg some current

end Steps

/-! ## Runs

The condition is necessary, too: a notice that comes before the id raises.
-/

section Runs

variable (cfg : LoginConfig) (store : Option Int)

/-- **The highest id.** A run is as it should be exactly when every notice finds the logic server's id loaded. -/
theorem idsConverge_iff (actions : List IdAction) :
    IdsConverge cfg store actions ↔ Guarded (always (idStep cfg)) LoadedFirst (.init cfg store) actions := by
  let Inv : IdServers → Prop := fun w => ∃ nLogin, IdsKept w nLogin
  have start : Inv (.init cfg store) := ⟨globalIdOr store, idsKept_init store⟩
  have keep : ∀ w a, Inv w → LoadedFirst w a → Inv (idStep cfg w a) := by
    rintro w a ⟨nLogin, kept⟩ guard
    exact idStep_kept kept guard
  constructor
  · intro converge
    apply guarded_of_forall_prefix (P := fun w => w.raised = false) keep _ start converge.noneRaised
    intro w a _ fine
    by_contra notLoaded
    cases a with
    | deliverNotice =>
        have raised := raised_of_not_loaded notLoaded
        change w.deliverNotice.raised = false at fine
        exact absurd (raised.symm.trans fine) (by simp)
    | _ => exact notLoaded trivial
  · intro guarded
    have reached : ∀ pre, pre <+: actions → Inv (pre.foldl (idStep cfg) (.init cfg store)) := by
      rintro pre ⟨rest, rfl⟩
      have run := runSteps_always (idStep cfg) (.init cfg store) pre
      refine guarded_invariant ?_ start guarded.of_append run
      intro w a w' inv guard step
      cases step
      exact keep w a inv guard
    constructor
    · intro pre isPrefix
      obtain ⟨nLogin, kept⟩ := reached pre isPrefix
      exact kept.fine
    · rintro pre a ⟨rest, rfl⟩
      obtain ⟨nLogin, kept⟩ := reached pre ⟨[a] ++ rest, by rw [List.append_assoc]⟩
      rw [List.foldl_append]
      exact idStep_monotone kept a
    · intro pre isPrefix delivered
      obtain ⟨nLogin, kept⟩ := reached pre isPrefix
      exact kept.converged delivered

/-- A device registers while the logic server waits for the response to its question. -/
def noticeFirst : List IdAction :=
  [.executeLogic, .register ⟨7, "A", "ip"⟩, .deliverNotice, .deliverResponse]

/-- The handler raises, the notice is lost, and the logic server's id stays behind. -/
theorem behind_after_early_notice : ¬ IdsConverge guestConfig (some 100001) noticeFirst := by
  intro converge
  have same := converge.converged noticeFirst (List.prefix_refl _) ⟨rfl, rfl, fun _ member => nomatch member⟩
  exact absurd same (by decide +kernel)

end Runs

end GameServer.Login
