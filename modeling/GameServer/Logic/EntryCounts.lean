/-
Module: GameServer.Logic.EntryCounts
Purpose: The entries of the queues of requests on the login and the logic server, over whole runs of requests and replies
  of the database.
Trusted boundary: that of the two flows of requests
Main exports: LogicTidy, Servers, conserved_of_tidy, malformed_removes
-/
import GameServer.Lib.Runs
import GameServer.Logic.RequestFlow
import GameServer.Login.RequestFlow

namespace GameServer.Logic.Requests

open Lib Lib.LuaM Script

/-! ## The logic server

The counts of the queue on the logic server, whose handlers may wait for the database.
-/

/-- Nothing raises after the answer. -/
def Event.clean : Event → Bool
  | .other outcome => outcome.clean
  | _ => true

def LogicTidy (w : World) : Action → Prop
  | .request _ _ .malformed _ => False
  | .request _ _ .noTable _ => True
  | .request nHandlerId _ (.table tbParam) event => Orderly w nHandlerId tbParam event ∧ event.clean = true
  | .deliver reply => ∀ d ∈ w.commands.head?, ReplyTidy w d (replyTurn w d reply)

instance (w : World) : (action : Action) → Decidable (LogicTidy w action)
  | .request _ _ .malformed _ => isFalse id
  | .request _ _ .noTable _ => isTrue trivial
  | .request _ _ (.table _) _ => inferInstanceAs (Decidable (_ ∧ _))
  | .deliver _ => inferInstanceAs (Decidable (∀ d ∈ w.commands.head?, _))

/-- What the logic server does in order loses no entry. -/
theorem logicAct_tidy {w : World} {action : Action} (tidy : LogicTidy w action) : Tidy w (logicAct w action) := by
  cases action with
  | request nHandlerId nSequenceId decoded event =>
      cases decoded with
      | malformed => exact tidy.elim
      | noTable => exact .idle rfl
      | table tbParam =>
          obtain ⟨orderly, clean⟩ := tidy
          rcases request_orderly nSequenceId orderly with waits | ⟨extra, served, alone⟩
          · exact .waits waits
          · have nothing : extra = [] := by
              apply alone
              rintro outcome rfl
              exact clean
            subst nothing
            exact .served served
  | deliver reply =>
      cases next : w.commands with
      | nil =>
          refine .idle ?_
          simp only [logicAct, replied, next]
      | cons d rest =>
          exact tidy_of_reply (tidy d (by rw [next]; rfl)) (deliver_dropped next) (deliver_again next)
            fun front answers => deliver_completed next front answers

/-! ## Both servers

The login server and the logic server act in any order, each on its own queues.
-/

structure Servers where
  login : Login.Requests.World
  logic : World

def Servers.init : Servers := ⟨.init, .init⟩

inductive ServerAction where
  | login (action : Login.Requests.Action)
  | logic (action : Action)
deriving Repr, DecidableEq

def serversStep (s : Servers) : ServerAction → Servers
  | .login action => { s with login := Login.Requests.loginAct s.login action }
  | .logic action => { s with logic := logicAct s.logic action }

def ServersTidy (s : Servers) : ServerAction → Prop
  | .login action => Login.Requests.LoginTidy s.login action
  | .logic action => LogicTidy s.logic action

instance (s : Servers) : (action : ServerAction) → Decidable (ServersTidy s action)
  | .login _ => inferInstanceAs (Decidable (Login.Requests.LoginTidy ..))
  | .logic _ => inferInstanceAs (Decidable (LogicTidy ..))

/-- No entry is lost, and none is removed for another request, on either server. -/
def EntriesConserved (s : Servers) : Prop := Conserved s.login ∧ Conserved s.logic

/-- On both servers every request is counted once: it waits, or it was answered. -/
theorem conserving_of_tidy {actions : List ServerAction}
    (tidy : Guarded (always serversStep) ServersTidy .init actions) :
    Conserving (actions.foldl serversStep .init).login ∧ Conserving (actions.foldl serversStep .init).logic := by
  have keep : ∀ s action s', Conserving s.login ∧ Conserving s.logic → ServersTidy s action →
      always serversStep s action = some s' → Conserving s'.login ∧ Conserving s'.logic := by
    rintro s action s' ⟨login, logic⟩ tidy step
    cases step
    cases action with
    | login action => exact ⟨login.tidy (Login.Requests.loginAct_tidy tidy), logic⟩
    | logic action => exact ⟨login, logic.tidy (logicAct_tidy tidy)⟩
  have start : Conserving Servers.init.login ∧ Conserving Servers.init.logic := ⟨conserving_init, conserving_init⟩
  exact guarded_invariant keep start tidy (runSteps_always _ _ _)

/-- **Entries are conserved** in every state that tidy requests and replies lead to. -/
theorem conserved_of_tidy {actions : List ServerAction}
    (tidy : Guarded (always serversStep) ServersTidy .init actions) {reached : List ServerAction}
    (isPrefix : reached <+: actions) : EntriesConserved (reached.foldl serversStep .init) := by
  obtain ⟨rest, rfl⟩ := isPrefix
  obtain ⟨login, logic⟩ := conserving_of_tidy tidy.of_append
  exact ⟨login.conserved, logic.conserved⟩

/-- A new device is registered as user 100001, who enters the game. -/
def registersAndEnters : List ServerAction :=
  [.login (.request 3 1 (.table [.string "device", .string "ip"]) .loginDirect),
    .login (.deliver (.empty (some 100001))), .login (.deliver .text), .login (.deliver .text), .login (.deliver .text),
    .logic (.request 7 1 (.table [.number 100001]) (.enterGame .userDataNil)), .login (.deliver .text),
    .logic (.deliver (.arrives (.answered false false [] false)))]

theorem conserved_of_tidy_registration :
    (registersAndEnters.foldl serversStep .init).login.answers = [(0, 1)] ∧
      (registersAndEnters.foldl serversStep .init).logic.answers = [(0, 1)] ∧
        EntriesConserved (registersAndEnters.foldl serversStep .init) :=
  ⟨by decide +kernel, by decide +kernel, conserved_of_tidy (by decide +kernel) List.prefix_rfl⟩

/-- A body that is no JSON pushes no entry, and one is removed all the same. -/
theorem malformed_removes :
    ¬ ∀ actions : List ServerAction, EntriesConserved (actions.foldl serversStep .init) := by
  intro claim
  have removals : ([ServerAction.logic (.request 7 1 .malformed .userDisconnect)].foldl serversStep
      .init).logic.removals = [(none, none)] := by decide +kernel
  obtain ⟨-, logic⟩ := claim [.logic (.request 7 1 .malformed .userDisconnect)]
  obtain ⟨request, own⟩ := logic.own (none, none) (by rw [removals]; exact List.mem_singleton_self _)
  cases own

end GameServer.Logic.Requests
