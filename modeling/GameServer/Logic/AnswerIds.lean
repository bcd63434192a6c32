/-
Module: GameServer.Logic.AnswerIds
Purpose: Which sequence ids the logic server puts on its answers, over whole runs of requests and replies of the
  database.
Trusted boundary: that of `RequestFlow`
Main exports: spoils, logicStep, InTurn, answersMatch_of_inTurn, answer_of_wrong_id
-/
import GameServer.Lib.Runs
import GameServer.Logic.RequestFlow
import GameServer.Script.AnswerIds

namespace GameServer.Logic.Requests

open Lib Lib.LuaM Script

variable {w : World}

/-! ## Connections in step

The queue of a connection gets out of step when an entry stays that no reply will answer, or when the entry of another
request is removed. These connections are kept in a field of the world that no function reads.
-/

/-- The connections whose queue is out of step after an action: an entry stays that no reply answers, or the entry of
another request was removed, or it is not removed in its turn. -/
def spoils (w : World) : Action → List Int
  | .request _ _ .noTable _ => []
  | .request nHandlerId _ .malformed _ => if Free w nHandlerId then [] else [nHandlerId]
  | .request nHandlerId _ (.table tbParam) event => if Orderly w nHandlerId tbParam event then [] else [nHandlerId]
  | .deliver reply =>
      match w.commands with
      | [] => []
      | d :: _ =>
          match d.waits with
          | none => []
          | some (nHandlerId, request) =>
              match replyTurn w d reply with
              | .silent => [nHandlerId]
              | .again => if w.net.entries nHandlerId = [request] then [] else [nHandlerId]
              | .answers _ => []

def logicStep (w : World) (action : Action) : World := (logicAct w action).spoil (spoils w action)

/-- A reply that answers finds its user on the connection of the request that waits for it.  Where the queue of the
connection has got out of step, this request stands first in it all the same. -/
def ReplyInTurn (w : World) (d : PendingCall ReplyEvent) : ReplyTurn → Prop
  | .answers nHandlerId => ∃ x ∈ d.waits, nHandlerId = some x.1 ∧
      (x.1 ∈ w.spoiled → w.net.frontOfSquence x.1 = some x.2)
  | _ => True

instance (w : World) (d : PendingCall ReplyEvent) : (turn : ReplyTurn) → Decidable (ReplyInTurn w d turn)
  | .silent => isTrue trivial
  | .again => isTrue trivial
  | .answers _ => inferInstanceAs (Decidable (∃ x ∈ d.waits, _))

/-- Who enters the game and is in the pool has no other request in the queue, and replies come in turn. -/
def InTurn (w : World) : Action → Prop
  | .request nHandlerId _ (.table tbParam) event =>
      event = .enterGame .ok → (tbParam.getD 0 .nil).isNumber = true → Free w nHandlerId ∧ 0 < nHandlerId
  | .request _ _ .malformed _ | .request _ _ .noTable _ => True
  | .deliver reply => ∀ d ∈ w.commands.head?, ReplyInTurn w d (replyTurn w d reply)

instance (w : World) : (action : Action) → Decidable (InTurn w action)
  | .request _ _ (.table _) _ => inferInstanceAs (Decidable (_ → _ → _))
  | .request _ _ .malformed _ => isTrue trivial
  | .request _ _ .noTable _ => isTrue trivial
  | .deliver _ => inferInstanceAs (Decidable (∀ d ∈ w.commands.head?, _))

/-! ## What a step keeps

One lemma for each kind of action; in a step that meets the condition no connection gets out of step.
-/

section Steps

variable (aligned : Aligned w)

include aligned

theorem aligned_malformed (nHandlerId nSequenceId : Int) (event : Event) :
    Aligned (logicStep w (.request nHandlerId nSequenceId .malformed event)) := by
  simp only [logicStep, logicAct, spoils, arrive, onClientRequest_malformed]
  cases queue : w.net.entries nHandlerId with
  | nil =>
      obtain ⟨net, same, run⟩ := exec_popRequestFromSquence_nil none queue
      rw [run]
      exact aligned.entries _ fun k _ => same k
  | cons request rest =>
      have taken : ¬ Free w nHandlerId := by
        intro free
        rw [Free, queue] at free
        cases free
      rw [exec_popRequestFromSquence_cons none queue, if_neg taken]
      apply aligned.entries
      intro k other
      rw [NetManager.entries_withEntries, if_neg fun here => other (List.mem_singleton.mpr here)]

theorem aligned_table {nHandlerId nSequenceId : Int} {tbParam : List LuaValue} {event : Event}
    (inTurn : InTurn w (.request nHandlerId nSequenceId (.table tbParam) event)) :
    Aligned (logicStep w (.request nHandlerId nSequenceId (.table tbParam) event)) := by
  simp only [logicStep, logicAct, spoils]
  by_cases orderly : Orderly w nHandlerId tbParam event
  · rw [if_pos orderly]
    rcases request_orderly nSequenceId orderly with waits | ⟨extra, served, -⟩
    · exact (aligned.waits waits).spoil []
    · exact (aligned.served served).spoil []
  · rw [if_neg orderly]
    have blind : event = .enterGame .ok → (tbParam.getD 0 .nil).isNumber = false := by
      intro fromPool
      subst fromPool
      by_contra number
      rw [Bool.not_eq_false] at number
      obtain ⟨free, positive⟩ := inTurn rfl number
      exact orderly ⟨number, Or.inr ⟨free, fun _ => positive⟩⟩
    exact aligned.confined rfl (request_confined w nHandlerId nSequenceId blind)

theorem aligned_deliver {reply : Reply} (inTurn : InTurn w (.deliver reply)) :
    Aligned (logicStep w (.deliver reply)) := by
  cases next : w.commands with
  | nil =>
      have idle : logicStep w (.deliver reply) = w.spoil [] := by
        simp only [logicStep, logicAct, spoils, replied, next]
      rw [idle]
      exact aligned.spoil []
  | cons d rest =>
      have inTurn : ReplyInTurn w d (replyTurn w d reply) := inTurn d (by rw [next]; rfl)
      have step : logicStep w (.deliver reply) = (replied reply w).spoil (spoils w (.deliver reply)) := rfl
      rw [step]
      cases turn : replyTurn w d reply with
      | silent =>
          apply aligned.dropped (deliver_dropped next turn)
          intro k request waits
          simp only [spoils, next, waits, turn, List.mem_singleton]
      | again =>
          apply aligned.again (deliver_again next turn)
          intro k request waits
          by_cases alone : w.net.entries k = [request]
          · exact Or.inr alone
          · left
            simp only [spoils, next, waits, turn, if_neg alone, List.mem_singleton]
      | answers found =>
          rw [turn] at inTurn
          obtain ⟨⟨k, request⟩, waits, rfl, first⟩ := inTurn
          have front : w.net.frontOfSquence k = some request := by
            by_cases spoiled : k ∈ w.spoiled
            · exact first spoiled
            · exact aligned.front next waits spoiled
          obtain ⟨entries, queue⟩ := w.net.entries_of_frontOfSquence front
          exact (aligned.completed waits (deliver_completed next queue turn)).spoil _

/-- The three kinds of action together. -/
theorem aligned_step {action : Action} (inTurn : InTurn w action) : Aligned (logicStep w action) := by
  cases action with
  | request nHandlerId nSequenceId decoded event =>
      cases decoded with
      | malformed => exact aligned_malformed aligned nHandlerId nSequenceId event
      | noTable => exact aligned.spoil []
      | table tbParam => exact aligned_table aligned inTurn
  | deliver reply => exact aligned_deliver aligned inTurn

end Steps

/-! ## Runs

The library's run rule lifts the step to whole runs, and the two examples are a run in which all ids are right and one
in which a reply comes out of turn.
-/

/-- All connections stay aligned as long as every action comes in its turn. -/
theorem aligned_of_inTurn {actions : List Action} (inTurn : Guarded (always logicStep) InTurn .init actions) :
    Aligned (actions.foldl logicStep .init) := by
  have keep : ∀ w action w', Aligned w → InTurn w action → always logicStep w action = some w' → Aligned w' := by
    intro w action w' aligned inTurn step
    cases step
    exact aligned_step aligned inTurn
  exact guarded_invariant keep aligned_init inTurn (runSteps_always _ _ _)

/-- **Answers have the ids of their requests**, in every state that requests and replies in turn lead to. -/
theorem answersMatch_of_inTurn {actions : List Action} (inTurn : Guarded (always logicStep) InTurn .init actions)
    {reached : List Action} (isPrefix : reached <+: actions) : AnswersMatch (reached.foldl logicStep .init) := by
  obtain ⟨rest, rfl⟩ := isPrefix
  exact (aligned_of_inTurn inTurn.of_append).answers

/-- User 1 enters the game on connection 7. -/
def enters : List Action :=
  [.request 7 1 (.table [.number 1]) (.enterGame .userDataNil), .deliver (.arrives (.answered false false [] false))]

/-- He searches a user who is not in the pool. -/
def searches : Action := .request 7 2 (.table [.number 2]) (.other (.asyn (some (.number 1)) [] false))

/-- He updates his name, which is answered at once, and `Commit` saves it for the user 0. -/
def renames : Action := .request 7 3 (.table [.string "name"]) (.other (.answered false false [.number 0] false))

/-- What he searched is found. -/
def finds : Action := .deliver (.arrives (.answered false false [] false))

theorem answersMatch_of_inTurn_search :
    ((enters ++ [searches, finds, renames]).foldl logicStep .init).answers = [(0, 1), (1, 2), (2, 3)] ∧
      AnswersMatch ((enters ++ [searches, finds, renames]).foldl logicStep .init) :=
  ⟨by decide +kernel, answersMatch_of_inTurn (by decide +kernel) List.prefix_rfl⟩

/-- When he updates his name before the user is found, the search is answered with the id of the update. -/
theorem answer_of_wrong_id : ¬ ∀ actions : List Action, AnswersMatch (actions.foldl logicStep .init) := by
  intro claim
  have answers : ((enters ++ [searches, renames, finds]).foldl logicStep .init).answers =
      [(0, 1), (2, 3), (1, 3)] := by decide +kernel
  have arrived : ((enters ++ [searches, renames, finds]).foldl logicStep .init).arrived = [1, 2, 3] := by
    decide +kernel
  have searched := claim (enters ++ [searches, renames, finds]) (1, 3) (by rw [answers]; decide)
  rw [arrived] at searched
  exact absurd searched (by decide)

end GameServer.Logic.Requests
