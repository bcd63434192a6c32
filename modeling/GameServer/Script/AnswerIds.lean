/-
Module: GameServer.Script.AnswerIds
Purpose: The sequence ids of answers: while the queue of a connection holds the requests that wait, in the order of their
  replies, every answer has the id that its request came with.
Trusted boundary: none
Main exports: AnswersMatch, Aligned
-/
import GameServer.Script.RequestEffects

namespace GameServer.Script

open Lib Lib.LuaM

variable {ε : Type} {w t : RequestWorld ε} {d : PendingCall ε} {nHandlerId : Int} {request : Request}

/-! ## The ids of the answers

The queue of a connection in step holds the requests that wait in the order of their replies, so the first of them is
the one that a reply answers. The lemmas say what each kind of step makes of this.
-/

/-- Whatever was sent to the gateway for a request has the sequence id that the request came with. -/
def AnswersMatch (w : RequestWorld ε) : Prop := ∀ x ∈ w.answers, w.arrived[x.1]? = some x.2

instance (w : RequestWorld ε) : Decidable (AnswersMatch w) := inferInstanceAs (Decidable (∀ x ∈ w.answers, _))

/-- The queue of a connection that is in step holds the requests that wait, in the order of their replies. -/
structure Aligned (w : RequestWorld ε) : Prop where
  queues : ∀ k, k ∉ w.spoiled → w.net.entries k = awaitedOf w.commands k
  belongs : Belonging w
  answers : AnswersMatch w

theorem aligned_init : Aligned (.init : RequestWorld ε) where
  queues _ _ := rfl
  belongs := belonging_init
  answers _ member := absurd member List.not_mem_nil

theorem getElem?_concat_of_some {arrived : List Int} {call : Nat} {n : Int} (known : arrived[call]? = some n)
    (m : Int) : (arrived ++ [m])[call]? = some n := by
  have inside : call < arrived.length := (List.getElem?_eq_some_iff.mp known).1
  rw [List.getElem?_append_left inside, known]

/-- Answers that were given before, and those with the id of their own request. -/
theorem answers_append {arrived : List Int} {answers : List (Nat × Int)} {call : Nat} {n : Int}
    (old : ∀ x ∈ answers, arrived[x.1]? = some x.2) (own : arrived[call]? = some n) :
    ∀ x ∈ answers ++ [(call, n)], arrived[x.1]? = some x.2 := by
  intro x member
  rcases List.mem_append.mp member with before | new
  · exact old x before
  · rw [List.mem_singleton.mp new]
    exact own

namespace Aligned

variable (aligned : Aligned w)

include aligned

/-- Another connection goes out of step. -/
theorem spoil (connections : List Int) : Aligned (w.spoil connections) where
  queues k inStep := aligned.queues k fun spoiled => inStep (List.mem_append_right _ spoiled)
  belongs := aligned.belongs
  answers := aligned.answers

/-- Queues that an action has changed are those of connections that go out of step. -/
theorem entries {net : NetManager} {connections : List Int} (removals : List (Option Nat × Option Request))
    (same : ∀ k, k ∉ connections → net.entries k = w.net.entries k) :
    Aligned ({ w with net := net, removals := removals }.spoil connections) where
  queues k inStep := by
    simp only [RequestWorld.spoil, List.mem_append, not_or] at inStep
    exact (same k inStep.1).trans (aligned.queues k inStep.2)
  belongs := aligned.belongs
  answers := aligned.answers

theorem answers_grow (n : Int) : ∀ x ∈ w.answers, (w.arrived ++ [n])[x.1]? = some x.2 :=
  fun x member => getElem?_concat_of_some (aligned.answers x member) n

theorem waits (waits : Waits w t nHandlerId request) : Aligned t where
  queues k inStep := by
    rw [waits.spoiled] at inStep
    rw [waits.entries, waits.awaited, aligned.queues k inStep]
    split
    · rfl
    · rw [List.append_nil]
  belongs := waits.belonging aligned.belongs
  answers x member := by
    rw [waits.answers] at member
    rw [waits.arrived]
    exact aligned.answers_grow _ x member

theorem served {extra : List (Option Nat × Option Request)} (served : Served w t request extra) : Aligned t where
  queues k inStep := by
    rw [served.spoiled] at inStep
    rw [served.entries, served.awaited, aligned.queues k inStep]
  belongs := served.belonging aligned.belongs
  answers := by
    have old : ∀ x ∈ w.answers, t.arrived[x.1]? = some x.2 := by
      rw [served.arrived]
      exact aligned.answers_grow _
    unfold AnswersMatch
    rcases served.answers with same | answered
    · rw [same]
      exact old
    · rw [answered]
      exact answers_append old served.newest

/-- Where a request was not dealt with in order, the other connections stay in step. -/
theorem confined (call : request.call = w.arrived.length)
    (confined : Confined nHandlerId request (w.push nHandlerId request) t) : Aligned (t.spoil [nHandlerId]) := by
  obtain ⟨more, commands, waiting⟩ := confined.commands
  have arrived : t.arrived = w.arrived ++ [request.nSequenceId] := confined.arrived
  have newest : t.arrived[request.call]? = some request.nSequenceId := by
    rw [arrived, call, List.getElem?_concat_length]
  refine ⟨fun k inStep => ?_, ?_, ?_⟩
  · have spoiled : t.spoiled = w.spoiled := confined.spoiled
    simp only [RequestWorld.spoil, spoiled, List.singleton_append, List.mem_cons, not_or] at inStep
    have others : awaitedOf more k = [] := by
      rw [awaitedOf, List.filterMap_eq_nil_iff]
      intro d member
      rcases waiting d member with quiet | ⟨waits, -⟩
      · rw [quiet]
        rfl
      · rw [waits]
        simp [Ne.symm inStep.1]
    change t.net.entries k = awaitedOf t.commands k
    rw [confined.entries k inStep.1, entries_push, if_neg inStep.1, commands, awaitedOf_append, others, List.append_nil]
    exact aligned.queues k inStep.2
  · intro e member
    change e.Belongs t.arrived
    change e ∈ t.commands at member
    rw [commands] at member
    rcases List.mem_append.mp member with old | new
    · rw [arrived]
      exact aligned.belongs.grow _ e old
    · rcases waiting e new with quiet | ⟨waits, sameCall⟩
      · exact .of_quiet quiet
      · exact .of_waits waits sameCall newest
  · intro x member
    obtain ⟨answers, same, areOwn⟩ := confined.answers
    change x ∈ t.answers at member
    change t.arrived[x.1]? = some x.2
    rw [same] at member
    rcases List.mem_append.mp member with old | new
    · rw [arrived]
      exact aligned.answers_grow _ x old
    · rw [areOwn x new]
      exact newest

/-- On a connection that is in step, the request that the reply is for stands first. -/
theorem front {rest : List (PendingCall ε)} (commands : w.commands = d :: rest)
    (waits : d.waits = some (nHandlerId, request)) (inStep : nHandlerId ∉ w.spoiled) :
    w.net.frontOfSquence nHandlerId = some request := by
  have queue := aligned.queues nHandlerId inStep
  rw [commands, awaitedOf_cons_self waits] at queue
  exact w.net.frontOfSquence_cons queue

theorem completed (waits : d.waits = some (nHandlerId, request))
    (completed : Completed w t d nHandlerId request) : Aligned t where
  queues k inStep := by
    rw [completed.spoiled] at inStep
    rw [completed.entries, aligned.queues k inStep, completed.awaited waits]
    split <;> rfl
  belongs := completed.belonging aligned.belongs
  answers := by
    obtain ⟨call, id⟩ := completed.id waits aligned.belongs
    rw [AnswersMatch, completed.arrived]
    rcases completed.answers with same | answered
    · rw [same]
      exact aligned.answers
    · rw [answered, ← call]
      exact answers_append aligned.answers id

/-- A request that alone waits on its connection may wait again; else its connection goes out of step. -/
theorem again {connections : List Int} (again : Again w t d)
    (inOrder : ∀ k request, d.waits = some (k, request) → k ∈ connections ∨ w.net.entries k = [request]) :
    Aligned (t.spoil connections) where
  queues k inStep := by
    simp only [RequestWorld.spoil, again.spoiled, List.mem_append, not_or] at inStep
    obtain ⟨others, before, after⟩ := again.awaited k
    have held := aligned.queues k inStep.2
    change t.net.entries k = awaitedOf t.commands k
    rw [again.entries, held, before, after]
    cases waits : d.waits with
    | none =>
        have quiet : Quiet [d] := fun e member => by rw [List.mem_singleton.mp member, waits]
        rw [awaitedOf_quiet quiet, List.nil_append, List.append_nil]
    | some x =>
        obtain ⟨h, request⟩ := x
        rw [awaitedOf_of_waits waits quiet_nil]
        by_cases here : k = h
        · subst here
          rcases inOrder k request waits with spoiled | alone
          · exact absurd spoiled inStep.1
          · -- nobody else waits on the connection
            rw [alone, before, awaitedOf_of_waits waits quiet_nil, if_pos rfl] at held
            have nobody : others = [] := List.self_eq_append_right.mp held
            rw [if_pos rfl, nobody, List.append_nil, List.nil_append]
        · rw [if_neg here, List.nil_append, List.append_nil]
  belongs := again.belonging aligned.belongs
  answers x member := by
    change x ∈ t.answers at member
    change t.arrived[x.1]? = some x.2
    rw [again.answers] at member
    rw [again.arrived]
    exact aligned.answers x member

/-- After a reply that came to nothing the connection of its request is out of step. -/
theorem dropped {connections : List Int} (dropped : Dropped w t d)
    (spoils : ∀ k request, d.waits = some (k, request) → k ∈ connections) : Aligned (t.spoil connections) where
  queues k inStep := by
    simp only [RequestWorld.spoil, dropped.spoiled, List.mem_append, not_or] at inStep
    have nobody : ∀ request, d.waits ≠ some (k, request) := fun request waits => inStep.1 (spoils k request waits)
    have skipped : awaitedOf [d] k = [] := awaitedOf_cons_of_ne nobody
    change t.net.entries k = awaitedOf t.commands k
    rw [dropped.entries, aligned.queues k inStep.2, dropped.awaited, skipped, List.nil_append]
  belongs := dropped.belonging aligned.belongs
  answers x member := by
    change x ∈ t.answers at member
    change t.arrived[x.1]? = some x.2
    rw [dropped.answers] at member
    rw [dropped.arrived]
    exact aligned.answers x member

end Aligned

end GameServer.Script
