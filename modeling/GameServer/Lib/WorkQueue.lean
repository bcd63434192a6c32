/-
Module: GameServer.Lib.WorkQueue
Purpose: Requests that are executed one after another, and the books of a thread that takes them from a queue, executes
  them and hands its outputs on one at a time.
Trusted boundary: none
Main exports: serveAll, serveAll_append, Fifo, Fifo.accept, Fifo.take, Fifo.execute, Fifo.emit, Fifo.drained,
  Fifo.executed_prefix
-/
import Mathlib.Data.List.Basic
import Mathlib.Data.Option.Basic

namespace GameServer.Lib

variable {δ ρ π : Type*} (serve : δ → ρ → Option (δ × List π))

/-! ## Execution in order

Requests are executed one after the other on a state, each with one output.
-/

/-- The requests executed one after another from a state: the state afterwards and the outputs in order.  None when one
of them is not executed. -/
def serveAll : δ → List ρ → Option (δ × List π)
  | state, [] => some (state, [])
  | state, request :: requests =>
      (serve state request).bind fun first =>
        (serveAll first.1 requests).map fun rest => (rest.1, first.2 ++ rest.2)

theorem serveAll_append (state : δ) (requests more : List ρ) :
    serveAll serve state (requests ++ more) =
      (serveAll serve state requests).bind fun first =>
        (serveAll serve first.1 more).map fun rest => (rest.1, first.2 ++ rest.2) := by
  induction requests generalizing state with
  | nil => simp [serveAll]
  | cons request requests ih =>
      rw [List.cons_append, serveAll, serveAll]
      cases serve state request with
      | none => rfl
      | some first =>
          rw [Option.bind_some, Option.bind_some, ih]
          cases serveAll serve first.1 requests with
          | none => rfl
          | some second =>
              rw [Option.bind_some, Option.map_some, Option.bind_some, Option.map_map]
              simp only [Function.comp_def, List.append_assoc]

variable {serve}

/-- One more request. -/
theorem serveAll_concat {start state next : δ} {requests : List ρ} {request : ρ} {outputs more : List π}
    (before : serveAll serve start requests = some (state, outputs)) (one : serve state request = some (next, more)) :
    serveAll serve start (requests ++ [request]) = some (next, outputs ++ more) := by
  rw [serveAll_append, before, Option.bind_some, serveAll, one]
  simp [serveAll]

variable (serve)

/-- Of the requests that were accepted, the first ones are executed, the next one may be in hand, and the others are
queued; of the outputs, the first ones are emitted and the others pending. -/
def Fifo (start : δ) (accepted queue : List ρ) (inHand : Option ρ) (state : δ) (emitted pending : List π) : Prop :=
  ∃ executed, accepted = executed ++ inHand.toList ++ queue ∧
    serveAll serve start executed = some (state, emitted ++ pending)

variable {serve} {start state : δ} {accepted queue : List ρ} {emitted pending : List π} {request : ρ}

/-- Nothing was accepted so far. -/
theorem Fifo.begin : Fifo serve start [] [] none start [] [] := ⟨[], rfl, rfl⟩

/-- A request is put into the queue. -/
theorem Fifo.accept {inHand : Option ρ} (books : Fifo serve start accepted queue inHand state emitted pending)
    (request : ρ) : Fifo serve start (accepted ++ [request]) (queue ++ [request]) inHand state emitted pending := by
  obtain ⟨executed, split, done⟩ := books
  exact ⟨executed, by rw [split, List.append_assoc], done⟩

/-- The first request of the queue is taken. -/
theorem Fifo.take (books : Fifo serve start accepted (request :: queue) none state emitted pending) :
    Fifo serve start accepted queue (some request) state emitted pending := by
  obtain ⟨executed, split, done⟩ := books
  exact ⟨executed, by rw [split]; simp, done⟩

/-- The request in hand is executed, when nothing else is pending. -/
theorem Fifo.execute (books : Fifo serve start accepted queue (some request) state emitted []) {next : δ}
    {outputs : List π} (one : serve state request = some (next, outputs)) :
    Fifo serve start accepted queue none next emitted outputs := by
  obtain ⟨executed, split, done⟩ := books
  rw [List.append_nil] at done
  exact ⟨executed ++ [request], by rw [split]; simp, serveAll_concat done one⟩

/-- The first pending output is emitted. -/
theorem Fifo.emit {inHand : Option ρ} {output : π}
    (books : Fifo serve start accepted queue inHand state emitted (output :: pending)) :
    Fifo serve start accepted queue inHand state (emitted ++ [output]) pending := by
  obtain ⟨executed, split, done⟩ := books
  exact ⟨executed, split, by rw [done]; simp⟩

/-- A thread with nothing left to do has executed what it has accepted. -/
theorem Fifo.drained (books : Fifo serve start accepted [] none state emitted []) :
    serveAll serve start accepted = some (state, emitted) := by
  obtain ⟨executed, split, done⟩ := books
  rw [Option.toList_none, List.append_nil, List.append_nil] at split
  rw [split, done, List.append_nil]

/-- At any time the first of the requests are executed, and what is emitted comes of them. -/
theorem Fifo.executed_prefix {inHand : Option ρ} (books : Fifo serve start accepted queue inHand state emitted pending) :
    ∃ executed outputs, executed <+: accepted ∧ serveAll serve start executed = some (state, outputs) ∧
      emitted <+: outputs := by
  obtain ⟨executed, split, done⟩ := books
  refine ⟨executed, emitted ++ pending, ?_, done, List.prefix_append _ _⟩
  rw [split, List.append_assoc]
  exact List.prefix_append _ _

end GameServer.Lib
