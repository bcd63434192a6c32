/-
Module: GameServer.Script.EntryCounts
Purpose: The entries of the queues of requests, counted: what each request and each reply of the database may do for every
  entry to be removed exactly once, on behalf of the request that pushed it.
Trusted boundary: none
Main exports: Conserved, Tidy, Conserving
-/
import GameServer.Script.RequestEffects

namespace GameServer.Script

open Lib Lib.LuaM

variable {ε : Type} {w t : RequestWorld ε} {d : PendingCall ε} {nHandlerId : Int} {request : Request}

/-! ## Counts

A request is counted among the calls that wait for the database and among the removals.
-/

/-- The reply to a call of the database would answer this request. -/
def PendingCall.waitsFor (call : Nat) (d : PendingCall ε) : Bool := d.waits.any fun x => x.2.call = call

/-- The calls of the database that a request waits for. -/
def waiting (commands : List (PendingCall ε)) (call : Nat) : Nat := commands.countP (PendingCall.waitsFor call)

/-- How many times `PopRequestFromSquence` was called for a request. -/
def removed (removals : List (Option Nat × Option Request)) (call : Nat) : Nat :=
  removals.countP fun x => x.1 = some call

/-- Whatever was removed is the entry of the request for which it was removed; a request that does not wait any more has
had one entry removed; and when none waits, there are no entries. -/
structure Conserved (w : RequestWorld ε) : Prop where
  own : ∀ x ∈ w.removals, ∃ request : Request, x = (some request.call, some request)
  once : ∀ call < w.arrived.length, waiting w.commands call = 0 → removed w.removals call = 1
  atRest : (∀ d ∈ w.commands, d.waits = none) → ∀ k, w.net.entries k = []

/-- The counts of two lists add up. -/
theorem waiting_append (first second : List (PendingCall ε)) (call : Nat) :
    waiting (first ++ second) call = waiting first call + waiting second call := List.countP_append

/-- Calls that no request waits for do not count. -/
theorem waiting_quiet {more : List (PendingCall ε)} (quiet : Quiet more) (call : Nat) : waiting more call = 0 := by
  rw [waiting, List.countP_eq_zero]
  intro d member
  simp [PendingCall.waitsFor, quiet d member]

theorem waiting_cons (d : PendingCall ε) (rest : List (PendingCall ε)) (call : Nat) :
    waiting (d :: rest) call = waiting rest call + if d.waitsFor call then 1 else 0 := List.countP_cons

theorem waitsFor_of_waits (waits : d.waits = some (nHandlerId, request)) (call : Nat) :
    d.waitsFor call = decide (request.call = call) := by
  simp [PendingCall.waitsFor, waits]

theorem removed_concat (removals : List (Option Nat × Option Request)) (remover call : Nat) (entry : Option Request) :
    removed (removals ++ [(some remover, entry)]) call = removed removals call + if remover = call then 1 else 0 := by
  simp [removed, List.countP_append, List.countP_singleton]

/-! ## Steps that lose no entry

A tidy step removes the entry of the request it answers, or leaves the request waiting; either way the counts agree.
-/

/-- A step that leaves no entry behind and takes none of another request. -/
inductive Tidy (w t : RequestWorld ε) : Prop where
  | idle (same : t = w)
  | waits {nHandlerId : Int} {request : Request} (waits : Waits w t nHandlerId request)
  | served {request : Request} (served : Served w t request [])
  | completed {d : PendingCall ε} {nHandlerId : Int} {request : Request} (waits : d.waits = some (nHandlerId, request))
      (front : w.net.frontOfSquence nHandlerId = some request) (completed : Completed w t d nHandlerId request)
  | again {d : PendingCall ε} (again : Again w t d)
  | dropped {d : PendingCall ε} (quiet : d.waits = none) (dropped : Dropped w t d)

/-- A reply that answers is for the request that stands first in the queue; no request waits for one that comes to
nothing. -/
def ReplyTidy (w : RequestWorld ε) (d : PendingCall ε) : ReplyTurn → Prop
  | .silent => d.waits = none
  | .again => True
  | .answers nHandlerId => ∃ x ∈ d.waits, nHandlerId = some x.1 ∧ w.net.frontOfSquence x.1 = some x.2

instance (w : RequestWorld ε) (d : PendingCall ε) : (turn : ReplyTurn) → Decidable (ReplyTidy w d turn)
  | .silent => inferInstanceAs (Decidable (_ = _))
  | .again => isTrue trivial
  | .answers _ => inferInstanceAs (Decidable (∃ x ∈ d.waits, _))

/-- A step in which the first reply comes is tidy when the reply is. -/
theorem tidy_of_reply {turn : ReplyTurn} (tidy : ReplyTidy w d turn) (silent : turn = .silent → Dropped w t d)
    (again : turn = .again → Again w t d)
    (answers : ∀ {nHandlerId request rest}, w.net.entries nHandlerId = request :: rest →
      turn = .answers (some nHandlerId) → Completed w t d nHandlerId request) : Tidy w t := by
  cases turn with
  | silent => exact .dropped tidy (silent rfl)
  | again => exact .again (again rfl)
  | answers found =>
      obtain ⟨x, waits, rfl, front⟩ := tidy
      obtain ⟨rest, queue⟩ := w.net.entries_of_frontOfSquence front
      exact .completed waits front (answers queue rfl)

/-- The queues hold the requests that wait, in some order, and each request waits or has had its entry removed. -/
structure Conserving (w : RequestWorld ε) : Prop where
  queues : ∀ k, (w.net.entries k).Perm (awaitedOf w.commands k)
  belongs : Belonging w
  own : ∀ x ∈ w.removals, ∃ request : Request, x = (some request.call, some request)
  counts : ∀ call, waiting w.commands call + removed w.removals call = if call < w.arrived.length then 1 else 0

theorem conserving_init : Conserving (.init : RequestWorld ε) where
  queues _ := .refl _
  belongs := belonging_init
  own _ member := absurd member List.not_mem_nil
  counts _ := rfl

namespace Conserving

variable (ok : Conserving w)

include ok

/-- When no request waits the queues are empty, because they hold no others. -/
theorem conserved : Conserved w where
  own := ok.own
  once call known done := by
    have count := ok.counts call
    rw [if_pos known, done, Nat.zero_add] at count
    exact count
  atRest quiet k := by
    have queue := ok.queues k
    rw [awaitedOf_quiet quiet] at queue
    exact queue.eq_nil

/-- A request that was pushed counts once. -/
theorem counts_pushed (newest : request.call = w.arrived.length) (call : Nat) :
    waiting w.commands call + removed w.removals call + (if request.call = call then 1 else 0) =
      if call < w.arrived.length + 1 then 1 else 0 := by
  have count := ok.counts call
  rw [count, newest]
  split_ifs <;> omega

theorem waits (waits : Waits w t nHandlerId request) : Conserving t where
  queues k := by
    rw [waits.entries, waits.awaited]
    split
    · exact (ok.queues k).append_right _
    · rw [List.append_nil]
      exact ok.queues k
  belongs := waits.belonging ok.belongs
  own := by
    rw [waits.removals]
    exact ok.own
  counts call := by
    obtain ⟨d, more, quiet, isWaiting, -, commands⟩ := waits.commands
    rw [commands, waiting_append, waiting_cons, waiting_quiet quiet, waitsFor_of_waits isWaiting, waits.removals,
      waits.arrived, List.length_append, List.length_singleton, ← ok.counts_pushed waits.call call]
    simp only [decide_eq_true_eq]
    omega

theorem served (served : Served w t request []) : Conserving t where
  queues k := by
    rw [served.entries, served.awaited]
    exact ok.queues k
  belongs := served.belonging ok.belongs
  own := by
    rw [served.removals]
    exact List.forall_mem_append.mpr ⟨ok.own, fun x member => ⟨request, List.mem_singleton.mp member⟩⟩
  counts call := by
    obtain ⟨more, quiet, commands⟩ := served.commands
    rw [commands, waiting_append, waiting_quiet quiet, served.removals, removed_concat, served.arrived,
      List.length_append, List.length_singleton, ← ok.counts_pushed served.call call]
    omega

theorem completed (waits : d.waits = some (nHandlerId, request))
    (front : w.net.frontOfSquence nHandlerId = some request) (completed : Completed w t d nHandlerId request) :
    Conserving t where
  queues k := by
    obtain ⟨behind, queue⟩ := w.net.entries_of_frontOfSquence front
    have held := ok.queues k
    rw [completed.awaited waits] at held
    rw [completed.entries]
    by_cases here : k = nHandlerId
    · subst here
      rw [if_pos rfl, queue] at held
      rw [if_pos rfl, queue]
      exact held.cons_inv
    · rw [if_neg here] at held ⊢
      exact held
  belongs := completed.belonging ok.belongs
  own := by
    rw [completed.removals, ← (completed.id waits ok.belongs).1]
    exact List.forall_mem_append.mpr ⟨ok.own, fun x member => ⟨request, List.mem_singleton.mp member⟩⟩
  counts call := by
    obtain ⟨rest, more, commands, quiet, commands'⟩ := completed.commands
    have count := ok.counts call
    rw [commands, waiting_cons, waitsFor_of_waits waits] at count
    rw [commands', waiting_append, waiting_quiet quiet, completed.removals, removed_concat, completed.arrived, ← count,
      ← (completed.id waits ok.belongs).1]
    simp only [decide_eq_true_eq]
    omega

/-- The request of a reply that led to another call waits for that one. -/
theorem again (again : Again w t d) : Conserving t where
  queues k := by
    obtain ⟨others, before, after⟩ := again.awaited k
    have held := ok.queues k
    rw [before] at held
    rw [again.entries, after]
    exact held.trans List.perm_append_comm
  belongs := again.belonging ok.belongs
  own := by
    rw [again.removals]
    exact ok.own
  counts call := by
    obtain ⟨rest, before, e, more, commands, quiet, sameWaits, -, quiet', commands'⟩ := again.commands
    have count := ok.counts call
    have sameFor : e.waitsFor call = d.waitsFor call := by rw [PendingCall.waitsFor, sameWaits, PendingCall.waitsFor]
    rw [commands, waiting_cons] at count
    rw [commands', waiting_append, waiting_append, waiting_cons, waiting_quiet quiet, waiting_quiet quiet',
      again.removals, again.arrived, ← count, sameFor]
    omega

/-- Nobody waited for a reply that came to nothing. -/
theorem dropped (nobody : d.waits = none) (dropped : Dropped w t d) : Conserving t := by
  have quietHead : Quiet [d] := fun e member => by rw [List.mem_singleton.mp member, nobody]
  refine ⟨fun k => ?_, dropped.belonging ok.belongs, ?_, fun call => ?_⟩
  · have held := ok.queues k
    rw [dropped.awaited, awaitedOf_quiet quietHead, List.nil_append] at held
    rw [dropped.entries]
    exact held
  · rw [dropped.removals]
    exact ok.own
  · obtain ⟨rest, more, commands, quiet, commands'⟩ := dropped.commands
    have count := ok.counts call
    rw [commands, ← List.singleton_append, waiting_append, waiting_quiet quietHead, Nat.zero_add] at count
    rw [commands', waiting_append, waiting_quiet quiet, Nat.add_zero, dropped.removals, dropped.arrived]
    exact count

/-- One case for each kind of tidy step. -/
theorem tidy (tidy : Tidy w t) : Conserving t := by
  cases tidy with
  | idle same => exact same ▸ ok
  | waits waits => exact ok.waits waits
  | served served => exact ok.served served
  | completed waits front completed => exact ok.completed waits front completed
  | again again => exact ok.again again
  | dropped nobody dropped => exact ok.dropped nobody dropped

end Conserving

end GameServer.Script
