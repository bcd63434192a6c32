/-
Module: GameServer.Script.RequestEffects
Purpose: What a request and a reply of the database do to the queues of requests: the request waits, or is served, the
  reply completes a request, makes it wait again, or comes to nothing.
Trusted boundary: none
Main exports: Waits, Served, Confined, Completed, Again, Dropped, Belonging
-/
import GameServer.Script.RequestQueue

namespace GameServer.Script

open Lib Lib.LuaM

variable {ε : Type} {w t : RequestWorld ε} {d : PendingCall ε} {nHandlerId : Int} {request : Request}

/-- Calls that no request waits for. -/
def Quiet (calls : List (PendingCall ε)) : Prop := ∀ d ∈ calls, d.waits = none

theorem quiet_nil : Quiet ([] : List (PendingCall ε)) := fun _ member => absurd member List.not_mem_nil

/-! ## What becomes of a request

A request waits for the database, or is served at once; whatever it does is confined to its own connection.
-/

/-- A request was pushed and waits. -/
structure Waits (w t : RequestWorld ε) (nHandlerId : Int) (request : Request) : Prop where
  entries : ∀ k, t.net.entries k = if k = nHandlerId then w.net.entries k ++ [request] else w.net.entries k
  commands : ∃ d more, Quiet more ∧ d.waits = some (nHandlerId, request) ∧ d.call = request.call ∧
    t.commands = w.commands ++ d :: more
  call : request.call = w.arrived.length
  arrived : t.arrived = w.arrived ++ [request.nSequenceId]
  removals : t.removals = w.removals
  answers : t.answers = w.answers
  spoiled : t.spoiled = w.spoiled

/-- A request was pushed and its entry removed; it was answered with its own id, or not at all.  `extra` is what was
removed besides. -/
structure Served (w t : RequestWorld ε) (request : Request) (extra : List (Option Nat × Option Request)) : Prop where
  entries : ∀ k, t.net.entries k = w.net.entries k
  commands : ∃ more, Quiet more ∧ t.commands = w.commands ++ more
  call : request.call = w.arrived.length
  arrived : t.arrived = w.arrived ++ [request.nSequenceId]
  removals : t.removals = w.removals ++ (some request.call, some request) :: extra
  answers : t.answers = w.answers ∨ t.answers = w.answers ++ [(request.call, request.nSequenceId)]
  spoiled : t.spoiled = w.spoiled

/-- Whatever became of a request, it was in the queue of its connection, and answered with its own id. -/
structure Confined (nHandlerId : Int) (request : Request) (w t : RequestWorld ε) : Prop where
  entries : ∀ k, k ≠ nHandlerId → t.net.entries k = w.net.entries k
  commands : ∃ more, t.commands = w.commands ++ more ∧
    ∀ d ∈ more, d.waits = none ∨ d.waits = some (nHandlerId, request) ∧ d.call = request.call
  arrived : t.arrived = w.arrived
  answers : ∃ more, t.answers = w.answers ++ more ∧ ∀ x ∈ more, x = (request.call, request.nSequenceId)
  spoiled : t.spoiled = w.spoiled

/-- Changes of the queue, and of what is not looked at. -/
theorem Confined.of_entries {net : NetManager} (entries : ∀ k, k ≠ nHandlerId → net.entries k = w.net.entries k)
    (removals : List (Option Nat × Option Request)) :
    Confined nHandlerId request w { w with net := net, removals := removals } where
  entries := entries
  commands := ⟨[], (List.append_nil _).symm, fun _ member => absurd member List.not_mem_nil⟩
  arrived := rfl
  answers := ⟨[], (List.append_nil _).symm, fun _ member => absurd member List.not_mem_nil⟩
  spoiled := rfl

instance : IsPreorder (RequestWorld ε) (Confined nHandlerId request) where
  refl w := .of_entries (fun _ _ => rfl) w.removals
  trans _ _ _ first second := by
    obtain ⟨more, commands, waits⟩ := first.commands
    obtain ⟨more', commands', waits'⟩ := second.commands
    obtain ⟨own, answers, areOwn⟩ := first.answers
    obtain ⟨own', answers', areOwn'⟩ := second.answers
    refine ⟨fun k other => (second.entries k other).trans (first.entries k other), ⟨more ++ more', ?_, ?_⟩,
      second.arrived.trans first.arrived, ⟨own ++ own', ?_, ?_⟩, second.spoiled.trans first.spoiled⟩
    · rw [commands', commands, List.append_assoc]
    · exact List.forall_mem_append.mpr ⟨waits, waits'⟩
    · rw [answers', answers, List.append_assoc]
    · exact List.forall_mem_append.mpr ⟨areOwn, areOwn'⟩

section Functions

/-- The maps of users and connections are not looked at. -/
theorem confined_net {net : RequestWorld ε → NetManager}
    (same : ∀ w, (net w).requestSquence = w.net.requestSquence) :
    Keeps (Confined nHandlerId request) (modify fun w : RequestWorld ε => { w with net := net w }) :=
  Keeps.modify fun w => .of_entries (fun k _ => NetManager.entries_of_requestSquence (same w) k) w.removals

theorem popRequestFromSquence_confined (call : Option Nat) :
    Keeps (Confined nHandlerId request)
      (popRequestFromSquence call (some nHandlerId) : LuaM (RequestWorld ε) Unit) := by
  intro w
  cases queue : w.net.entries nHandlerId with
  | nil =>
      obtain ⟨net, same, run⟩ := exec_popRequestFromSquence_nil call queue
      rw [wp_same, run]
      exact .of_entries (fun k _ => same k) _
  | cons first rest =>
      rw [wp_same, exec_popRequestFromSquence_cons call queue]
      apply Confined.of_entries
      intro k other
      rw [NetManager.entries_withEntries, if_neg other]

theorem sendToGateway_confined :
    Keeps (Confined nHandlerId request)
      (sendToGateway request.call request.nSequenceId (some nHandlerId) : LuaM (RequestWorld ε) Unit) := by
  refine (popRequestFromSquence_confined _).bind fun _ => Keeps.modify fun w => ?_
  exact ⟨fun _ _ => rfl, ⟨[], (List.append_nil _).symm, fun _ member => absurd member List.not_mem_nil⟩, rfl,
    ⟨[_], rfl, fun x member => List.mem_singleton.mp member⟩, rfl⟩

theorem toRedis_confined {calls : List (PendingCall ε)}
    (waits : ∀ d ∈ calls, d.waits = none ∨ d.waits = some (nHandlerId, request) ∧ d.call = request.call) :
    Keeps (Confined nHandlerId request) (toRedis calls) :=
  Keeps.modify fun _ => ⟨fun _ _ => rfl, ⟨calls, rfl, waits⟩, rfl,
    ⟨[], (List.append_nil _).symm, fun _ member => absurd member List.not_mem_nil⟩, rfl⟩

end Functions

/-! ## What becomes of a reply

A reply completes its request, leads to another call for it, or is dropped.
-/

/-- What a reply leads to: nothing, another call, or an answer on a connection. -/
inductive ReplyTurn where
  | silent
  | again
  | answers (nHandlerId : Option Int)
deriving Repr, DecidableEq

/-- The first reply got the first request of a connection removed, and answered it with its own id, or not at all. -/
structure Completed (w t : RequestWorld ε) (d : PendingCall ε) (nHandlerId : Int) (request : Request) : Prop where
  entries : ∀ k, t.net.entries k = if k = nHandlerId then (w.net.entries k).tail else w.net.entries k
  commands : ∃ rest more, w.commands = d :: rest ∧ Quiet more ∧ t.commands = rest ++ more
  arrived : t.arrived = w.arrived
  removals : t.removals = w.removals ++ [(some d.call, some request)]
  answers : t.answers = w.answers ∨ t.answers = w.answers ++ [(d.call, request.nSequenceId)]
  spoiled : t.spoiled = w.spoiled

/-- The first reply led to another call for the same request. -/
structure Again (w t : RequestWorld ε) (d : PendingCall ε) : Prop where
  entries : ∀ k, t.net.entries k = w.net.entries k
  commands : ∃ rest before e more, w.commands = d :: rest ∧ Quiet before ∧ e.waits = d.waits ∧ e.call = d.call ∧
    Quiet more ∧ t.commands = rest ++ (before ++ e :: more)
  arrived : t.arrived = w.arrived
  removals : t.removals = w.removals
  answers : t.answers = w.answers
  spoiled : t.spoiled = w.spoiled

/-- The first reply led to nothing that anyone waits for. -/
structure Dropped (w t : RequestWorld ε) (d : PendingCall ε) : Prop where
  entries : ∀ k, t.net.entries k = w.net.entries k
  commands : ∃ rest more, w.commands = d :: rest ∧ Quiet more ∧ t.commands = rest ++ more
  arrived : t.arrived = w.arrived
  removals : t.removals = w.removals
  answers : t.answers = w.answers
  spoiled : t.spoiled = w.spoiled

section Replies

variable {rest : List (PendingCall ε)} (net : NetManager) (next : w.commands = d :: rest)
  (same : ∀ k, net.entries k = w.net.entries k)

include next same

theorem Completed.of_answer {behind : List Request} (front : w.net.entries nHandlerId = request :: behind) :
    Completed w (({ w with net := net, commands := rest }.remove (some d.call) nHandlerId request behind).answer d.call
      request.nSequenceId) d nHandlerId request where
  entries k := by
    change (net.withEntries nHandlerId behind).entries k = _
    rw [NetManager.entries_withEntries, same]
    split
    · next here => rw [here, front, List.tail_cons]
    · rfl
  commands := ⟨rest, [], next, quiet_nil, (List.append_nil _).symm⟩
  arrived := rfl
  removals := rfl
  answers := Or.inr rfl
  spoiled := rfl

theorem Again.of_issue {before : List (PendingCall ε)} {e : PendingCall ε} (quiet : Quiet before)
    (waits : e.waits = d.waits) (call : e.call = d.call) :
    Again w ({ w with net := net, commands := rest }.issue (before ++ [e])) d where
  entries := same
  commands := ⟨rest, before, e, [], next, quiet, waits, call, quiet_nil, rfl⟩
  arrived := rfl
  removals := rfl
  answers := rfl
  spoiled := rfl

theorem Dropped.of_entries : Dropped w { w with net := net, commands := rest } d where
  entries := same
  commands := ⟨rest, [], next, quiet_nil, (List.append_nil _).symm⟩
  arrived := rfl
  removals := rfl
  answers := rfl
  spoiled := rfl

end Replies

/-! ## Who waits

What each of these outcomes makes of the requests that wait.
-/

theorem awaitedOf_of_waits {more : List (PendingCall ε)} (waits : d.waits = some (nHandlerId, request))
    (quiet : Quiet more) (k : Int) :
    awaitedOf (d :: more) k = if k = nHandlerId then [request] else [] := by
  split
  · next same =>
      subst same
      rw [awaitedOf_cons_self waits, awaitedOf_quiet quiet]
  · next other =>
      rw [awaitedOf_cons_of_ne, awaitedOf_quiet quiet]
      intro request' waits'
      rw [waits] at waits'
      cases waits'
      exact other rfl

/-- The reply that comes first is that of the first request in the queue. -/
theorem awaitedOf_head {rest : List (PendingCall ε)} (waits : d.waits = some (nHandlerId, request)) (k : Int) :
    awaitedOf (d :: rest) k = if k = nHandlerId then request :: awaitedOf rest k else awaitedOf rest k := by
  split
  · next same =>
      subst same
      exact awaitedOf_cons_self waits
  · next other =>
      apply awaitedOf_cons_of_ne
      intro request' waits'
      rw [waits] at waits'
      cases waits'
      exact other rfl

/-- All who wait were pushed with the ids that they have in the queues. -/
def Belonging (w : RequestWorld ε) : Prop := ∀ d ∈ w.commands, d.Belongs w.arrived

theorem belonging_init : Belonging (.init : RequestWorld ε) := fun _ member => absurd member List.not_mem_nil

/-- Calls that were made before or are quiet, however many requests have come since. -/
theorem belonging_append {commands more : List (PendingCall ε)} {arrived : List Int}
    (old : ∀ d ∈ commands, d.Belongs arrived) (quiet : Quiet more) :
    ∀ d ∈ commands ++ more, d.Belongs arrived :=
  List.forall_mem_append.mpr ⟨old, fun d member => .of_quiet (quiet d member)⟩

/-- A call that waits for the request that it was made for. -/
theorem PendingCall.Belongs.of_waits {arrived : List Int} (waits : d.waits = some (nHandlerId, request))
    (call : d.call = request.call) (id : arrived[request.call]? = some request.nSequenceId) : d.Belongs arrived := by
  refine ⟨fun k request' waits' => ?_⟩
  rw [waits] at waits'
  cases waits'
  exact ⟨call.symm, id⟩

theorem Belonging.grow (belonging : Belonging w) (n : Int) : ∀ d ∈ w.commands, d.Belongs (w.arrived ++ [n]) :=
  fun d member => (belonging d member).grow n

/-- What is known of the reply that comes first, and of those behind it. -/
theorem Belonging.head {rest : List (PendingCall ε)} (belonging : Belonging w) (commands : w.commands = d :: rest) :
    d.Belongs w.arrived ∧ ∀ e ∈ rest, e.Belongs w.arrived := by
  unfold Belonging at belonging
  rw [commands] at belonging
  exact List.forall_mem_cons.mp belonging

namespace Waits

theorem newest (waits : Waits w t nHandlerId request) : t.arrived[request.call]? = some request.nSequenceId := by
  rw [waits.arrived, waits.call, List.getElem?_concat_length]

theorem awaited (waits : Waits w t nHandlerId request) (k : Int) :
    awaitedOf t.commands k = awaitedOf w.commands k ++ if k = nHandlerId then [request] else [] := by
  obtain ⟨d, more, quiet, isWaiting, -, commands⟩ := waits.commands
  rw [commands, awaitedOf_append, awaitedOf_of_waits isWaiting quiet]

theorem belonging (waits : Waits w t nHandlerId request) (before : Belonging w) : Belonging t := by
  obtain ⟨d, more, quiet, isWaiting, call, commands⟩ := waits.commands
  intro e member
  rw [commands, List.mem_append, List.mem_cons] at member
  rcases member with old | rfl | isQuiet
  · rw [waits.arrived]
    exact before.grow _ e old
  · exact .of_waits isWaiting call waits.newest
  · exact .of_quiet (quiet e isQuiet)

end Waits

namespace Served

variable {extra : List (Option Nat × Option Request)}

theorem newest (served : Served w t request extra) : t.arrived[request.call]? = some request.nSequenceId := by
  rw [served.arrived, served.call, List.getElem?_concat_length]

theorem awaited (served : Served w t request extra) (k : Int) :
    awaitedOf t.commands k = awaitedOf w.commands k := by
  obtain ⟨more, quiet, commands⟩ := served.commands
  rw [commands, awaitedOf_append, awaitedOf_quiet quiet, List.append_nil]

theorem belonging (served : Served w t request extra) (before : Belonging w) : Belonging t := by
  obtain ⟨more, quiet, commands⟩ := served.commands
  unfold Belonging
  rw [commands, served.arrived]
  exact belonging_append (before.grow _) quiet

end Served

namespace Completed

theorem awaited (completed : Completed w t d nHandlerId request) (waits : d.waits = some (nHandlerId, request))
    (k : Int) :
    awaitedOf w.commands k =
      if k = nHandlerId then request :: awaitedOf t.commands k else awaitedOf t.commands k := by
  obtain ⟨rest, more, commands, quiet, commands'⟩ := completed.commands
  rw [commands, commands', awaitedOf_append, awaitedOf_quiet quiet, List.append_nil, awaitedOf_head waits]

theorem belonging (completed : Completed w t d nHandlerId request) (before : Belonging w) : Belonging t := by
  obtain ⟨rest, more, commands, quiet, commands'⟩ := completed.commands
  unfold Belonging
  rw [commands', completed.arrived]
  exact belonging_append (before.head commands).2 quiet

theorem id (completed : Completed w t d nHandlerId request) (waits : d.waits = some (nHandlerId, request))
    (before : Belonging w) : request.call = d.call ∧ w.arrived[request.call]? = some request.nSequenceId := by
  obtain ⟨rest, more, commands, -⟩ := completed.commands
  exact (before.head commands).1.id nHandlerId request waits

end Completed

namespace Again

/-- The request of the reply goes behind the others. -/
theorem awaited (again : Again w t d) (k : Int) :
    ∃ others, awaitedOf w.commands k = awaitedOf [d] k ++ others ∧ awaitedOf t.commands k = others ++ awaitedOf [d] k := by
  obtain ⟨rest, before, e, more, commands, quiet, sameWaits, -, quiet', commands'⟩ := again.commands
  have sameTurn : awaitedOf [e] k = awaitedOf [d] k := by simp only [awaitedOf, List.filterMap, sameWaits]
  refine ⟨awaitedOf rest k, ?_, ?_⟩
  · rw [commands, ← List.singleton_append, awaitedOf_append]
  · rw [commands', ← List.singleton_append, awaitedOf_append, awaitedOf_append, awaitedOf_append, awaitedOf_quiet quiet,
      awaitedOf_quiet quiet', List.append_nil, List.nil_append, sameTurn]

theorem belonging (again : Again w t d) (held : Belonging w) : Belonging t := by
  obtain ⟨rest, before, e, more, commands, quiet, sameWaits, sameCall, quiet', commands'⟩ := again.commands
  obtain ⟨first, later⟩ := held.head commands
  intro x member
  rw [commands', List.mem_append, List.mem_append, List.mem_cons] at member
  rw [again.arrived]
  rcases member with old | isQuiet | rfl | isQuiet
  · exact later x old
  · exact .of_quiet (quiet x isQuiet)
  · refine ⟨fun k request waits => ?_⟩
    rw [sameWaits] at waits
    rw [sameCall]
    exact first.id k request waits
  · exact .of_quiet (quiet' x isQuiet)

end Again

namespace Dropped

theorem awaited (dropped : Dropped w t d) (k : Int) :
    awaitedOf w.commands k = awaitedOf [d] k ++ awaitedOf t.commands k := by
  obtain ⟨rest, more, commands, quiet, commands'⟩ := dropped.commands
  rw [commands, commands', ← List.singleton_append, awaitedOf_append, awaitedOf_append, awaitedOf_quiet quiet,
    List.append_nil]

theorem belonging (dropped : Dropped w t d) (before : Belonging w) : Belonging t := by
  obtain ⟨rest, more, commands, quiet, commands'⟩ := dropped.commands
  unfold Belonging
  rw [commands', dropped.arrived]
  exact belonging_append (before.head commands).2 quiet

end Dropped

end GameServer.Script
