/-
Module: GameServer.Timer.ExpiryMap
Purpose: What the timing wheel is for, said without wheels: a map from timer ids to the frames they
  expire in, and what every history of that map has in common.
Trusted boundary: none
Main exports: ExpiryMap, ExpiryMap.Step, Steps, Replays, FiresOnce, Replays.firesOnce
-/
import GameServer.Timer.Wheel

namespace GameServer.Timer

/-- The timers that wait, each with its expiry; the ids ever given out; the current frame. -/
structure ExpiryMap where
  waiting : Nat → Option Int
  issued : Nat → Prop
  frame : Nat

namespace ExpiryMap

def init : ExpiryMap where
  waiting _ := none
  issued _ := False
  frame := 0

/-- The map without the timer `id`. -/
def drop (m : ExpiryMap) (id : Nat) : ExpiryMap :=
  { m with waiting := Function.update m.waiting id none }

/-- What may happen.  A timer that is added gets an id that was never used; a callback starts only in
the frame its timer expires in; a frame is finished only when no timer that expires in it waits. -/
inductive Step : ExpiryMap → TimerEvent → ExpiryMap → Prop
  | added {m : ExpiryMap} {id : Nat} (expires : Int) (cycle : Int) (unused : ¬ m.issued id) :
      Step m (.added id expires m.frame cycle)
        { m with
          waiting := Function.update m.waiting id (some expires)
          issued := fun k => k = id ∨ m.issued k }
  | removed (m : ExpiryMap) (id : Nat) : Step m (.removed id) (m.drop id)
  | frame (m : ExpiryMap) : Step m (.frame m.frame) m
  | started {m : ExpiryMap} {id : Nat} (due : m.waiting id = some (m.frame : Int)) :
      Step m (.started id m.frame) (m.drop id)
  | frameDone {m : ExpiryMap} (none_due : ∀ id, m.waiting id ≠ some (m.frame : Int)) :
      Step m (.frameDone m.frame) { m with frame := m.frame + 1 }

/-- Several steps, in order. -/
inductive Steps : ExpiryMap → List TimerEvent → ExpiryMap → Prop
  | nil (m : ExpiryMap) : Steps m [] m
  | cons {m n p : ExpiryMap} {event : TimerEvent} {events : List TimerEvent}
      (head : Step m event n) (tail : Steps n events p) : Steps m (event :: events) p

/-- Histories one after the other. -/
theorem Steps.append {m n p : ExpiryMap} {xs ys : List TimerEvent} (first : Steps m xs n)
    (second : Steps n ys p) : Steps m (xs ++ ys) p := by
  induction first with
  | nil => exact second
  | cons head _ ih => exact .cons head (ih second)

/-- A history can be cut anywhere. -/
theorem Steps.of_append {m p : ExpiryMap} {xs ys : List TimerEvent} (steps : Steps m (xs ++ ys) p) :
    ∃ n, Steps m xs n ∧ Steps n ys p := by
  induction xs generalizing m with
  | nil => exact ⟨m, .nil m, steps⟩
  | cons x xs ih =>
      cases steps with
      | cons head tail =>
          obtain ⟨n, first, second⟩ := ih tail
          exact ⟨n, .cons head first, second⟩

/-- One event more. -/
theorem Steps.snoc {m n p : ExpiryMap} {events : List TimerEvent} {event : TimerEvent}
    (steps : Steps m events n) (last : Step n event p) : Steps m (events ++ [event]) p :=
  steps.append (.cons last (.nil p))

@[simp] theorem drop_waiting_self (m : ExpiryMap) (id : Nat) : (m.drop id).waiting id = none := by
  simp [drop]

theorem drop_waiting_other (m : ExpiryMap) {id k : Nat} (other : k ≠ id) :
    (m.drop id).waiting k = m.waiting k := by
  simp [drop, other]

/-! ## What a step does to one timer

A timer is followed through a history: it waits from the event that adds it to the first one that ends its waiting.
-/

/-- The events that end a timer's waiting. -/
def Ends (id : Nat) (event : TimerEvent) : Prop :=
  event = .removed id ∨ ∃ frame, event = .started id frame

/-- A step leaves a timer that was issued as it is, unless it ends it. -/
theorem Step.waiting_of_issued {m n : ExpiryMap} {event : TimerEvent} (step : Step m event n)
    {id : Nat} (issued : m.issued id) :
    n.issued id ∧ (¬ Ends id event → n.waiting id = m.waiting id) ∧
      (m.waiting id = none → n.waiting id = none) := by
  cases step with
  | @added k expires cycle unused =>
      have other : id ≠ k := fun same => unused (same ▸ issued)
      exact ⟨Or.inr issued, fun _ => by simp [other], fun none => by simpa [other] using none⟩
  | removed k =>
      by_cases same : id = k
      · subst same
        exact ⟨issued, fun stays => absurd (Or.inl rfl) stays, fun _ => by simp⟩
      · exact ⟨issued, fun _ => drop_waiting_other m same,
          fun none => (drop_waiting_other m same).trans none⟩
  | frame => exact ⟨issued, fun _ => rfl, fun none => none⟩
  | @started k due =>
      by_cases same : id = k
      · subst same
        exact ⟨issued, fun stays => absurd (Or.inr ⟨_, rfl⟩) stays, fun _ => by simp⟩
      · exact ⟨issued, fun _ => drop_waiting_other m same,
          fun none => (drop_waiting_other m same).trans none⟩
  | frameDone none_due => exact ⟨issued, fun _ => rfl, fun none => none⟩

/-- A timer whose waiting is ended waits no more. -/
theorem Step.waiting_of_ends {m n : ExpiryMap} {event : TimerEvent} (step : Step m event n) {id : Nat}
    (ends : Ends id event) : n.waiting id = none := by
  rcases ends with rfl | ⟨frame, rfl⟩
  · cases step
    simp
  · cases step
    simp

/-- A timer that waits goes on waiting until something ends it. -/
theorem Steps.waiting_eq {m n : ExpiryMap} {events : List TimerEvent} (steps : Steps m events n)
    {id : Nat} (issued : m.issued id) (quiet : ∀ event ∈ events, ¬ Ends id event) :
    n.issued id ∧ n.waiting id = m.waiting id := by
  induction steps with
  | nil => exact ⟨issued, rfl⟩
  | cons head _ ih =>
      obtain ⟨issuedNext, same, -⟩ := head.waiting_of_issued issued
      obtain ⟨issuedEnd, sameEnd⟩ :=
        ih issuedNext fun event member => quiet event (List.mem_cons_of_mem _ member)
      exact ⟨issuedEnd, sameEnd.trans (same (quiet _ (List.mem_cons_self ..)))⟩

/-- Ids that were given out stay so. -/
theorem Steps.issued {m n : ExpiryMap} {events : List TimerEvent} (steps : Steps m events n) {id : Nat}
    (issued : m.issued id) : n.issued id := by
  induction steps with
  | nil => exact issued
  | cons head _ ih => exact ih (head.waiting_of_issued issued).1

/-- A timer that waits no more never waits again. -/
theorem Steps.waiting_none {m n : ExpiryMap} {events : List TimerEvent} (steps : Steps m events n)
    {id : Nat} (issued : m.issued id) (idle : m.waiting id = none) : n.waiting id = none := by
  induction steps with
  | nil => exact idle
  | cons head _ ih =>
      obtain ⟨issuedNext, -, stays⟩ := head.waiting_of_issued issued
      exact ih issuedNext (stays idle)

/-- After an event that ends a timer, it waits no more. -/
theorem Steps.waiting_none_of_mem {m n : ExpiryMap} {events : List TimerEvent}
    (steps : Steps m events n) {id : Nat} (issued : m.issued id) {event : TimerEvent}
    (member : event ∈ events) (ends : Ends id event) : n.waiting id = none := by
  obtain ⟨before, after, rfl⟩ := List.append_of_mem member
  obtain ⟨p, first, rest⟩ := steps.of_append
  cases rest with
  | cons head tail =>
      have issuedThere := (head.waiting_of_issued (first.issued issued)).1
      exact tail.waiting_none issuedThere (head.waiting_of_ends ends)

/-- A timer that still waits waits for what it always waited for. -/
theorem Steps.waiting_of_some {m n : ExpiryMap} {events : List TimerEvent} (steps : Steps m events n)
    {id : Nat} (issued : m.issued id) {expires : Int} (waits : n.waiting id = some expires) :
    m.waiting id = some expires ∧ ∀ event ∈ events, ¬ Ends id event := by
  have quiet : ∀ event ∈ events, ¬ Ends id event := by
    intro event member ends
    rw [steps.waiting_none_of_mem issued member ends] at waits
    exact absurd waits (by simp)
  exact ⟨(steps.waiting_eq issued quiet).2 ▸ waits, quiet⟩

/-- A timer that is started was waiting for that frame, nothing has ended its waiting before, and it is not started
again. -/
theorem Steps.waiting_at {m n : ExpiryMap} {between rest : List TimerEvent} {id g : Nat}
    (steps : Steps m (between ++ .started id g :: rest) n) (issued : m.issued id) :
    m.waiting id = some (g : Int) ∧ (∀ event ∈ between, ¬ Ends id event) ∧
      ∀ h, .started id h ∉ rest := by
  obtain ⟨p, mid, later⟩ := steps.of_append
  cases later with
  | @cons _ q _ _ _ start final =>
      have due : p.waiting id = some (g : Int) := by
        cases start with
        | started due => exact due
      obtain ⟨waits, quiet⟩ := mid.waiting_of_some issued due
      refine ⟨waits, quiet, fun h again => ?_⟩
      have issuedAfter := (start.waiting_of_issued (mid.issued issued)).1
      obtain ⟨xs, ys, rfl⟩ := List.append_of_mem again
      obtain ⟨r, more, last⟩ := final.of_append
      have finished := more.waiting_none issuedAfter (start.waiting_of_ends (Or.inr ⟨g, rfl⟩))
      cases last with
      | cons restart _ =>
          cases restart with
          | started dueAgain => exact absurd (dueAgain.symm.trans finished) (by simp)

/-- A callback is started only for an id that was issued. -/
theorem Steps.not_started {m n : ExpiryMap} {events : List TimerEvent} (steps : Steps m events n)
    {id : Nat} (waitingIssued : ∀ k, m.waiting k ≠ none → m.issued k) (unissued : ¬ n.issued id)
    (frame : Nat) : .started id frame ∉ events := by
  induction steps with
  | nil => simp
  | @cons m n p event events head tail ih =>
      have unissuedHere : ¬ m.issued id := by
        intro issued
        exact unissued (tail.issued (head.waiting_of_issued issued).1)
      have waitingNext : ∀ k, n.waiting k ≠ none → n.issued k := by
        intro k waits
        by_cases issued : m.issued k
        · exact (head.waiting_of_issued issued).1
        · have idle : m.waiting k = none := by
            by_contra waitsHere
            exact issued (waitingIssued k waitsHere)
          cases head with
          | @added j expires cycle unused =>
              by_cases same : k = j
              · exact Or.inl same
              · exact absurd (by simpa [same] using idle) waits
          | removed j =>
              by_cases same : k = j
              · exact absurd (by simp [same]) waits
              · exact absurd ((drop_waiting_other m same).trans idle) waits
          | frame => exact absurd idle waits
          | @started j due =>
              by_cases same : k = j
              · exact absurd (by simp [same]) waits
              · exact absurd ((drop_waiting_other m same).trans idle) waits
          | frameDone none_due => exact absurd idle waits
      intro member
      rcases List.mem_cons.mp member with rfl | later
      · cases head with
        | started due => exact unissuedHere (waitingIssued id (by simp [due]))
      · exact ih waitingNext unissued later

end ExpiryMap

/-! ## Histories

What every history of the map says of each of its timers.
-/

/-- The events are a history of the map, which ends as `m`. -/
def Replays (trace : List TimerEvent) (m : ExpiryMap) : Prop := ExpiryMap.Steps .init trace m

/-- Every timer that was added is started at most once, only in the frame it expires in, and only when
it was not removed since it was added; and by the end of that frame it has been started or removed. -/
def FiresOnce (trace : List TimerEvent) : Prop :=
  ∀ before after id expires frame cycle,
    trace = before ++ .added id expires frame cycle :: after →
      (∀ g, .started id g ∉ before) ∧
      (∀ between rest (g : Nat), after = between ++ .started id g :: rest →
        (g : Int) = expires ∧ .removed id ∉ between ∧
          ∀ h, .started id h ∉ between ∧ .started id h ∉ rest) ∧
      (∀ between rest (g : Nat), after = between ++ .frameDone g :: rest → (g : Int) = expires →
        .removed id ∈ between ∨ .started id g ∈ between)

open ExpiryMap

/-- Every history of the map fires every timer once. -/
theorem Replays.firesOnce {trace : List TimerEvent} {m : ExpiryMap} (replays : Replays trace m) :
    FiresOnce trace := by
  rintro before after id expires frame cycle rfl
  obtain ⟨n, first, rest⟩ := Steps.of_append replays
  cases rest with
  | @cons _ added _ _ _ head tail =>
      have added_spec : ¬ n.issued id ∧ added.issued id ∧ added.waiting id = some expires := by
        cases head with
        | added expires cycle unused => exact ⟨unused, Or.inl rfl, by simp⟩
      obtain ⟨unused, issued, waits⟩ := added_spec
      refine ⟨?_, ?_, ?_⟩
      · exact first.not_started (fun k waiting => absurd rfl waiting) unused
      · rintro between rest g rfl
        obtain ⟨due, quiet, once⟩ := tail.waiting_at issued
        rw [waits] at due
        refine ⟨(Option.some.inj due).symm, fun removed => quiet _ removed (Or.inl rfl), fun h => ?_⟩
        exact ⟨fun started => quiet _ started (Or.inr ⟨h, rfl⟩), once h⟩
      · rintro between rest g rfl atExpiry
        obtain ⟨p, mid, later⟩ := tail.of_append
        by_contra neither
        rw [not_or] at neither
        have quiet : ∀ event ∈ between, ¬ Ends id event := by
          rintro event member (rfl | ⟨h, rfl⟩)
          · exact neither.1 member
          · -- a start is in the frame of expiry, which is this one
            obtain ⟨xs, ys, rfl⟩ := List.append_of_mem member
            have due := (mid.waiting_at issued).1
            rw [waits] at due
            have sameFrame : h = g := by exact_mod_cast (Option.some.inj due).symm.trans atExpiry.symm
            exact neither.2 (sameFrame ▸ member)
        have still := (mid.waiting_eq issued quiet).2
        cases later with
        | cons done _ =>
            cases done with
            | frameDone none_due => exact none_due id (by rw [still, waits, atExpiry])

end GameServer.Timer
