/-
Module: GameServer.Timer.RemovedTimers
Purpose: A timer that was removed is not started again, in every run in which no callback of a cyclic timer removes its
  own timer and returns true.
Trusted boundary: none
Main exports: Issued, RemovedIn, Dead, KeepsItself, Runs.calling, removed_timers_dead
-/
import GameServer.Timer.Moves

namespace GameServer.Timer

open Lib Lib.LuaM TimerState

variable {κ W : Type}

section AnyTime

variable [Arithmetic]

/-! ## Histories

A removal counts for a timer only after it was added: ids are given out once, but `remove_timer` may be called with an
id before.
-/

def Issued (trace : List TimerEvent) (id : Nat) : Prop := ∃ expires frame cycle, .added id expires frame cycle ∈ trace

/-- The timer was added, and `remove_timer` was called for it later. -/
def RemovedIn (trace : List TimerEvent) (id : Nat) : Prop :=
  ∃ before after, trace = before ++ .removed id :: after ∧ Issued before id

/-- No timer is started after it was removed. -/
def Dead (trace : List TimerEvent) : Prop :=
  ∀ before after id, trace = before ++ .removed id :: after → Issued before id → ∀ frame, .started id frame ∉ after

omit [Arithmetic] in
/-- An id that was given out stays so. -/
theorem Issued.append {trace : List TimerEvent} {id : Nat} (issued : Issued trace id) (event : TimerEvent) :
    Issued (trace ++ [event]) id := by
  obtain ⟨expires, frame, cycle, member⟩ := issued
  exact ⟨expires, frame, cycle, List.mem_append_left _ member⟩

omit [Arithmetic] in
/-- What was removed had been added. -/
theorem RemovedIn.issued {trace : List TimerEvent} {id : Nat} (removed : RemovedIn trace id) : Issued trace id := by
  obtain ⟨before, after, rfl, expires, frame, cycle, member⟩ := removed
  exact ⟨expires, frame, cycle, List.mem_append_left _ member⟩

omit [Arithmetic] in
/-- The last event removes a timer, or it was removed before. -/
theorem removedIn_append {trace : List TimerEvent} {event : TimerEvent} {id : Nat}
    (removed : RemovedIn (trace ++ [event]) id) : RemovedIn trace id ∨ (event = .removed id ∧ Issued trace id) := by
  obtain ⟨before, after, split, issued⟩ := removed
  rcases append_singleton_split split with ⟨rfl, rfl, same⟩ | ⟨rest, rfl, rfl⟩
  · exact Or.inr ⟨same, issued⟩
  · exact Or.inl ⟨before, rest, rfl, issued⟩

omit [Arithmetic] in
/-- A history stays one in which removed timers are dead, when its next event starts none of them. -/
theorem Dead.append {trace : List TimerEvent} {event : TimerEvent} (dead : Dead trace)
    (alive : ∀ id frame, event = .started id frame → ¬ RemovedIn trace id) : Dead (trace ++ [event]) := by
  intro before after id split issued frame member
  rcases append_singleton_split split with ⟨rfl, rfl, same⟩ | ⟨rest, rfl, rfl⟩
  · simp at member
  · rcases List.mem_append.mp member with earlier | isLast
    · exact dead before rest id rfl issued frame earlier
    · exact alive id frame (List.mem_singleton.mp isLast).symm ⟨before, rest, rfl, issued⟩

/-! ## Runs

In a run that keeps to the condition a removed timer is in no slot, and the callback that runs will not put it in
again.
-/

/-- The callback that runs is not that of a cyclic timer which removes its own timer and returns true. -/
def KeepsItself (p : Point κ W) : Prop :=
  match p.mode with
  | .calling _ timer ops result _ => 0 < timer.cycle → result = some true → .remove timer.id ∉ ops
  | _ => True

/-- What is true of the calls and the result of every callback is true at every point in a callback. -/
theorem Runs.calling {env : TimerEnv κ W} {P : TimerInfo κ → List (TimerOp κ) → Option Bool → Prop}
    (whole : ∀ timer s, P timer (env.callback timer.callback timer.id s).ops
      (env.callback timer.callback timer.id s).result)
    (rest : ∀ timer op ops result, P timer (op :: ops) result → P timer ops result) {s : TimerState κ W}
    {calls : List (TimerCall κ)} {q : Point κ W} (runs : Runs env ⟨.outside, s⟩ calls q) :
    match q.mode with
    | .calling _ timer ops result _ => P timer ops result
    | _ => True := by
  refine runs.invariant (I := fun q => match q.mode with
    | .calling _ timer ops result _ => P timer ops result
    | _ => True) trivial (fun s call _ => ?_) fun before q r _ _ inv step => ?_
  · cases call with
    | update elapse => trivial
    | op op => trivial
  · cases step with
    | stop less => trivial
    | begin more begun inside => trivial
    | beginRaised more raised => trivial
    | noSlot more begun beyond => trivial
    | gone none => trivial
    | start found called =>
        subst called
        exact whole _ _
    | op done => exact rest _ _ _ _ inv
    | opRaised raised => trivial
    | raised => trivial
    | returned done => trivial
    | notStored raised => trivial
    | frameDone => trivial

/-- Removed timers are dead so far, they are in no slot, and a callback of one that runs does not put it in again. -/
structure DeadSoFar (p : Point κ W) : Prop where
  dead : Dead p.state.trace
  known : ∀ id, Issued p.state.trace id → id ≤ p.state.timerCounter
  away : ∀ x, InWheels p.state x → ¬ RemovedIn p.state.trace x.id
  held : match p.mode with
    | .calling _ timer _ result _ => 0 < timer.cycle → result = some true → ¬ RemovedIn p.state.trace timer.id
    | _ => True

section DeadSoFar

variable {s t : TimerState κ W} {mode mode' : Mode κ}

omit [Arithmetic] in
/-- An id is given out by the event that adds its timer. -/
theorem Issued.of_append {trace : List TimerEvent} {event : TimerEvent} {id : Nat}
    (issued : Issued (trace ++ [event]) id) :
    Issued trace id ∨ ∃ expires frame cycle, event = .added id expires frame cycle := by
  obtain ⟨expires, frame, cycle, member⟩ := issued
  rcases List.mem_append.mp member with earlier | isLast
  · exact Or.inl ⟨expires, frame, cycle, earlier⟩
  · exact Or.inr ⟨expires, frame, cycle, (List.mem_singleton.mp isLast).symm⟩

omit [Arithmetic] in
/-- An event that neither adds, removes nor starts a timer, and nothing comes into the slots. -/
theorem DeadSoFar.event (inv : DeadSoFar ⟨mode, s⟩) {event : TimerEvent} (trace : t.trace = s.trace ++ [event])
    (counter : t.timerCounter = s.timerCounter) (back : ∀ x, InWheels t x → InWheels s x)
    (quiet : ∀ id, event ≠ .removed id ∧ (∀ frame, event ≠ .started id frame) ∧
      ∀ expires frame cycle, event ≠ .added id expires frame cycle)
    (held : match mode' with
      | .calling _ timer _ result _ => 0 < timer.cycle → result = some true → ¬ RemovedIn t.trace timer.id
      | _ => True) : DeadSoFar ⟨mode', t⟩ where
  dead := by
    change Dead t.trace
    rw [trace]
    exact inv.dead.append fun id frame same => absurd same ((quiet id).2.1 frame)
  known id issued := by
    change Issued t.trace id at issued
    change id ≤ t.timerCounter
    rw [trace] at issued
    rw [counter]
    rcases issued.of_append with earlier | ⟨expires, frame, cycle, same⟩
    · exact inv.known id earlier
    · exact absurd same ((quiet id).2.2 expires frame cycle)
  away x there removed := by
    change RemovedIn t.trace x.id at removed
    rw [trace] at removed
    rcases removedIn_append removed with earlier | ⟨same, -⟩
    · exact inv.away x (back x there) earlier
    · exact (quiet x.id).1 same
  held := held

omit [Arithmetic] in
/-- Adding a timer brings no removed one back. -/
theorem DeadSoFar.adds (inv : DeadSoFar ⟨mode, s⟩) {info : TimerInfo κ} (idEq : info.id = s.timerCounter + 1)
    (adds : Adds s info t) (held : match mode' with
      | .calling _ timer _ result _ => 0 < timer.cycle → result = some true → ¬ RemovedIn s.trace timer.id
      | _ => True) : DeadSoFar ⟨mode', t⟩ := by
  have earlier : ∀ id, RemovedIn t.trace id → RemovedIn s.trace id := by
    intro id removed
    rw [adds.trace] at removed
    rcases removedIn_append removed with earlier | ⟨same, -⟩
    · exact earlier
    · exact absurd same (by simp)
  refine ⟨?_, fun id issued => ?_, fun x there removed => ?_, ?_⟩
  · change Dead t.trace
    rw [adds.trace]
    exact inv.dead.append fun id frame same => absurd same (by simp)
  · change Issued t.trace id at issued
    change id ≤ t.timerCounter
    rw [adds.trace] at issued
    rw [adds.counter]
    rcases issued.of_append with before | ⟨expires, frame, cycle, same⟩
    · exact Nat.le_succ_of_le (inv.known id before)
    · obtain ⟨rfl, -⟩ := TimerEvent.added.inj same
      omega
  · obtain ⟨w, i, member⟩ := there
    rcases (adds.members w i x).mp member with before | ⟨rfl, -⟩
    · exact inv.away x ⟨w, i, before⟩ (earlier _ removed)
    · have known := inv.known x.id (earlier _ removed).issued
      change x.id ≤ s.timerCounter at known
      omega
  · cases mode' with
    | calling w timer ops result todo => exact fun cyclic returns removed => held cyclic returns (earlier _ removed)
    | outside => trivial
    | turning => trivial
    | visiting w todo => trivial

omit [Arithmetic] in
/-- Removing one takes it out of the wheels. -/
theorem DeadSoFar.removes (inv : DeadSoFar ⟨mode, s⟩) {id : Nat} (removes : Removes s id t) (held : match mode' with
      | .calling _ timer _ result _ =>
          0 < timer.cycle → result = some true → ¬ RemovedIn s.trace timer.id ∧ timer.id ≠ id
      | _ => True) : DeadSoFar ⟨mode', t⟩ := by
  have earlier : ∀ k, RemovedIn t.trace k → RemovedIn s.trace k ∨ k = id := by
    intro k removed
    rw [removes.trace] at removed
    rcases removedIn_append removed with earlier | ⟨same, -⟩
    · exact Or.inl earlier
    · exact Or.inr (TimerEvent.removed.inj same).symm
  refine ⟨?_, fun k issued => ?_, fun x there removed => ?_, ?_⟩
  · change Dead t.trace
    rw [removes.trace]
    exact inv.dead.append fun id frame same => absurd same (by simp)
  · change Issued t.trace k at issued
    change k ≤ t.timerCounter
    rw [removes.trace] at issued
    rw [removes.counter]
    rcases issued.of_append with before | ⟨expires, frame, cycle, same⟩
    · exact inv.known k before
    · exact absurd same (by simp)
  · obtain ⟨w, i, member⟩ := there
    obtain ⟨before, other⟩ := (removes.members w i x).mp member
    rcases earlier _ removed with already | same
    · exact inv.away x ⟨w, i, before⟩ already
    · exact other same
  · cases mode' with
    | calling w timer ops result todo =>
        intro cyclic returns removed
        obtain ⟨alive, other⟩ := held cyclic returns
        rcases earlier _ removed with already | same
        · exact alive already
        · exact other same
    | outside => trivial
    | turning => trivial
    | visiting w todo => trivial

omit [Arithmetic] in
theorem DeadSoFar.withMode (inv : DeadSoFar ⟨mode, s⟩) (held : match mode' with
      | .calling _ timer _ result _ => 0 < timer.cycle → result = some true → ¬ RemovedIn s.trace timer.id
      | _ => True) : DeadSoFar ⟨mode', s⟩ :=
  ⟨inv.dead, inv.known, inv.away, held⟩

omit [Arithmetic] in
theorem Moved.inWheels (moved : Moved s [] t) {x : TimerInfo κ} (there : InWheels t x) : InWheels s x :=
  moved.back x (Or.inr there)

/-- A frame that is begun brings no timer back. -/
theorem DeadSoFar.opens (inv : DeadSoFar ⟨mode, s⟩) (moved : Moved (frameBegun s) [] t) (held : match mode' with
      | .calling _ timer _ result _ => 0 < timer.cycle → result = some true → ¬ RemovedIn t.trace timer.id
      | _ => True) : DeadSoFar ⟨mode', t⟩ :=
  inv.event moved.history.1 moved.history.2 (fun _ there => moved.inWheels there)
    (fun _ => ⟨by simp, by simp, by simp⟩) held

omit [Arithmetic] in
/-- The callback of a timer that is in a slot starts. -/
theorem DeadSoFar.start (inv : DeadSoFar ⟨mode, s⟩) {timer : TimerInfo κ} {w : Nat} (there : timer ∈ s.slot 0 w)
    (w' : Nat) (ops : List (TimerOp κ)) (result : Option Bool) (todo : List Nat) (world : W) :
    DeadSoFar ⟨.calling w' timer ops result todo, { atCall timer s with world := world }⟩ := by
  have alive := inv.away timer ⟨0, w, there⟩
  have earlier : ∀ id, RemovedIn (s.trace ++ [.started timer.id s.vCurrentFrameIdx]) id → RemovedIn s.trace id := by
    intro id removed
    exact (removedIn_append removed).resolve_right fun last => absurd last.1 (by simp)
  refine ⟨inv.dead.append fun id frame same => ?_, fun id issued => ?_, fun x there removed => ?_,
    fun _ _ removed => ?_⟩
  · obtain ⟨rfl, -⟩ := TimerEvent.started.inj same
    exact alive
  · rcases issued.of_append with before | ⟨expires, frame, cycle, same⟩
    · exact inv.known id before
    · exact absurd same (by simp)
  · exact inv.away x there (earlier x.id removed)
  · exact alive (earlier timer.id removed)

omit [Arithmetic] in
/-- A callback returns: only a cyclic timer that was not removed comes back. -/
theorem DeadSoFar.returned {timer : TimerInfo κ} {result : Bool} {w : Nat} {ops : List (TimerOp κ)} {todo : List Nat}
    (inv : DeadSoFar ⟨.calling w timer ops (some result) todo, s⟩) (finishes : Finishes s timer result t) (w' : Nat)
    (todo' : List Nat) : DeadSoFar ⟨.visiting w' todo', t⟩ := by
  obtain ⟨trace, counter⟩ := finishes.history
  refine ⟨?_, fun id issued => ?_, fun x there removed => ?_, trivial⟩
  · change Dead t.trace
    rw [trace]
    exact inv.dead
  · change Issued t.trace id at issued
    change id ≤ t.timerCounter
    rw [trace] at issued
    rw [counter]
    exact inv.known id issued
  · change RemovedIn t.trace x.id at removed
    rw [trace] at removed
    obtain ⟨v, i, member⟩ := there
    rcases (finishes.members v i x).mp member with ⟨before, -⟩ | ⟨cyclic, rfl, rfl, -⟩
    · exact inv.away x ⟨v, i, before⟩ removed
    · exact inv.held cyclic rfl removed

end DeadSoFar

section Runs

variable {env : TimerEnv κ W}

/-- What holds between calls holds at the start of the next one. -/
theorem deadSoFar_callPoint {s : TimerState κ W} {phase : Phase} (call : TimerCall κ) (rests : Rests phase s)
    (inv : DeadSoFar ⟨.outside, s⟩) : DeadSoFar (callPoint s call) := by
  cases call with
  | update elapse => exact ⟨inv.dead, inv.known, inv.away, trivial⟩
  | op op =>
      cases op with
      | add expires cb cycle => exact inv.adds rfl (applyAdd_exec rests expires cb cycle) trivial
      | remove id => exact inv.removes (applyRemove_exec rests id) trivial

/-- The step lemma. -/
theorem deadSoFar_moves {p q : Point κ W} (keeps : KeepsItself p) (inv : DeadSoFar p) (moves : Moves env p q) :
    DeadSoFar q := by
  cases moves with
  | stop less => exact inv.withMode trivial
  | begin more moved ids visited => exact inv.opens moved trivial
  | beginRaised more moved fifty => exact inv.opens moved trivial
  | gone none => exact inv.withMode trivial
  | start there called => exact inv.start there _ _ _ _ _
  | add adds slot => exact inv.adds rfl adds inv.held
  | remove removes =>
      refine inv.removes removes fun cyclic returns => ⟨inv.held cyclic returns, fun same => ?_⟩
      exact keeps cyclic returns (same ▸ List.mem_cons_self ..)
  | raised =>
      exact inv.event rfl rfl (fun _ there => there) (fun _ => ⟨by simp, by simp, by simp⟩) trivial
  | returned finishes => exact inv.returned finishes _ _
  | @frameDone s w =>
      refine inv.event rfl rfl ?_ (fun _ => ⟨by simp, by simp, by simp⟩) trivial
      rintro x ⟨v, i, member⟩
      exact ⟨v, i, slot_setIndex _ 0 v _ i ▸ member⟩

end Runs

/-- A timer that was removed is never started again, at whatever point of a run it was removed, when no callback of a
cyclic timer removes its own timer and returns true. -/
theorem removed_timers_dead (env : TimerEnv κ W) (world : W) (calls : List (TimerCall κ))
    (keeps : ∀ before p, before <+: calls → Runs env ⟨.outside, .init world⟩ before p → KeepsItself p) :
    Dead (calls.foldl (stateAfter env) (TimerState.init world)).trace := by
  have start : DeadSoFar (⟨.outside, .init world⟩ : Point κ W) := by
    refine ⟨?_, ?_, ?_, trivial⟩
    · rintro before after id split
      exact absurd split (by simp [TimerState.init])
    · rintro id ⟨expires, frame, cycle, member⟩
      exact absurd member (by simp [TimerState.init])
    · rintro x - ⟨before, after, split, -⟩
      exact absurd split (by simp [TimerState.init])
  have orderly : Orderly (⟨.outside, .init world⟩ : Point κ W) := ⟨.fresh, rests_init world⟩
  have last := (runs_of_calls (rests_init world) calls).keeps orderly start
    (fun s phase call rests inv => deadSoFar_callPoint call rests inv)
    fun before q r isPrefix runs _ _ inv moves => deadSoFar_moves (keeps before q isPrefix runs) inv moves
  exact last.dead

end AnyTime

/-- The callbacks remove their own timer, and return the given value. -/
def resigningEnv (result : Bool) : TimerEnv Nat (List Nat) :=
  .inOrder fun _ id s =>
    { world := id :: s.world, ops := [.remove id], result := some result }

/-- A cyclic timer that removes itself in its first call. -/
def resigningCalls : List (TimerCall Nat) := [.op (.add (1 / 10) 1 1), .update (7 / 20)]

section Doubles

open scoped DoubleArithmetic

/-- A timer that removes itself and returns false is not started again. -/
theorem removed_timers_dead_resigning :
    Dead (resigningCalls.foldl (stateAfter (resigningEnv false)) (TimerState.init [])).trace := by
  refine removed_timers_dead (resigningEnv false) [] resigningCalls fun before p _ runs => ?_
  have returned := runs.calling (P := fun _ _ result => result ≠ some true)
    (fun _ _ => by simp [resigningEnv, TimerEnv.inOrder]) fun _ _ _ _ other => other
  unfold KeepsItself
  cases mode : p.mode with
  | calling w timer ops result todo =>
      rw [mode] at returned
      intro _ isTrue
      exact absurd isTrue returned
  | outside => trivial
  | turning => trivial
  | visiting w todo => trivial

/-- A callback that removes its own cyclic timer and returns true is started again in the next frame. -/
theorem resigning_timer_comes_back :
    ¬ Dead (resigningCalls.foldl (stateAfter (resigningEnv true)) (TimerState.init [])).trace := by
  intro dead
  have history : (resigningCalls.foldl (stateAfter (resigningEnv true)) (TimerState.init [])).trace =
      [.added 2 1 0 1, .frame 0, .frameDone 0, .frame 1, .started 2 1] ++ .removed 2 ::
        [.frameDone 1, .frame 2, .started 2 2, .removed 2, .frameDone 2] := by
    decide +kernel
  exact dead _ _ 2 history ⟨1, 0, 1, by simp⟩ 2 (by simp)

end Doubles

end GameServer.Timer
