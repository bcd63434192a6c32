/-
Module: GameServer.Timer.NewTimers
Purpose: Where a timer stands that has just been added, between calls or in a callback; that a timer in no slot is never
  started; and that time stays positive and the barrier down.
Trusted boundary: none
Main exports: Forward, Calm, Absent, Absent.not_started, Adds.outside, Adds.inside, Runs.elapse_nonneg, Lowered,
  Runs.lowered
-/
import GameServer.Timer.Schedule

namespace GameServer.Timer

open Lib Lib.LuaM TimerState
open Arithmetic (rounding)

variable {κ W : Type} [Arithmetic]

/-! ## Calls and histories

Results about time need calls that bring some; results about every timer need callbacks that return.
-/

/-- Every call of `update` is passed a positive value. -/
def Forward (calls : List (TimerCall κ)) : Prop := ∀ x, .update x ∈ calls → 0 < x

/-- No callback has raised. -/
def Calm (trace : List TimerEvent) : Prop := ∀ id, .raised id ∉ trace

omit [Arithmetic] in
theorem forward_append {first second : List (TimerCall κ)} :
    Forward (first ++ second) ↔ Forward first ∧ Forward second := by
  simp only [Forward, List.mem_append]
  constructor
  · intro forward
    exact ⟨fun x member => forward x (Or.inl member), fun x member => forward x (Or.inr member)⟩
  · rintro ⟨one, two⟩ x (member | member)
    · exact one x member
    · exact two x member

omit [Arithmetic] in
/-- What is calm was calm before. -/
theorem Calm.of_append {before after : List TimerEvent} (calm : Calm (before ++ after)) : Calm before :=
  fun id member => calm id (List.mem_append_left _ member)

omit [Arithmetic] in
theorem Calm.grown {before after : List TimerEvent} {event : TimerEvent} (calm : Calm before)
    (grown : after = before ++ [event]) (quiet : ∀ id, event ≠ .raised id) : Calm after := by
  intro id member
  rw [grown] at member
  rcases List.mem_append.mp member with early | last
  · exact calm id early
  · exact quiet id (List.mem_singleton.mp last).symm

def Mode.isCall : Mode κ → Prop
  | .calling _ _ _ _ _ => True
  | _ => False

/-! ## Timers in no slot

A timer that is not in the wheels, and whose callback does not run, never comes back: ids are given out once.
-/

/-- The timer is in no slot, and its callback does not run. -/
def Absent (id : Nat) (p : Point κ W) : Prop :=
  id ≤ p.state.timerCounter ∧ (∀ x, InWheels p.state x → x.id ≠ id) ∧
    match p.mode with
    | .calling _ running _ _ _ => running.id ≠ id
    | _ => True

section Absent

variable {env : TimerEnv κ W} {id : Nat} {p q : Point κ W} {s t : TimerState κ W} {mode mode' : Mode κ}

omit [Arithmetic] in
/-- A new timer has a new id. -/
theorem Absent.adds (absent : Absent id ⟨mode, s⟩) {info : TimerInfo κ} (new : info.id = s.timerCounter + 1)
    (adds : Adds s info t) (running : match mode' with
      | .calling _ running _ _ _ => running.id ≠ id
      | _ => True) : Absent id ⟨mode', t⟩ := by
  obtain ⟨known, away, -⟩ := absent
  change id ≤ s.timerCounter at known
  refine ⟨?_, ?_, running⟩
  · change id ≤ t.timerCounter
    rw [adds.counter]
    exact Nat.le_succ_of_le known
  · rintro x ⟨w, i, member⟩
    rcases (adds.members w i x).mp member with before | ⟨rfl, -⟩
    · exact away x ⟨w, i, before⟩
    · omega

omit [Arithmetic] in
/-- A removal brings nothing back. -/
theorem Absent.removes (absent : Absent id ⟨mode, s⟩) {k : Nat} (removes : Removes s k t) (running : match mode' with
      | .calling _ running _ _ _ => running.id ≠ id
      | _ => True) : Absent id ⟨mode', t⟩ := by
  obtain ⟨known, away, -⟩ := absent
  refine ⟨?_, ?_, running⟩
  · change id ≤ t.timerCounter
    rw [removes.counter]
    exact known
  · rintro x ⟨w, i, member⟩
    exact away x ⟨w, i, ((removes.members w i x).mp member).1⟩

/-- Nor does any call from outside, before it goes on. -/
theorem Absent.callPoint {phase : Phase} (rests : Rests phase s) (absent : Absent id ⟨.outside, s⟩)
    (call : TimerCall κ) : Absent id (callPoint s call) ∧
      ∃ events, (callPoint s call).state.trace = s.trace ++ events ∧ ∀ frame, .started id frame ∉ events := by
  cases call with
  | update elapse => exact ⟨absent, [], (List.append_nil _).symm, fun _ => by simp⟩
  | op op =>
      cases op with
      | add expires cb cycle =>
          have adds := applyAdd_exec rests expires cb cycle
          exact ⟨absent.adds rfl adds trivial, _, adds.trace, fun _ => by simp⟩
      | remove k =>
          have removes := applyRemove_exec rests k
          exact ⟨absent.removes removes trivial, _, removes.trace, fun _ => by simp⟩

/-- A timer that is gone stays away, and is not started. -/
theorem Absent.moves (absent : Absent id p) (moves : Moves env p q) :
    Absent id q ∧ ∃ events, q.state.trace = p.state.trace ++ events ∧ ∀ frame, .started id frame ∉ events := by
  have ⟨known, away, running⟩ := absent
  cases moves with
  | stop less => exact ⟨absent, [], (List.append_nil _).symm, fun _ => by simp⟩
  | begin more moved ids visited =>
      refine ⟨⟨?_, fun x there => away x (moved.back x (Or.inr there)), trivial⟩, [.frame _], moved.history.1,
        fun _ => by simp⟩
      exact known.trans_eq moved.history.2.symm
  | beginRaised more moved fifty =>
      refine ⟨⟨?_, fun x there => away x (moved.back x (Or.inr there)), trivial⟩, [.frame _], moved.history.1,
        fun _ => by simp⟩
      exact known.trans_eq moved.history.2.symm
  | gone none => exact ⟨⟨known, away, trivial⟩, [], (List.append_nil _).symm, fun _ => by simp⟩
  | @start s w todo timer run there called =>
      have other : timer.id ≠ id := away timer ⟨0, w, there⟩
      refine ⟨⟨known, away, other⟩, [.started timer.id s.vCurrentFrameIdx], rfl, fun frame member => ?_⟩
      exact other (TimerEvent.started.inj (List.mem_singleton.mp member)).1.symm
  | add adds slot => exact ⟨absent.adds rfl adds running, _, adds.trace, fun _ => by simp⟩
  | remove removes => exact ⟨absent.removes removes running, _, removes.trace, fun _ => by simp⟩
  | raised => exact ⟨⟨known, away, trivial⟩, [.raised _], rfl, fun _ => by simp⟩
  | returned finishes =>
      refine ⟨⟨known.trans_eq finishes.history.2.symm, ?_, trivial⟩, [],
        finishes.history.1.trans (List.append_nil _).symm, fun _ => by simp⟩
      rintro x ⟨w, i, member⟩
      rcases (finishes.members w i x).mp member with ⟨before, -⟩ | ⟨-, -, rfl, -⟩
      · exact away x ⟨w, i, before⟩
      · exact running
  | @frameDone s w =>
      refine ⟨⟨known, ?_, trivial⟩, [.frameDone s.vCurrentFrameIdx], rfl, fun _ => by simp⟩
      rintro x ⟨v, i, member⟩
      exact away x ⟨v, i, slot_setIndex _ 0 v _ i ▸ member⟩

/-- A timer that is gone is never started. -/
theorem Absent.not_started (orderly : Orderly p) (absent : Absent id p) {calls : List (TimerCall κ)}
    (runs : Runs env p calls q) :
    Absent id q ∧ ∃ rest, q.state.trace = p.state.trace ++ rest ∧ ∀ frame, .started id frame ∉ rest := by
  refine runs.keeps (I := fun q => Absent id q ∧ ∃ rest, q.state.trace = p.state.trace ++ rest ∧
    ∀ frame, .started id frame ∉ rest) orderly ⟨absent, [], (List.append_nil _).symm, fun _ => by simp⟩ ?_ ?_
  · rintro s phase call rests ⟨absentS, rest, trace, never⟩
    obtain ⟨absentC, events, grown, quiet⟩ := absentS.callPoint rests call
    refine ⟨absentC, rest ++ events, ?_, fun frame member => ?_⟩
    · rw [← List.append_assoc, ← trace]
      exact grown
    · exact (List.mem_append.mp member).elim (never frame) (quiet frame)
  · rintro before q r - - - - ⟨absentQ, rest, trace, never⟩ moves
    obtain ⟨absentR, events, grown, quiet⟩ := absentQ.moves moves
    refine ⟨absentR, rest ++ events, ?_, fun frame member => ?_⟩
    · rw [← List.append_assoc, ← trace]
      exact grown
    · exact (List.mem_append.mp member).elim (never frame) (quiet frame)

end Absent

/-! ## Where a new timer goes

A timer that is due goes into the coming slot, and in a callback into the one behind it; a timer that expires later waits
for the frame it expires in; and one that expires too late is dropped.
-/

section New

variable {s t : TimerState κ W}

omit [Arithmetic] in
/-- A timer of a higher wheel does not expire before its wheel can be cascaded. -/
theorem Timely.next_le {frame i : Nat} {next : Fin 4 → Nat} {w : Fin 4} {e : Int} (timely : Timely frame next w i e)
    (higher : w ≠ 0) : (next w : Int) ≤ e := by
  match w with
  | 0 => exact absurd rfl higher
  | 1 =>
      simp only [Timely] at timely
      omega
  | 2 =>
      simp only [Timely] at timely
      omega
  | 3 =>
      simp only [Timely] at timely
      omega

omit [Arithmetic] in
/-- A timer waits for the current frame or a later one. -/
theorem Stands.frame_le {calm : Prop} {phase : Phase} (rests : Rests phase u) (stands : Stands calm timer goal u) :
    u.vCurrentFrameIdx ≤ goal := by
  obtain ⟨w, i, member, fires, -⟩ := stands
  by_cases first : w = 0
  · subst first
    exact fires.2.1
  · have expires := (firesAt_higher first).mp fires
    have later := (rests.sound.timely w i timer first member).next_le first
    have next : u.vCurrentFrameIdx ≤ phase.next u.vCurrentFrameIdx w := by
      cases phase with
      | fresh => exact le_max_left _ _
      | opened => exact Nat.le_succ _
    omega

omit [Arithmetic] in
/-- A timer that does not get into the wheels is absent. -/
theorem absent_of_adds {phase : Phase} (rests : Rests phase s) {info : TimerInfo κ}
    (new : info.id = s.timerCounter + 1) (adds : Adds s info t)
    (nowhere : ∀ w i, ¬ (s.slotFor info.expires = some (w, i) ∧ i < wheelBound w)) {mode : Mode κ}
    (running : match mode with
      | .calling _ running _ _ _ => running.id ≠ info.id
      | _ => True) : Absent info.id ⟨mode, t⟩ := by
  refine ⟨Nat.le_of_eq (new.trans adds.counter.symm), ?_, running⟩
  rintro x ⟨w, i, member⟩
  rcases (adds.members w i x).mp member with before | ⟨-, choice⟩
  · have known := rests.sound.wellFormed.known x (Or.inr ⟨w, i, before⟩)
    omega
  · exact absurd choice (nowhere w i)

omit [Arithmetic] in
/-- A timer that is added between calls with the barrier down: it waits for the coming frame or for the one it expires
in; or it is in no slot, because the first wheel is at its bound or because it is too long. -/
theorem Adds.outside {phase : Phase} {info : TimerInfo κ} (rests : Rests phase s) (new : info.id = s.timerCounter + 1)
    (adds : Adds s info t) (down : s.innerBarrier = false) :
    (info.expires ≤ s.vCurrentFrameIdx ∧ (s.vWheels 0).index < 200 ∧
      Located True info s.vCurrentFrameIdx ⟨.outside, t⟩) ∨
    (info.expires ≤ s.vCurrentFrameIdx ∧ ¬ (s.vWheels 0).index < 200 ∧ Absent info.id (⟨.outside, t⟩ : Point κ W)) ∨
    (∃ goal : Nat, s.vCurrentFrameIdx < goal ∧ goal < s.vCurrentFrameIdx + 43200000 ∧ info.expires = goal ∧
      Located True info goal ⟨.outside, t⟩) ∨
    ((s.vCurrentFrameIdx : Int) + 43200000 ≤ info.expires ∧ Absent info.id (⟨.outside, t⟩ : Point κ W)) := by
  have still : True → t.innerBarrier = false := fun _ => adds.clock.barrier.trans down
  rcases slotFor_cases s info.expires with ⟨due, choice⟩ | ⟨later, near, w, i, choice, timely⟩ | ⟨tooLong, none⟩
  · by_cases inside : (s.vWheels 0).index < 200
    · have slot : ¬ NoSlot s info.expires := fun noSlot => noSlot.due.2.2 inside
      exact Or.inl ⟨due, inside, stands_of_due_down rests adds slot due down, still⟩
    · refine Or.inr (Or.inl ⟨due, inside, absent_of_adds rests new adds ?_ trivial⟩)
      rintro w i ⟨some, bounded⟩
      rw [choice, if_neg (by simp [down])] at some
      obtain ⟨rfl, rfl⟩ := Prod.mk.inj (Option.some.inj some)
      exact inside bounded
  · have slot : ¬ NoSlot s info.expires := fun noSlot => absurd noSlot.due.1 (not_le.mpr later)
    obtain ⟨goal, isGoal⟩ := Int.eq_ofNat_of_zero_le (le_trans (Int.natCast_nonneg _) later.le)
    have stands := stands_of_later adds slot trivial isGoal (by omega) (by omega)
    exact Or.inr (Or.inr (Or.inl ⟨goal, by omega, by omega, isGoal, stands, still⟩))
  · refine Or.inr (Or.inr (Or.inr ⟨tooLong, absent_of_adds rests new adds ?_ trivial⟩))
    rintro w i ⟨some, -⟩
    rw [none] at some
    exact absurd some (by simp)

omit [Arithmetic] in
/-- A timer that is added in a callback: it waits for the next frame or for the one it expires in, or it is too long. -/
theorem Adds.inside {info running : TimerInfo κ} {w : Nat} {ops : List (TimerOp κ)} {result : Option Bool}
    {todo : List Nat} (rests : Rests .opened s) (up : s.innerBarrier = true) (known : running.id ≤ s.timerCounter)
    (new : info.id = s.timerCounter + 1) (adds : Adds s info t) :
    (info.expires ≤ s.vCurrentFrameIdx ∧
      Located True info (s.vCurrentFrameIdx + 1) ⟨.calling w running ops result todo, t⟩) ∨
    (∃ goal : Nat, s.vCurrentFrameIdx < goal ∧ goal < s.vCurrentFrameIdx + 43200000 ∧ info.expires = goal ∧
      Located True info goal ⟨.calling w running ops result todo, t⟩) ∨
    ((s.vCurrentFrameIdx : Int) + 43200000 ≤ info.expires ∧
      Absent info.id (⟨.calling w running ops result todo, t⟩ : Point κ W)) := by
  have slot := not_noSlot rests (Or.inl up) info.expires
  have differs : running.id ≠ info.id := by omega
  have notNow : ∀ goal : Nat, s.vCurrentFrameIdx < goal → goal = t.vCurrentFrameIdx → info.id ∈ todo := by
    intro goal later now
    rw [adds.clock.frame] at now
    omega
  rcases slotFor_cases s info.expires with ⟨due, choice⟩ | ⟨later, near, -⟩ | ⟨tooLong, none⟩
  · exact Or.inl ⟨due, stands_of_due_up rests adds slot due up, differs, notNow _ (Nat.lt_succ_self _)⟩
  · obtain ⟨goal, isGoal⟩ := Int.eq_ofNat_of_zero_le (le_trans (Int.natCast_nonneg _) later.le)
    have stands := stands_of_later adds slot trivial isGoal (by omega) (by omega)
    exact Or.inr (Or.inl ⟨goal, by omega, by omega, isGoal, stands, differs, notNow goal (by omega)⟩)
  · refine Or.inr (Or.inr ⟨tooLong, absent_of_adds rests new adds ?_ differs⟩)
    rintro v i ⟨some, -⟩
    rw [none] at some
    exact absurd some (by simp)

end New

/-! ## Time and barrier

The elapsed time never gets below zero, however it is rounded, and only an error leaves the barrier up.
-/

section Clock

variable {env : TimerEnv κ W} {p q : Point κ W}

/-- Time is left at every point. -/
theorem Runs.elapse_nonneg {world : W} {calls : List (TimerCall κ)} (runs : Runs env ⟨.outside, .init world⟩ calls p)
    (forward : Forward calls) : 0 ≤ p.state.vElapseTime := by
  have start : Orderly (⟨.outside, .init world⟩ : Point κ W) := ⟨.fresh, rests_init world⟩
  induction runs with
  | nil => exact le_refl 0
  | @call calls s runs call ih =>
      obtain ⟨phase, rests⟩ := runs.orderly start
      obtain ⟨before, last⟩ := forward_append.mp forward
      have nonneg : 0 ≤ s.vElapseTime := ih before
      cases call with
      | update elapse =>
          have more : 0 < elapse := last elapse (by simp)
          exact rounding.nonneg _ (add_nonneg nonneg more.le)
      | op op =>
          cases op with
          | add expires cb cycle => exact (applyAdd_exec rests expires cb cycle).clock.elapse ▸ nonneg
          | remove id => exact (applyRemove_exec rests id).clock.elapse ▸ nonneg
  | @step calls q r runs step ih =>
      have nonneg := ih forward
      have opens : ∀ s t : TimerState κ W, s.vElapseTime > secondPerFrame → Moved (frameBegun s) [] t →
          0 ≤ t.vElapseTime := by
        intro s t more moved
        have left : t.vElapseTime = rounding.sub s.vElapseTime secondPerFrame := moved.clock.2.2
        rw [left]
        exact rounding.nonneg _ (sub_nonneg.mpr more.le)
      cases (step.moves (runs.orderly start)).2 with
      | stop less => exact nonneg
      | begin more moved ids visited => exact opens _ _ more moved
      | beginRaised more moved fifty => exact opens _ _ more moved
      | gone none => exact nonneg
      | start there called => exact nonneg
      | add adds slot => exact adds.clock.elapse ▸ nonneg
      | remove removes => exact removes.clock.elapse ▸ nonneg
      | raised => exact nonneg
      | returned finishes => exact finishes.clock.elapse ▸ nonneg
      | frameDone => exact nonneg

/-- Without errors the barrier is up in callbacks alone. -/
def Lowered (p : Point κ W) : Prop := Calm p.state.trace → ¬ p.mode.isCall → p.state.innerBarrier = false

/-- The run lemma. -/
theorem Runs.lowered {calls : List (TimerCall κ)} (orderly : Orderly p) (start : Lowered p)
    (runs : Runs env p calls q) : Lowered q := by
  refine runs.keeps orderly start (fun s phase call rests lowered calm notCall => ?_)
    fun _ q r _ _ _ _ lowered moves calm notCall => ?_
  · obtain ⟨events, grown⟩ := callPoint_trace rests call
    rw [grown] at calm
    have down : s.innerBarrier = false := lowered calm.of_append id
    cases call with
    | update elapse => exact down
    | op op =>
        cases op with
        | add expires cb cycle => exact (applyAdd_exec rests expires cb cycle).clock.barrier.trans down
        | remove id => exact (applyRemove_exec rests id).clock.barrier.trans down
  · obtain ⟨events, grown⟩ := moves.trace
    have calmBefore : Calm q.state.trace := by
      rw [grown] at calm
      exact calm.of_append
    have before := lowered calmBefore
    cases moves with
    | stop less => exact before id
    | begin more moved ids visited => exact moved.clock.2.1.trans (before id)
    | beginRaised more moved fifty => exact moved.clock.2.1.trans (before id)
    | gone none => exact before id
    | start there called => exact absurd trivial notCall
    | add adds slot => exact absurd trivial notCall
    | remove removes => exact absurd trivial notCall
    | @raised s w timer todo => exact absurd (by simp [TimerState.record]) (calm timer.id)
    | returned finishes => exact finishes.clock.barrier
    | frameDone => exact before id

/-- In time that goes forward a timer does not expire before the frame it is added in. -/
theorem frame_le_expires {s : TimerState κ W} (nonneg : 0 ≤ s.vElapseTime) {delay : ℚ} (notBack : 0 ≤ delay) (cb : κ)
    (cycle : Int) : (s.vCurrentFrameIdx : Int) ≤ (infoFor s delay cb cycle).expires := by
  have time : 0 ≤ rounding.add delay s.vElapseTime := rounding.nonneg _ (add_nonneg notBack nonneg)
  have frames : 0 ≤ framesUntil delay s.vElapseTime :=
    Int.floor_nonneg.mpr (rounding.nonneg _ (mul_nonneg time frameRate_nonneg))
  change (s.vCurrentFrameIdx : Int) ≤ framesUntil delay s.vElapseTime + s.vCurrentFrameIdx
  omega

end Clock

end GameServer.Timer
