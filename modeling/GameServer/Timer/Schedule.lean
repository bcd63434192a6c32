/-
Module: GameServer.Timer.Schedule
Purpose: The frame a timer in the wheels will be fired in, followed through the steps of a run: until it is removed or
  started it keeps its frame, and is started in no other.
Trusted boundary: none
Main exports: Located, Follows, Located.moves, Located.callPoint, FiresIn, Located.firesIn, located_of_adds
-/
import GameServer.Timer.Moves

namespace GameServer.Timer

open Lib Lib.LuaM TimerState

variable {κ W : Type} [Arithmetic]

/-! ## Where a timer stands

A timer waits for its frame from point to point, wherever cascades take it, until it is started, removed, or given up
with the run.
-/

/-- The timer is in a slot, to be fired in frame `goal`.  In a higher wheel that is so only in a calm run, one in which
no callback has raised: an error in a callback leaves the barrier up, and a cascade then puts a due timer into the slot
of the next frame. -/
def Stands (calm : Prop) (timer : TimerInfo κ) (goal : Nat) (s : TimerState κ W) : Prop :=
  ∃ w i, timer ∈ s.slot w i ∧ FiresAt s.vCurrentFrameIdx w i timer.expires goal ∧ (w = 0 ∨ calm)

/-- Outside of callbacks the barrier is down; a timer that is due in the frame whose slot is gone through is still to be
visited, and its callback is not the one that runs. -/
def Awaits (calm : Prop) (id goal frame : Nat) (barrier : Bool) : Mode κ → Prop
  | .outside => calm → barrier = false
  | .turning => calm → barrier = false
  | .visiting _ todo => (calm → barrier = false) ∧ (goal = frame → id ∈ todo)
  | .calling _ running _ _ todo => running.id ≠ id ∧ (goal = frame → id ∈ todo)

/-- The timer waits for frame `goal`. -/
def Located (calm : Prop) (timer : TimerInfo κ) (goal : Nat) (p : Point κ W) : Prop :=
  Stands calm timer goal p.state ∧
    Awaits calm timer.id goal p.state.vCurrentFrameIdx p.state.innerBarrier p.mode

/-- What a step does to a timer: nothing, and perhaps something else happens meanwhile; or the timer is removed, or
started in its frame, or a callback raises in a run that is to be calm. -/
inductive Follows (calm : Prop) (timer : TimerInfo κ) (goal : Nat) (p q : Point κ W) : Prop
  | silent (trace : q.state.trace = p.state.trace) (located : Located calm timer goal q)
  | other (event : TimerEvent) (trace : q.state.trace = p.state.trace ++ [event]) (notDone : event ≠ .frameDone goal)
      (notStarted : ∀ frame, event ≠ .started timer.id frame) (located : Located calm timer goal q)
  | removed (trace : q.state.trace = p.state.trace ++ [.removed timer.id])
  | started (trace : q.state.trace = p.state.trace ++ [.started timer.id goal])
      (here : q.state.vCurrentFrameIdx = goal)
      (running : ∃ w ops result todo, q.mode = .calling w timer ops result todo)
  | raised (isCalm : calm) (id : Nat) (trace : q.state.trace = p.state.trace ++ [.raised id])

section Steps

variable {env : TimerEnv κ W} {calm : Prop} {timer : TimerInfo κ} {goal : Nat} {p q : Point κ W} {s t : TimerState κ W}

omit [Arithmetic] in
/-- A timer that is due stands in the slot of the frame, once the cascades are done. -/
theorem Rests.current_of_firesAt (rests : Rests .opened s) {w : Fin 4} {i : Nat} (member : timer ∈ s.slot w i)
    (fires : FiresAt s.vCurrentFrameIdx w i timer.expires s.vCurrentFrameIdx) :
    timer ∈ s.slot 0 (s.vCurrentFrameIdx % 200) := by
  by_cases first : w = 0
  · subst first
    obtain ⟨place, -, -⟩ := fires
    rw [place]
    exact member
  · have timely := rests.sound.timely w i timer first member
    have due := (firesAt_higher first).mp fires
    have later := (Timely.later timely fun both => first both.1).1
    omega

omit [Arithmetic] in
/-- A timer in the slot of the frame is due. -/
theorem Rests.goal_of_current (rests : Rests .opened s) {w : Fin 4} {i : Nat} (member : timer ∈ s.slot w i)
    (fires : FiresAt s.vCurrentFrameIdx w i timer.expires goal) {x : TimerInfo κ}
    (current : x ∈ s.slot 0 (s.vCurrentFrameIdx % 200)) (same : x.id = timer.id) :
    x = timer ∧ goal = s.vCurrentFrameIdx := by
  obtain ⟨rfl, rfl, rfl⟩ := rests.sound.wellFormed.same_place current member same.symm
  simp only [FiresAt] at fires
  exact ⟨rfl, by omega⟩

omit [Arithmetic] in
/-- A timer that is removed is another one, or the one. -/
theorem Located.removes {mode mode' : Mode κ} {id : Nat} (located : Located calm timer goal ⟨mode, s⟩)
    (removes : Removes s id t) (awaits : Awaits calm timer.id goal s.vCurrentFrameIdx s.innerBarrier mode') :
    Follows calm timer goal ⟨mode, s⟩ ⟨mode', t⟩ := by
  by_cases same : id = timer.id
  · subst same
    exact .removed removes.trace
  · obtain ⟨⟨w, i, member, fires, calmly⟩, -⟩ := located
    rw [← removes.clock.frame] at fires
    rw [← removes.clock.frame, ← removes.clock.barrier] at awaits
    have there := (removes.members w i timer).mpr ⟨member, fun sameId => same sameId.symm⟩
    refine .other (.removed id) removes.trace (by simp) (by simp) ⟨⟨w, i, there, fires, calmly⟩, awaits⟩

omit [Arithmetic] in
/-- A timer that is added leaves the others where they are. -/
theorem Located.added {mode mode' : Mode κ} {info : TimerInfo κ} (located : Located calm timer goal ⟨mode, s⟩)
    (adds : Adds s info t) (awaits : Awaits calm timer.id goal s.vCurrentFrameIdx s.innerBarrier mode') :
    Located calm timer goal ⟨mode', t⟩ := by
  obtain ⟨⟨w, i, member, fires, calmly⟩, -⟩ := located
  rw [← adds.clock.frame] at fires
  rw [← adds.clock.frame, ← adds.clock.barrier] at awaits
  have there := (adds.members w i timer).mpr (Or.inl member)
  exact ⟨⟨w, i, there, fires, calmly⟩, awaits⟩

omit [Arithmetic] in
/-- Other timers that are added leave the timer where it is. -/
theorem Located.adds {mode mode' : Mode κ} {info : TimerInfo κ} (located : Located calm timer goal ⟨mode, s⟩)
    (adds : Adds s info t) (awaits : Awaits calm timer.id goal s.vCurrentFrameIdx s.innerBarrier mode') :
    Follows calm timer goal ⟨mode, s⟩ ⟨mode', t⟩ :=
  .other _ adds.trace (by simp) (by simp) (located.added adds awaits)

/-- The cascades of a frame leave a timer its frame. -/
theorem Stands.opens (stands : Stands calm timer goal s) (moved : Moved (frameBegun s) [] t)
    (down : calm → s.innerBarrier = false) : Stands calm timer goal t := by
  obtain ⟨w, i, member, fires, calmly⟩ := stands
  obtain ⟨w', i', there, stays, keeps⟩ := (moved.stays w i timer member).resolve_left (by simp)
  have frame : t.vCurrentFrameIdx = s.vCurrentFrameIdx := moved.clock.1
  unfold Stands
  rw [frame]
  by_cases first : w = 0
  · subst first
    obtain ⟨rfl, rfl⟩ := stays rfl
    exact ⟨0, i', there, fires, Or.inl rfl⟩
  · have isCalm := calmly.resolve_left first
    exact ⟨w', i', there, keeps (down isCalm) goal fires, Or.inr isCalm⟩

omit [Arithmetic] in
/-- Another callback has returned. -/
theorem Stands.finishes (stands : Stands calm timer goal s) {other : TimerInfo κ} {result : Bool}
    (finishes : Finishes s other result t) (differs : other.id ≠ timer.id) : Stands calm timer goal t := by
  obtain ⟨w, i, member, fires, calmly⟩ := stands
  have frame : t.vCurrentFrameIdx = s.vCurrentFrameIdx := finishes.clock.frame
  rw [← frame] at fires
  exact ⟨w, i, (finishes.members w i timer).mpr (Or.inl ⟨member, differs.symm⟩), fires, calmly⟩

omit [Arithmetic] in
/-- The frame after this one: a timer that was not due keeps its frame. -/
theorem Stands.endFrame (stands : Stands calm timer goal s) (notDue : goal ≠ s.vCurrentFrameIdx) :
    Stands calm timer goal (endFrame s) := by
  obtain ⟨w, i, member, fires, calmly⟩ := stands
  refine ⟨w, i, ?_, ?_, calmly⟩
  · rw [GameServer.Timer.endFrame, slot_setIndex]
    exact member
  · change FiresAt (s.vCurrentFrameIdx + 1) w i timer.expires goal
    by_cases first : w = 0
    · subst first
      simp only [FiresAt] at fires ⊢
      omega
    · rw [firesAt_higher first] at fires ⊢
      exact fires

/-- What a step does to a timer in the wheels. -/
theorem Located.moves (orderlyP : Orderly p) (orderlyQ : Orderly q) (located : Located calm timer goal p)
    (moves : Moves env p q) : Follows calm timer goal p q := by
  obtain ⟨stands, awaits⟩ := located
  cases moves with
  | stop less => exact .silent rfl ⟨stands, awaits⟩
  | @begin s t more moved ids visited =>
      have standsT := stands.opens moved awaits
      refine .other (.frame s.vCurrentFrameIdx) moved.history.1 (by simp) (by simp)
        ⟨standsT, fun isCalm => moved.clock.2.1.trans (awaits isCalm), fun due => ?_⟩
      obtain ⟨w, i, there, fires, -⟩ := standsT
      subst due
      exact visited timer (orderlyQ.1.current_of_firesAt there fires)
  | @beginRaised s t more moved fifty =>
      exact .other (.frame s.vCurrentFrameIdx) moved.history.1 (by simp) (by simp)
        ⟨stands.opens moved awaits, fun isCalm => moved.clock.2.1.trans (awaits isCalm)⟩
  | @gone s w idx todo none =>
      refine .silent rfl ⟨stands, awaits.1, fun now => ?_⟩
      rcases List.mem_cons.mp (awaits.2 now) with same | later
      · obtain ⟨v, i, member, fires, -⟩ := stands
        subst now
        have current := orderlyP.1.current_of_firesAt member fires
        obtain rfl := orderlyP.2
        exact absurd same (none timer current)
      · exact later
  | @start s w todo other run there called =>
      obtain ⟨rests, rfl⟩ := orderlyP
      by_cases same : other.id = timer.id
      · obtain ⟨v, i, member, fires, -⟩ := stands
        obtain ⟨rfl, now⟩ := rests.goal_of_current member fires there same
        subst now
        exact .started rfl rfl ⟨_, _, _, _, rfl⟩
      · refine .other (.started other.id s.vCurrentFrameIdx) rfl (by simp) (fun frame isStart => ?_)
          ⟨stands, same, fun now => ?_⟩
        · exact same (TimerEvent.started.inj isStart).1
        · exact (List.mem_cons.mp (awaits.2 now)).resolve_left fun isOther => same isOther.symm
  | add adds slot => exact Located.adds ⟨stands, awaits⟩ adds awaits
  | remove removes => exact Located.removes ⟨stands, awaits⟩ removes awaits
  | @raised s w other todo =>
      by_cases isCalm : calm
      · exact .raised isCalm other.id rfl
      · exact .other (.raised other.id) rfl (by simp) (by simp) ⟨stands, fun yes => absurd yes isCalm⟩
  | @returned s t w other result todo finishes =>
      have frame : t.vCurrentFrameIdx = s.vCurrentFrameIdx := finishes.clock.frame
      refine .silent finishes.history.1 ⟨stands.finishes finishes awaits.1, fun _ => finishes.clock.barrier,
        fun now => ?_⟩
      exact awaits.2 (now.trans frame)
  | @frameDone s w =>
      have notDue : goal ≠ s.vCurrentFrameIdx := fun now => absurd (awaits.2 now) (by simp)
      refine .other (.frameDone s.vCurrentFrameIdx) rfl (fun same => ?_) (by simp)
        ⟨stands.endFrame notDue, awaits.1⟩
      exact notDue (TimerEvent.frameDone.inj same).symm

/-- A call from outside, too, leaves a timer its frame, or removes it. -/
theorem Located.callPoint {phase : Phase} (rests : Rests phase s) (located : Located calm timer goal ⟨.outside, s⟩)
    (call : TimerCall κ) : Follows calm timer goal ⟨.outside, s⟩ (callPoint s call) := by
  cases call with
  | update elapse => exact .silent rfl located
  | op op =>
      cases op with
      | add expires cb cycle => exact located.adds (applyAdd_exec rests expires cb cycle) located.2
      | remove id => exact located.removes (applyRemove_exec rests id) located.2

end Steps

/-! ## Runs

The step lemma carried along a run, with the history since the timer was added.
-/

/-- What ends the following of a timer: it is removed or started, or a callback raises in a run that is to be calm. -/
def Parts (calm : Prop) (id : Nat) (event : TimerEvent) : Prop :=
  event = .removed id ∨ (∃ frame, event = .started id frame) ∨ (calm ∧ ∃ k, event = .raised k)

/-- As long as nothing parts with it, the timer is started in frame `goal` alone, and that frame is not finished. -/
def FiresIn (calm : Prop) (id goal : Nat) (rest : List TimerEvent) : Prop :=
  ∀ before event after, rest = before ++ event :: after → (∀ e ∈ before, ¬ Parts calm id e) →
    (∀ frame, event = .started id frame → frame = goal) ∧ event ≠ .frameDone goal

section Runs

variable {env : TimerEnv κ W} {calm : Prop} {timer : TimerInfo κ} {id goal : Nat} {p q : Point κ W}

omit [Arithmetic] in
/-- One event more. -/
theorem FiresIn.append {rest : List TimerEvent} {event : TimerEvent} (fires : FiresIn calm id goal rest)
    (next : (∀ e ∈ rest, ¬ Parts calm id e) →
      (∀ frame, event = .started id frame → frame = goal) ∧ event ≠ .frameDone goal) :
    FiresIn calm id goal (rest ++ [event]) := by
  intro before last after split quiet
  rcases append_singleton_split split with ⟨rfl, rfl, rfl⟩ | ⟨inner, rfl, rfl⟩
  · exact next quiet
  · exact fires before last inner rfl quiet

/-- The history since then, and the timer, as long as nothing has parted with it. -/
def Followed (calm : Prop) (timer : TimerInfo κ) (goal : Nat) (base : List TimerEvent) (p : Point κ W) : Prop :=
  ∃ rest, p.state.trace = base ++ rest ∧ FiresIn calm timer.id goal rest ∧
    ((∀ e ∈ rest, ¬ Parts calm timer.id e) → Located calm timer goal p)

/-- The history only grows. -/
theorem Moves.trace (moves : Moves env p q) : ∃ events, q.state.trace = p.state.trace ++ events := by
  cases moves with
  | stop less => exact ⟨[], (List.append_nil _).symm⟩
  | begin more moved ids visited => exact ⟨[.frame _], moved.history.1⟩
  | beginRaised more moved fifty => exact ⟨[.frame _], moved.history.1⟩
  | gone none => exact ⟨[], (List.append_nil _).symm⟩
  | start there called => exact ⟨[.started _ _], rfl⟩
  | add adds slot => exact ⟨_, adds.trace⟩
  | remove removes => exact ⟨_, removes.trace⟩
  | raised => exact ⟨[.raised _], rfl⟩
  | returned finishes => exact ⟨[], finishes.history.1.trans (List.append_nil _).symm⟩
  | frameDone => exact ⟨[.frameDone _], rfl⟩

/-- What a call from outside records before it goes on. -/
theorem callPoint_trace {s : TimerState κ W} {phase : Phase} (rests : Rests phase s) (call : TimerCall κ) :
    ∃ events, (callPoint s call).state.trace = s.trace ++ events := by
  cases call with
  | update elapse => exact ⟨[], (List.append_nil _).symm⟩
  | op op =>
      cases op with
      | add expires cb cycle => exact ⟨_, (applyAdd_exec rests expires cb cycle).trace⟩
      | remove id => exact ⟨_, (applyRemove_exec rests id).trace⟩

omit [Arithmetic] in
/-- What comes after the parting does not matter. -/
theorem FiresIn.append_of_parted {rest : List TimerEvent} (fires : FiresIn calm id goal rest)
    (parted : ∃ e ∈ rest, Parts calm id e) (events : List TimerEvent) : FiresIn calm id goal (rest ++ events) := by
  induction events generalizing rest with
  | nil =>
      rw [List.append_nil]
      exact fires
  | cons event events ih =>
      obtain ⟨e, member, parts⟩ := parted
      have longer : FiresIn calm id goal (rest ++ [event]) :=
        fires.append fun quiet => absurd parts (quiet e member)
      have rest' := ih longer ⟨e, List.mem_append_left _ member, parts⟩
      rw [List.append_assoc] at rest'
      exact rest'

omit [Arithmetic] in
/-- The following goes on over what a step does to the timer. -/
theorem Followed.next {base : List TimerEvent} (followed : Followed calm timer goal base p)
    (follows : Located calm timer goal p → Follows calm timer goal p q)
    (grows : ∃ events, q.state.trace = p.state.trace ++ events) : Followed calm timer goal base q := by
  obtain ⟨rest, trace, fires, located⟩ := followed
  by_cases quiet : ∀ e ∈ rest, ¬ Parts calm timer.id e
  · have parted : ∀ event, Parts calm timer.id event → ¬ ∀ e ∈ rest ++ [event], ¬ Parts calm timer.id e :=
      fun event parts all => all event (by simp) parts
    cases follows (located quiet) with
    | silent same there => exact ⟨rest, same.trans trace, fires, fun _ => there⟩
    | other event longer notDone notStarted there =>
        refine ⟨rest ++ [event], by rw [longer, trace, List.append_assoc], fires.append fun _ => ⟨?_, notDone⟩,
          fun _ => there⟩
        intro frame isStart
        exact absurd isStart (notStarted frame)
    | removed longer =>
        refine ⟨rest ++ [.removed timer.id], by rw [longer, trace, List.append_assoc], fires.append fun _ => ?_,
          fun all => absurd all (parted _ (Or.inl rfl))⟩
        exact ⟨by simp, by simp⟩
    | started longer here running =>
        refine ⟨rest ++ [.started timer.id goal], by rw [longer, trace, List.append_assoc], fires.append fun _ => ?_,
          fun all => absurd all (parted _ (Or.inr (Or.inl ⟨goal, rfl⟩)))⟩
        exact ⟨fun frame same => (TimerEvent.started.inj same).2.symm, by simp⟩
    | raised isCalm k longer =>
        refine ⟨rest ++ [.raised k], by rw [longer, trace, List.append_assoc], fires.append fun _ => ?_,
          fun all => absurd all (parted _ (Or.inr (Or.inr ⟨isCalm, k, rfl⟩)))⟩
        exact ⟨by simp, by simp⟩
  · obtain ⟨events, longer⟩ := grows
    have parted : ∃ e ∈ rest, Parts calm timer.id e := by
      by_contra none
      exact quiet fun e member parts => none ⟨e, member, parts⟩
    refine ⟨rest ++ events, by rw [longer, trace, List.append_assoc], fires.append_of_parted parted events,
      fun all => ?_⟩
    obtain ⟨e, member, parts⟩ := parted
    exact absurd parts (all e (List.mem_append_left _ member))

/-- A timer that waits for a frame is followed to it, in every run from there on. -/
theorem Located.followed (orderly : Orderly p) (located : Located calm timer goal p) {calls : List (TimerCall κ)}
    (runs : Runs env p calls q) : Followed calm timer goal p.state.trace q := by
  have start : Followed calm timer goal p.state.trace p := by
    refine ⟨[], (List.append_nil _).symm, ?_, fun _ => located⟩
    intro before event after split
    exact absurd split (by simp)
  refine runs.keeps orderly start (fun s phase call rests followed => ?_)
    fun _ q r _ _ orderlyQ orderlyR followed moves => ?_
  · exact followed.next (fun there => there.callPoint rests call) (callPoint_trace rests call)
  · exact followed.next (fun there => there.moves orderlyQ orderlyR moves) moves.trace

end Runs

/-! ## New timers

The frame that a new timer waits for.
-/

section New

variable {calm : Prop} {phase : Phase} {s t : TimerState κ W} {info : TimerInfo κ}

omit [Arithmetic] in
/-- The first wheel stands in the slot of the frame, unless it is at its bound. -/
theorem Rests.first_index (rests : Rests phase s) (below : (s.vWheels 0).index < 200) :
    (s.vWheels 0).index = s.vCurrentFrameIdx % 200 := by
  rw [rests.index] at below ⊢
  cases phase with
  | opened => rfl
  | fresh =>
      change startIndex s.vCurrentFrameIdx 0 = s.vCurrentFrameIdx % 200
      change startIndex s.vCurrentFrameIdx 0 < 200 at below
      simp only [startIndex] at below ⊢
      split at below <;> split <;> omega

omit [Arithmetic] in
/-- The slot of the coming frame. -/
theorem Rests.next_index (rests : Rests phase s) :
    ((s.vWheels 0).index + 1) % 200 = (s.vCurrentFrameIdx + 1) % 200 := by
  rw [rests.index]
  cases phase with
  | opened =>
      change (s.vCurrentFrameIdx % 200 + 1) % 200 = (s.vCurrentFrameIdx + 1) % 200
      omega
  | fresh =>
      change (startIndex s.vCurrentFrameIdx 0 + 1) % 200 = (s.vCurrentFrameIdx + 1) % 200
      simp only [startIndex]
      split <;> omega

omit [Arithmetic] in
/-- A timer with a slot is stored there. -/
theorem Adds.stored (adds : Adds s info t) (slot : ¬ NoSlot s info.expires) {w : Fin 4} {i : Nat}
    (choice : s.slotFor info.expires = some (w, i)) : info ∈ t.slot w i := by
  refine (adds.members w i info).mpr (Or.inr ⟨rfl, choice, ?_⟩)
  by_contra outside
  exact slot ⟨w, i, choice, outside⟩

omit [Arithmetic] in
/-- A timer that expires later waits for the frame it expires in. -/
theorem stands_of_later (adds : Adds s info t) (slot : ¬ NoSlot s info.expires) (isCalm : calm) {goal : Nat}
    (expires : info.expires = goal) (later : s.vCurrentFrameIdx < goal) (reach : goal < s.vCurrentFrameIdx + 43200000) :
    Stands calm info goal t := by
  rcases slotFor_cases s info.expires with ⟨due, -⟩ | ⟨-, -, w, i, choice, timely⟩ | ⟨tooLong, -⟩
  · omega
  · refine ⟨w, i, adds.stored slot choice, ?_, Or.inr isCalm⟩
    rw [adds.clock.frame]
    exact timely.firesAt expires
  · omega

omit [Arithmetic] in
/-- A timer that is due when it is added in a callback waits for the next frame. -/
theorem stands_of_due_up (rests : Rests phase s) (adds : Adds s info t) (slot : ¬ NoSlot s info.expires)
    (due : info.expires ≤ s.vCurrentFrameIdx) (up : s.innerBarrier = true) :
    Stands calm info (s.vCurrentFrameIdx + 1) t := by
  rcases slotFor_cases s info.expires with ⟨-, choice⟩ | ⟨later, -⟩ | ⟨tooLong, -⟩
  · rw [if_pos up, rests.next_index] at choice
    refine ⟨0, _, adds.stored slot choice, ?_, Or.inl rfl⟩
    rw [adds.clock.frame]
    exact ⟨rfl, by omega, by omega⟩
  · omega
  · omega

omit [Arithmetic] in
/-- Outside of callbacks it waits for the coming frame. -/
theorem stands_of_due_down (rests : Rests phase s) (adds : Adds s info t) (slot : ¬ NoSlot s info.expires)
    (due : info.expires ≤ s.vCurrentFrameIdx) (down : s.innerBarrier = false) :
    Stands calm info s.vCurrentFrameIdx t := by
  rcases slotFor_cases s info.expires with ⟨-, choice⟩ | ⟨later, -⟩ | ⟨tooLong, -⟩
  · rw [if_neg (by simp [down])] at choice
    have below : (s.vWheels 0).index < 200 := by
      by_contra outside
      exact slot ⟨0, _, choice, outside⟩
    rw [rests.first_index below] at choice
    refine ⟨0, _, adds.stored slot choice, ?_, Or.inl rfl⟩
    rw [adds.clock.frame]
    exact ⟨rfl, by omega, by omega⟩
  · omega
  · omega

end New

end GameServer.Timer
