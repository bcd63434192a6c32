/-
Module: GameServer.Timer.Lives
Purpose: A set of timers, one-shot and cyclic, whose callbacks make no calls of the timer object: until one of them
  raises, each timer is started once in the frame of each of its expiries.
Trusted boundary: none
Main exports: Plain, Plainly, Life, Life.moves, Planned, Planned.moves, Idle, Idle.foldl, Runs.onUpdates, Runs.planned
-/
import Mathlib.Data.Fintype.Basic
import Mathlib.Tactic.FinCases
import GameServer.Timer.Cycles

namespace GameServer.Timer

open Lib Lib.LuaM TimerState

variable {κ W : Type} [Arithmetic]

/-! ## Plain callbacks

Callbacks that add and remove nothing: timers come from outside and stay until they are over.
-/

/-- Callbacks that make no calls of the timer object.  Those of `raises` raise, the others return. -/
structure Plain (env : TimerEnv κ W) (raises : κ → Prop) : Prop where
  ops : ∀ cb id s, (env.callback cb id s).ops = []
  result : ∀ cb id s, (env.callback cb id s).result = none ↔ raises cb

/-- The timer whose callback runs is still in its slot. -/
def Plainly (raises : κ → Prop) (p : Point κ W) : Prop :=
  match p.mode with
  | .calling w timer ops result _ => ops = [] ∧ (result = none ↔ raises timer.callback) ∧ timer ∈ p.state.slot 0 w
  | _ => True

section Plainly

variable {env : TimerEnv κ W} {raises : κ → Prop} {p q : Point κ W}

/-- One step keeps what is asked of plain callbacks. -/
theorem Plainly.moves (plain : Plain env raises) (plainly : Plainly raises p) (moves : Moves env p q) :
    Plainly raises q := by
  cases moves with
  | stop less => trivial
  | begin more moved ids visited => trivial
  | beginRaised more moved fifty => trivial
  | gone none => trivial
  | start there called =>
      subst called
      exact ⟨plain.ops _ _ _, plain.result _ _ _, there⟩
  | add adds slot => exact absurd plainly.1 (by simp)
  | remove removes => exact absurd plainly.1 (by simp)
  | raised => trivial
  | returned finishes => trivial
  | frameDone => trivial

/-- No timer is added or removed. -/
theorem Plainly.quiet (plainly : Plainly raises p) (moves : Moves env p q) :
    ∃ events, q.state.trace = p.state.trace ++ events ∧
      ∀ event ∈ events, ∀ id, event ≠ .removed id ∧ ∀ expires frame cycle, event ≠ .added id expires frame cycle := by
  cases moves with
  | stop less => exact ⟨[], (List.append_nil _).symm, by simp⟩
  | begin more moved ids visited => exact ⟨[.frame _], moved.history.1, by simp⟩
  | beginRaised more moved fifty => exact ⟨[.frame _], moved.history.1, by simp⟩
  | gone none => exact ⟨[], (List.append_nil _).symm, by simp⟩
  | start there called => exact ⟨[.started _ _], rfl, by simp⟩
  | add adds slot => exact absurd plainly.1 (by simp)
  | remove removes => exact absurd plainly.1 (by simp)
  | raised => exact ⟨[.raised _], rfl, by simp⟩
  | returned finishes => exact ⟨[], finishes.history.1.trans (List.append_nil _).symm, by simp⟩
  | frameDone => exact ⟨[.frameDone _], rfl, by simp⟩

/-- Only a timer whose callback has returned comes into the wheels. -/
theorem Plainly.stored (plainly : Plainly raises p) (moves : Moves env p q) {y : TimerInfo κ}
    (there : InWheels q.state y) : InWheels p.state y ∨ ∃ timer, InWheels p.state timer ∧ y = again timer := by
  cases moves with
  | stop less => exact Or.inl there
  | begin more moved ids visited => exact Or.inl (moved.back y (Or.inr there))
  | beginRaised more moved fifty => exact Or.inl (moved.back y (Or.inr there))
  | gone none => exact Or.inl there
  | start here called => exact Or.inl there
  | add adds slot => exact absurd plainly.1 (by simp)
  | remove removes => exact absurd plainly.1 (by simp)
  | raised => exact Or.inl there
  | returned finishes =>
      obtain ⟨w, i, member⟩ := there
      rcases (finishes.members w i y).mp member with ⟨before, -⟩ | ⟨-, -, same, -⟩
      · exact Or.inl ⟨w, i, before⟩
      · exact Or.inr ⟨_, ⟨0, _, plainly.2.2⟩, same⟩
  | frameDone =>
      obtain ⟨w, i, member⟩ := there
      exact Or.inl ⟨w, i, slot_setIndex _ 0 w _ i ▸ member⟩

end Plainly

/-! ## Lives

What a timer of such a run is doing at each point: waiting for a call, being called, or over.
-/

/-- A timer after `n` calls: it waits for the frame it expires in; its callback runs; it is over, because it is
one-shot, its callback returned false or its period is too long; or it was too long from the beginning. -/
inductive Life (raises : κ → Prop) (timer : TimerInfo κ) : Nat → Point κ W → Prop
  | waits {n goal : Nat} {p : Point κ W} (expires : (inPeriod timer n).expires = goal)
      (located : Located True (inPeriod timer n) goal p)
      (repeated : 0 < n → 0 < timer.cycle ∧ ¬ raises timer.callback) : Life raises timer n p
  | runs {n w : Nat} {ops : List (TimerOp κ)} {result : Option Bool} {todo : List Nat} {s : TimerState κ W}
      (expires : (inPeriod timer n).expires = s.vCurrentFrameIdx)
      (repeated : 0 < n → 0 < timer.cycle ∧ ¬ raises timer.callback) :
      Life raises timer (n + 1) ⟨.calling w (inPeriod timer n) ops result todo, s⟩
  | ended {n : Nat} {p : Point κ W} (absent : Absent timer.id p) (repeated : 0 < n → 0 < timer.cycle)
      (returned : ¬ raises timer.callback) : Life raises timer (n + 1) p
  | tooLong {p : Point κ W} (far : 43200000 ≤ timer.expires) (absent : Absent timer.id p) : Life raises timer 0 p

section Lives

variable {env : TimerEnv κ W} {raises : κ → Prop} {timer : TimerInfo κ} {n : Nat} {p q : Point κ W}

omit [Arithmetic] in
/-- A timer that is not put in again behind its callback is gone. -/
theorem Finishes.absent {s t : TimerState κ W} {running : TimerInfo κ} {result : Bool} {w : Nat} {todo : List Nat}
    (finishes : Finishes s running result t) (known : running.id ≤ s.timerCounter)
    (gone : ∀ v i,
      ¬ (0 < running.cycle ∧ result = true ∧ (barrierDown s).slotFor (again running).expires = some (v, i))) :
    Absent running.id (⟨.visiting w todo, t⟩ : Point κ W) := by
  refine ⟨known.trans_eq finishes.history.2.symm, ?_, trivial⟩
  rintro y ⟨v, i, member⟩
  rcases (finishes.members v i y).mp member with ⟨-, other⟩ | ⟨cyclic, returned, -, choice⟩
  · exact other
  · exact absurd ⟨cyclic, returned, choice⟩ (gone v i)

omit [Arithmetic] in
/-- A callback returns: the timer waits for its next expiry, or it is over. -/
theorem Finishes.life {s t : TimerState κ W} {w : Nat} {result : Bool} {todo : List Nat}
    (finishes : Finishes s (inPeriod timer n) result t) (known : timer.id ≤ s.timerCounter)
    (expires : (inPeriod timer n).expires = s.vCurrentFrameIdx) (returned : ¬ raises timer.callback)
    (repeated : 0 < n → 0 < timer.cycle ∧ ¬ raises timer.callback) :
    Life raises timer (n + 1) ⟨.visiting w todo, t⟩ := by
  have ends : (∀ v i, ¬ (0 < timer.cycle ∧ result = true ∧
      (barrierDown s).slotFor (again (inPeriod timer n)).expires = some (v, i))) →
      Life raises timer (n + 1) ⟨.visiting w todo, t⟩ :=
    fun gone => .ended (finishes.absent known gone) (fun more => (repeated more).1) returned
  by_cases cyclic : 0 < timer.cycle ∧ result = true
  · obtain ⟨cyclic, rfl⟩ := cyclic
    have next : (again (inPeriod timer n)).expires = s.vCurrentFrameIdx + timer.cycle := by
      rw [← expires]
      rfl
    by_cases reach : timer.cycle < 43200000
    · obtain ⟨goal, isGoal⟩ := Int.eq_ofNat_of_zero_le (show 0 ≤ (again (inPeriod timer n)).expires by omega)
      have located : Located True _ goal ⟨.visiting w todo, t⟩ :=
        finishes.located_again cyclic isGoal (by omega) (by omega)
      rw [again_inPeriod] at isGoal located
      exact .waits isGoal located fun _ => ⟨cyclic, returned⟩
    · refine ends fun v i again => ?_
      rcases slotFor_cases (barrierDown s) (s.vCurrentFrameIdx + timer.cycle) with ⟨due, -⟩ | ⟨-, near, -⟩ | ⟨-, none⟩
      · change _ ≤ (s.vCurrentFrameIdx : Int) at due
        omega
      · change _ < (s.vCurrentFrameIdx : Int) + 43200000 at near
        omega
      · rw [next, none] at again
        exact absurd again.2.2 (by simp)
  · exact ends fun v i again => cyclic ⟨again.1, again.2.1⟩

/-- What a step makes of a timer, as long as no callback raises. -/
theorem Life.moves (orderlyP : Orderly p) (orderlyQ : Orderly q) (plainly : Plainly raises p)
    (life : Life raises timer n p) (moves : Moves env p q) (calm : Calm q.state.trace) {events : List TimerEvent}
    (grown : q.state.trace = p.state.trace ++ events) :
    (callsOf timer.id events = [] ∧ Life raises timer n q) ∨
      ∃ frame : Nat, callsOf timer.id events = [frame] ∧ (frame : Int) = (inPeriod timer n).expires ∧
        Life raises timer (n + 1) q := by
  have away : Absent timer.id p → Absent timer.id q ∧ callsOf timer.id events = [] := by
    intro absent
    obtain ⟨absentQ, events', grown', never⟩ := absent.moves moves
    obtain rfl : events' = events := List.append_cancel_left (grown'.symm.trans grown)
    exact ⟨absentQ, callsOf_eq_nil never⟩
  cases life with
  | waits expires located repeated =>
      cases located.moves orderlyP orderlyQ moves with
      | silent trace located =>
          obtain rfl : events = [] := List.self_eq_append_right.mp (trace.symm.trans grown)
          exact Or.inl ⟨rfl, .waits expires located repeated⟩
      | other event trace notDone notStarted located =>
          obtain rfl : events = [event] := List.append_cancel_left (grown.symm.trans trace)
          refine Or.inl ⟨callsOf_eq_nil fun frame member => ?_, .waits expires located repeated⟩
          exact notStarted frame (List.mem_singleton.mp member).symm
      | removed trace =>
          obtain ⟨events', trace', quiet⟩ := plainly.quiet moves
          obtain rfl : events' = [_] := List.append_cancel_left (trace'.symm.trans trace)
          exact absurd rfl (quiet _ (List.mem_singleton_self _) timer.id).1
      | started trace here running =>
          obtain rfl : events = [_] := List.append_cancel_left (grown.symm.trans trace)
          obtain ⟨w, ops, result, todo, calling⟩ := running
          obtain ⟨mode, s⟩ := q
          change mode = _ at calling
          subst calling
          exact Or.inr ⟨_, callsOf_started _ _, expires.symm, .runs (expires.trans (congrArg _ here.symm)) repeated⟩
      | raised isCalm id trace => exact absurd (by simp [trace]) (calm id)
  | runs expires repeated =>
      cases moves with
      | add adds slot => exact absurd plainly.1 (by simp)
      | remove removes => exact absurd plainly.1 (by simp)
      | raised => exact absurd (List.mem_append_right _ (List.mem_singleton_self _)) (calm timer.id)
      | returned finishes =>
          obtain rfl : events = [] := List.self_eq_append_right.mp (finishes.history.1.symm.trans grown)
          have returned : ¬ raises timer.callback := fun raising => absurd (plainly.2.1.mpr raising) (by simp)
          exact Or.inl ⟨rfl, finishes.life orderlyP.2.2.2 expires returned repeated⟩
  | ended absent repeated returned => exact Or.inl ⟨(away absent).2, .ended (away absent).1 repeated returned⟩
  | tooLong far absent => exact Or.inl ⟨(away absent).2, .tooLong far (away absent).1⟩

end Lives

/-! ## Sets of timers

Timers that are added one after the other before any time passes, as the claim on errors has them.
-/

/-- The calls of a timer so far are one for each of its first `n` expiries, in the frame of the expiry. -/
def CalledOn (expires cycle : Int) (n : Nat) (calls : List Nat) : Prop :=
  calls.map Int.ofNat = (List.range n).map fun k : Nat => expires + k * cycle

omit [Arithmetic] in
/-- One more call, in the frame of the next expiry. -/
theorem CalledOn.succ {timer : TimerInfo κ} {n frame : Nat} {calls : List Nat}
    (called : CalledOn timer.expires timer.cycle n calls) (expired : (frame : Int) = (inPeriod timer n).expires) :
    CalledOn timer.expires timer.cycle (n + 1) (calls ++ [frame]) := by
  unfold CalledOn at called ⊢
  rw [List.map_append, called, List.range_succ, List.map_append]
  exact congrArg (_ ++ [·]) expired

/-- The timers that were added are those of `infos`, no others are in the wheels, and each has been called on its
expiries. -/
structure Planned (raises : κ → Prop) (infos : List (TimerInfo κ)) (p : Point κ W) : Prop where
  added : ∀ (id : Nat) (expires : Int) (frame : Nat) (cycle : Int), .added id expires frame cycle ∈ p.state.trace →
    ∃ timer ∈ infos, timer.id = id ∧ timer.expires = expires ∧ timer.cycle = cycle
  stored : ∀ y, InWheels p.state y → ∃ timer ∈ infos, ∃ n, y = inPeriod timer n
  lives : ∀ timer ∈ infos, ∃ n, CalledOn timer.expires timer.cycle n (callsOf timer.id p.state.trace) ∧
    Life raises timer n p

section Planned

variable {env : TimerEnv κ W} {raises : κ → Prop} {infos : List (TimerInfo κ)} {p q : Point κ W} {s : TimerState κ W}

/-- The step lemma for all timers of the set at once. -/
theorem Planned.moves (orderlyP : Orderly p) (orderlyQ : Orderly q) (plainly : Plainly raises p)
    (planned : Planned raises infos p) (moves : Moves env p q) (calm : Calm q.state.trace) :
    Planned raises infos q := by
  obtain ⟨events, grown, quiet⟩ := plainly.quiet moves
  refine ⟨fun id expires frame cycle member => ?_, fun y there => ?_, fun timer member => ?_⟩
  · rw [grown] at member
    rcases List.mem_append.mp member with before | new
    · exact planned.added id expires frame cycle before
    · exact absurd rfl ((quiet _ new id).2 expires frame cycle)
  · rcases plainly.stored moves there with before | ⟨running, before, rfl⟩
    · exact planned.stored y before
    · obtain ⟨timer, member, n, rfl⟩ := planned.stored running before
      exact ⟨timer, member, n + 1, again_inPeriod timer n⟩
  · obtain ⟨n, called, life⟩ := planned.lives timer member
    rw [grown, callsOf_append]
    rcases life.moves orderlyP orderlyQ plainly moves calm grown with ⟨none, later⟩ | ⟨frame, one, expired, later⟩
    · exact ⟨n, by rw [none, List.append_nil]; exact called, later⟩
    · exact ⟨n + 1, by rw [one]; exact called.succ expired, later⟩

/-- A call of `update` begins. -/
theorem Planned.update (planned : Planned raises infos ⟨.outside, s⟩) (elapse : ℚ) :
    Planned raises infos ⟨.turning, elapsed elapse s⟩ := by
  refine ⟨planned.added, planned.stored, fun timer member => ?_⟩
  obtain ⟨n, called, life⟩ := planned.lives timer member
  refine ⟨n, called, ?_⟩
  cases life with
  | waits expires located repeated => exact .waits expires located repeated
  | ended absent repeated returned => exact .ended absent repeated returned
  | tooLong far absent => exact .tooLong far absent

/-- Timers have been added, and nothing else has happened. -/
structure Idle (raises : κ → Prop) (infos : List (TimerInfo κ)) (s : TimerState κ W) : Prop where
  rests : Rests .fresh s
  frame : s.vCurrentFrameIdx = 0
  elapse : s.vElapseTime = 0
  barrier : s.innerBarrier = false
  calls : ∀ id, callsOf id s.trace = []
  calm : Calm s.trace
  planned : Planned raises infos ⟨.outside, s⟩

omit [Arithmetic] in
theorem idle_init (raises : κ → Prop) (world : W) : Idle raises [] (TimerState.init world) where
  rests := rests_init world
  frame := rfl
  elapse := rfl
  barrier := rfl
  calls _ := rfl
  calm _ := by simp [TimerState.init]
  planned := by
    refine ⟨fun id expires frame cycle member => absurd member (by simp [TimerState.init]), ?_, by simp⟩
    rintro y ⟨w, i, member⟩
    fin_cases w <;> exact absurd member List.not_mem_nil

/-- One more timer. -/
theorem Idle.add (idle : Idle raises infos s) {delay : ℚ} (notBack : 0 ≤ delay) (cb : κ) (cycle : Int) :
    Idle raises (infos ++ [infoFor s delay cb cycle]) (stateAfter env s (.op (.add delay cb cycle))) := by
  have adds : Adds s (infoFor s delay cb cycle) (stateAfter env s (.op (.add delay cb cycle))) :=
    applyAdd_exec idle.rests delay cb cycle
  have rests : Rests .fresh (stateAfter env s (.op (.add delay cb cycle))) := applyAdd_rests idle.rests delay cb cycle
  have notPast := frame_le_expires idle.elapse.symm.le notBack cb cycle
  generalize stateAfter env s (.op (.add delay cb cycle)) = t at adds rests ⊢
  have new : (infoFor s delay cb cycle).id = s.timerCounter + 1 := rfl
  have isCycle : (infoFor s delay cb cycle).cycle = cycle := rfl
  generalize infoFor s delay cb cycle = info at adds notPast new isCycle ⊢
  have calls : ∀ id, callsOf id t.trace = [] := by
    intro id
    rw [adds.trace, callsOf_append, idle.calls]
    rfl
  refine ⟨rests, adds.clock.frame.trans idle.frame, adds.clock.elapse.trans idle.elapse,
    adds.clock.barrier.trans idle.barrier, calls, fun id member => ?_, fun id e f c member => ?_, fun y there => ?_,
    fun timer member => ?_⟩
  · rw [adds.trace] at member
    rcases List.mem_append.mp member with before | last
    · exact idle.calm id before
    · exact absurd (List.mem_singleton.mp last) (by simp)
  · change .added id e f c ∈ t.trace at member
    rw [adds.trace] at member
    rcases List.mem_append.mp member with before | last
    · obtain ⟨timer, inside, same⟩ := idle.planned.added id e f c before
      exact ⟨timer, List.mem_append_left _ inside, same⟩
    · obtain ⟨rfl, rfl, -, rfl⟩ := TimerEvent.added.inj (List.mem_singleton.mp last)
      exact ⟨info, by simp, rfl, rfl, rfl⟩
  · obtain ⟨w, i, member⟩ := there
    rcases (adds.members w i y).mp member with before | ⟨rfl, -⟩
    · obtain ⟨timer, inside, n, same⟩ := idle.planned.stored y ⟨w, i, before⟩
      exact ⟨timer, List.mem_append_left _ inside, n, same⟩
    · exact ⟨y, by simp, 0, (inPeriod_zero y).symm⟩
  · rcases List.mem_append.mp member with before | last
    · obtain ⟨n, called, life⟩ := idle.planned.lives timer before
      have same : callsOf timer.id t.trace = callsOf timer.id s.trace := (calls _).trans (idle.calls _).symm
      refine ⟨n, same ▸ called, ?_⟩
      cases life with
      | waits expires located repeated => exact .waits expires (located.added adds located.2) repeated
      | ended absent repeated returned => exact .ended (absent.adds new adds trivial) repeated returned
      | tooLong far absent => exact .tooLong far (absent.adds new adds trivial)
    · obtain rfl := List.mem_singleton.mp last
      refine ⟨0, by rw [calls]; rfl, ?_⟩
      have waits : ∀ goal : Nat, timer.expires = goal → Located True timer goal ⟨.outside, t⟩ →
          Life raises timer 0 ⟨.outside, t⟩ := by
        intro goal expires located
        rw [← inPeriod_zero timer] at located expires
        exact .waits expires located (fun more => absurd more (Nat.lt_irrefl 0))
      rcases adds.outside idle.rests new idle.barrier with
        ⟨due, -, located⟩ | ⟨-, atBound, -⟩ | ⟨goal, -, -, isGoal, located⟩ | ⟨far, absent⟩
      · exact waits _ (le_antisymm due notPast) located
      · rw [idle.rests.index, idle.frame] at atBound
        exact absurd (by decide) atBound
      · exact waits goal isGoal located
      · exact .tooLong (by omega) absent

/-- A timer of a set: its delay, its callback and its cycle. -/
def addCall (timer : ℚ × κ × Int) : TimerCall κ := .op (.add timer.1 timer.2.1 timer.2.2)

/-- A set of timers is added. -/
theorem Idle.foldl (env : TimerEnv κ W) (idle : Idle raises infos s) {set : List (ℚ × κ × Int)}
    (notBack : ∀ timer ∈ set, 0 ≤ timer.1) :
    ∃ more, Idle raises (infos ++ more) ((set.map addCall).foldl (stateAfter env) s) ∧
      more.map (fun x => (x.expires, x.callback)) = set.map fun timer => (framesUntil timer.1 0, timer.2.1) := by
  induction set generalizing infos s with
  | nil => exact ⟨[], by rw [List.append_nil]; exact idle, rfl⟩
  | cons timer set ih =>
      obtain ⟨delay, cb, cycle⟩ := timer
      have nonneg : 0 ≤ delay := notBack (delay, cb, cycle) (List.mem_cons_self ..)
      have added : Idle raises _ (stateAfter env s (addCall (delay, cb, cycle))) := idle.add nonneg cb cycle
      obtain ⟨more, after, same⟩ := ih added fun timer member => notBack timer (List.mem_cons_of_mem _ member)
      rw [List.append_assoc] at after
      refine ⟨_, after, ?_⟩
      have expires : (infoFor s delay cb cycle).expires = framesUntil delay 0 := by
        change framesUntil delay s.vElapseTime + (s.vCurrentFrameIdx : Int) = _
        rw [idle.elapse, idle.frame, Nat.cast_zero, add_zero]
      change ((infoFor s delay cb cycle).expires, cb) :: more.map _ = (framesUntil delay 0, cb) :: set.map _
      rw [expires, same]

end Planned

/-! ## Runs of updates

Every timer of the set lives on through the calls of `update`, as long as no callback raises.
-/

section Updates

variable {env : TimerEnv κ W} {raises : κ → Prop} {infos : List (TimerInfo κ)} {p q : Point κ W}
  {calls : List (TimerCall κ)}

omit [Arithmetic] in
/-- Calls of `update` with positive values go forward. -/
theorem forward_updates {elapses : List ℚ} (positive : ∀ elapse ∈ elapses, 0 < elapse) :
    Forward (elapses.map (TimerCall.update : ℚ → TimerCall κ)) := by
  intro x member
  obtain ⟨elapse, inside, same⟩ := List.mem_map.mp member
  obtain rfl := TimerCall.update.inj same
  exact positive _ inside

/-- What calls of `update` and steps keep. -/
theorem Runs.onUpdates {I : Point κ W → Prop} (orderly : Orderly p) (start : I p)
    (onUpdate : ∀ s elapse, I ⟨.outside, s⟩ → I ⟨.turning, elapsed elapse s⟩)
    (onStep : ∀ before q r, before <+: calls → Runs env p before q → Orderly q → Orderly r → I q → Moves env q r → I r)
    (only : ∀ op, .op op ∉ calls) (runs : Runs env p calls q) : I q := by
  induction runs with
  | nil => exact start
  | @call calls s runs call ih =>
      have before := ih (fun before q r isPrefix => onStep before q r (isPrefix.trans (List.prefix_append _ _)))
        fun op member => only op (List.mem_append_left _ member)
      cases call with
      | update elapse => exact onUpdate s elapse before
      | op op => exact absurd (List.mem_append_right _ (List.mem_singleton_self _)) (only op)
  | step runs step ih =>
      have orderlyQ := runs.orderly orderly
      obtain ⟨orderlyR, moves⟩ := step.moves orderlyQ
      exact onStep _ _ _ (List.prefix_refl _) runs orderlyQ orderlyR (ih onStep only) moves

/-- The run lemma. -/
theorem Runs.plainly (plain : Plain env raises) (orderly : Orderly p) (start : Plainly raises p)
    (only : ∀ op, .op op ∉ calls) (runs : Runs env p calls q) : Plainly raises q :=
  runs.onUpdates orderly start (fun _ _ _ => trivial)
    (fun _ _ _ _ _ _ _ plainly moves => plainly.moves plain moves) only

/-- A set of timers goes by its plan as long as no callback raises. -/
theorem Runs.planned (plain : Plain env raises) {s : TimerState κ W} (idle : Idle raises infos s)
    (only : ∀ op, .op op ∉ calls) (runs : Runs env ⟨.outside, s⟩ calls q) (calm : Calm q.state.trace) :
    Planned raises infos q := by
  have orderly : Orderly (⟨.outside, s⟩ : Point κ W) := ⟨.fresh, idle.rests⟩
  refine runs.onUpdates (I := fun q => Calm q.state.trace → Planned raises infos q) orderly (fun _ => idle.planned)
    (fun s elapse planned calm => (planned calm).update elapse) ?_ only calm
  intro before q r isPrefix runs orderlyQ orderlyR planned moves calm
  obtain ⟨events, grown⟩ := moves.trace
  have calmBefore : Calm q.state.trace := by
    rw [grown] at calm
    exact calm.of_append
  have plainly := runs.plainly plain orderly trivial fun op member => only op (isPrefix.subset member)
  exact (planned calmBefore).moves orderlyQ orderlyR plainly moves calm

end Updates

end GameServer.Timer
