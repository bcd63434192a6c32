/-
Module: GameServer.Timer.Frames
Purpose: One frame of `update` keeps the wheel in step with the map of expiries: the callbacks of its
  slot, and its end.
Trusted boundary: none
Main exports: callTimer_triple, fireTimer_triple, fireTimer_raised, fireSlot_triple, updateFrame_triple
-/
import GameServer.Timer.Cascade

namespace GameServer.Timer

open Lib Lib.LuaM TimerState

variable {κ W : Type} (env : TimerEnv κ W)

/-! ## Callbacks

A callback in the slot of a frame is one whose timer the map lets go in this frame.
-/

/-- A timer in the slot of the frame expires in the frame. -/
theorem Timely.expires_eq {frame : Nat} {next : Fin 4 → Nat} {e : Int}
    (timely : Timely frame next 0 (frame % 200) e) : e = frame := by
  simp only [Timely] at timely
  omega

/-- Starting the callback of a timer that is due follows the `started` step of the map. -/
theorem Inv.start {next : Fin 4 → Nat} {s : TimerState κ W} (inv : Inv next [] none s)
    {timer : TimerInfo κ} (member : timer ∈ s.slot 0 (s.vCurrentFrameIdx % 200)) :
    Inv next [] (some timer.id) (s.record (.started timer.id s.vCurrentFrameIdx)) := by
  obtain ⟨m, matched⟩ := inv.matched
  have due : m.waiting timer.id = some (m.frame : Int) := by
    have expires := (inv.timely 0 _ timer member).expires_eq
    rw [matched.waiting]
    exact ⟨by simp, timer, Or.inr ⟨0, _, member⟩, rfl, by rw [expires, matched.frame]⟩
  refine ⟨inv.wellFormed.congr (fun _ _ => rfl) (fun _ => rfl) rfl (Nat.le_refl _), inv.timely,
    inv.oneShot, m.drop timer.id, ⟨matched.frame, ?_, matched.issued, ?_, ?_⟩⟩
  · intro id e
    by_cases same : id = timer.id
    · subst same
      simp
    · rw [m.drop_waiting_other same, matched.waiting id e]
      have notRunning : (some timer.id : Option Nat) ≠ some id :=
        fun running => same (Option.some.inj running).symm
      simp only [ne_eq, reduceCtorEq, not_false_eq_true, true_and, notRunning]
      rfl
  · rintro id running
    obtain rfl := Option.some.inj running
    exact inv.wellFormed.known timer (Or.inr ⟨0, _, member⟩)
  · change Replays (s.trace ++ [.started timer.id s.vCurrentFrameIdx]) (m.drop timer.id)
    rw [← matched.frame]
    exact matched.replays.snoc (.started due)

variable [Arithmetic]

/-- A callback adds to the history at most. -/
theorem callTimer_grows (timer : TimerInfo κ) : Keeps Grows (callTimer env timer) := by
  refine Keeps.bind (grows_silent (fun _ => rfl) (fun _ => rfl) fun _ => Nat.le_refl _) fun _ => ?_
  refine Keeps.bind (grows_record _) fun _ => Keeps.get.bind fun s => ?_
  refine Keeps.bind (grows_silent (fun _ => rfl) (fun _ => rfl) fun _ => Nat.le_refl _) fun _ => ?_
  refine (Keeps.forEach applyOp_grows _).bind fun _ => ?_
  split
  · exact Keeps.bind (grows_record _) fun _ => Keeps.raise
  · exact Keeps.bind (grows_silent (fun _ => rfl) (fun _ => rfl) fun _ => Nat.le_refl _) fun _ => Keeps.pure _

/-- So does what is done with its timer. -/
theorem fireTimer_grows (wheelIndex idx : Nat) :
    Keeps Grows (fireTimer env wheelIndex idx) := by
  refine Keeps.get.bind fun s => ?_
  split
  · exact Keeps.pure ()
  · refine (callTimer_grows env _).bind fun result => ?_
    refine (removeTimer_grows idx).bind fun _ => ?_
    exact Keeps.ite (internalAddTimer_grows _) (Keeps.pure ())

/-- The call of a callback: the timer is running afterwards, and the slot has got nothing new. -/
theorem callTimer_triple (frame : Nat) (timer : TimerInfo κ) (D : TimerInfo κ → Prop) :
    Triple FineSoFar
      (fun s => InFrame frame none false s ∧ timer ∈ s.slot 0 (frame % 200) ∧
        ∀ x ∈ s.slot 0 (frame % 200), D x)
      (callTimer env timer)
      (fun _ s => InFrame frame (some timer.id) false s ∧ ∀ x ∈ s.slot 0 (frame % 200), D x) := by
  unfold callTimer
  refine Triple.bind (Q := fun _ s => InFrame frame none true s ∧
    timer ∈ s.slot 0 (frame % 200) ∧ ∀ x ∈ s.slot 0 (frame % 200), D x)
    (Triple.modify (fun _ fine => fine) ?_) fun _ => ?_
  · rintro s ⟨⟨inv, clock⟩, member, current⟩ _
    exact ⟨⟨inv.congr (fun _ _ => rfl) (fun _ => rfl) rfl rfl rfl rfl,
      ⟨clock.frame, clock.index, rfl⟩⟩, member, current⟩
  refine Triple.bind (Q := fun _ s => InFrame frame (some timer.id) true s ∧
    ∀ x ∈ s.slot 0 (frame % 200), D x)
    (Triple.modify (fun _ fine => (fineSoFar_record.mp fine).1) ?_) fun _ => ?_
  · rintro s ⟨⟨inv, clock⟩, member, current⟩ _
    exact ⟨⟨inv.start (clock.frame ▸ member), ⟨clock.frame, clock.index, clock.barrier⟩⟩, current⟩
  refine Triple.get.bind fun run => ?_
  refine Triple.bind (Q := fun _ s => InFrame frame (some timer.id) true s ∧
    ∀ x ∈ s.slot 0 (frame % 200), D x) (Triple.modify (fun _ fine => fine) ?_) fun _ => ?_
  · rintro s ⟨-, ⟨inv, clock⟩, current⟩ _
    exact ⟨⟨inv.congr (fun _ _ => rfl) (fun _ => rfl) rfl rfl rfl rfl,
      ⟨clock.frame, clock.index, clock.barrier⟩⟩, current⟩
  refine Triple.bind (Q := fun _ s => InFrame frame (some timer.id) true s ∧
    ∀ x ∈ s.slot 0 (frame % 200), D x) ?_ fun _ => ?_
  · refine Triple.consequence
      (Triple.forEach (I := fun _ s => InFrame frame (some timer.id) true s ∧
        ∀ x ∈ s.slot 0 (frame % 200), D x) (fun op _ => ?_) _) (fun _ h => h) (fun _ _ h => h)
    exact (applyOp_triple (fun _ => Nat.le_refl (frame + 1)) D op).consequence
      (fun s ⟨⟨inv, clock⟩, current⟩ => ⟨inv, clock, current⟩)
      (fun _ s ⟨inv, clock, current⟩ => ⟨⟨inv, clock⟩, current⟩)
  split
  · refine Triple.bind (Q := fun _ _ => False)
      (Triple.modify (fun _ fine => (fineSoFar_record.mp fine).1) ?_)
      fun _ => Triple.raise fun _ => id
    rintro s _ fine
    exact (fineSoFar_record.mp fine).2
  · refine Triple.bind (Q := fun _ s => InFrame frame (some timer.id) false s ∧
      ∀ x ∈ s.slot 0 (frame % 200), D x) (Triple.modify (fun _ fine => fine) ?_)
      fun _ => Triple.pure fun _ h => h
    rintro s ⟨⟨inv, clock⟩, current⟩ _
    exact ⟨⟨inv.congr (fun _ _ => rfl) (fun _ => rfl) rfl rfl rfl rfl,
      ⟨clock.frame, clock.index, rfl⟩⟩, current⟩

omit [Arithmetic] in
/-- After its callback a timer is taken out of the wheels. -/
private theorem removeFired_triple {frame : Nat} (idx : Nat) (D : TimerInfo κ → Prop) :
    Triple (σ := TimerState κ W) FineSoFar
      (fun s => InFrame frame (some idx) false s ∧ ∀ x ∈ s.slot 0 (frame % 200), D x)
      (removeTimer idx)
      (fun _ s => InFrame frame none false s ∧ ∀ x ∈ s.slot 0 (frame % 200), D x ∧ x.id ≠ idx) := by
  refine Triple.of_wp (remembers_of_grows (removeTimer_grows idx)) ?_
  rintro s ⟨⟨inv, clock⟩, current⟩
  refine wp_mono (removeTimer_spec inv.wellFormed idx) ?_ (fun _ => False.elim)
  intro _ t without _
  obtain ⟨m, matched⟩ := inv.matched
  have ended : m.waiting idx = none := by
    by_contra waits
    obtain ⟨e, expires⟩ := Option.ne_none_iff_exists'.mp waits
    exact ((matched.waiting idx e).mp expires).1 rfl
  have replays : Replays t.trace m := by
    rw [without.trace]
    exact matched.replays
  have invAfter : Inv (fun _ => frame + 1) [] none t :=
    inv.without without (fun _ _ => rfl) rfl rfl (fun _ h => absurd h (by simp))
      (fun k other running => absurd (Option.some.inj running).symm other) matched m rfl
      (fun _ h => h) ended replays (fun _ _ => rfl)
  refine ⟨⟨invAfter, clock.of_same without.clock⟩, ?_⟩
  intro x member
  obtain ⟨before, other⟩ := (without.members 0 _ x).mp member
  exact ⟨current x before, other⟩

/-- One turn of the loop over the slot: afterwards only timers that are still to be visited are in
it. -/
theorem fireTimer_triple {frame : Nat} (idx : Nat) (todo : List Nat) :
    Triple FineSoFar
      (fun s => InFrame frame none false s ∧ ∀ x ∈ s.slot 0 (frame % 200), x.id ∈ idx :: todo)
      (fireTimer env (frame % 200) idx)
      (fun _ s => InFrame frame none false s ∧ ∀ x ∈ s.slot 0 (frame % 200), x.id ∈ todo) := by
  unfold fireTimer
  refine Triple.get_bind (remembers_of_grows (fireTimer_grows env _ idx)) fun s₀ start => ?_
  obtain ⟨⟨inv, clock⟩, current⟩ := start
  split
  · rename_i gone
    refine Triple.pure ?_
    rintro s rfl
    refine ⟨⟨inv, clock⟩, fun x member => ?_⟩
    rcases List.mem_cons.mp (current x member) with same | later
    · exact absurd same (by simpa using List.find?_eq_none.mp gone x member)
    · exact later
  · rename_i timer isThere
    have idEq : timer.id = idx := by simpa using List.find?_some isThere
    have member : timer ∈ s₀.slot 0 (frame % 200) := List.mem_of_find?_eq_some isThere
    have oneShot : ¬ timer.cycle > 0 := not_lt.mpr (inv.oneShot timer (Or.inr ⟨0, _, member⟩))
    refine Triple.bind (Q := fun _ s => InFrame frame (some idx) false s ∧
      ∀ x ∈ s.slot 0 (frame % 200), x.id ∈ idx :: todo) ?_ fun result => ?_
    · refine (callTimer_triple env frame timer fun x => x.id ∈ idx :: todo).consequence ?_ ?_
      · rintro s rfl
        exact ⟨⟨inv, clock⟩, member, current⟩
      · rintro _ s called
        exact idEq ▸ called
    · refine (removeFired_triple idx _).bind fun _ => ?_
      rw [if_neg fun again => oneShot again.1]
      refine Triple.pure ?_
      rintro s ⟨inFrame, left⟩
      refine ⟨inFrame, fun x isLeft => ?_⟩
      obtain ⟨visited, other⟩ := left x isLeft
      exact (List.mem_cons.mp visited).resolve_left other

/-! ## Whole frames

A frame of the wheels is a frame of the map: its cascades, the callbacks of its slot, and its end.
-/

omit [Arithmetic] in
/-- The processing of a frame is begun in the map too. -/
theorem AtStart.begin {frame : Nat} {s : TimerState κ W} (start : AtStart frame s) :
    AtStart frame (s.record (.frame s.vCurrentFrameIdx)) := by
  obtain ⟨inv, clock⟩ := start
  obtain ⟨m, matched⟩ := inv.matched
  refine ⟨⟨inv.wellFormed.congr (fun _ _ => rfl) (fun _ => rfl) rfl (Nat.le_refl _), inv.timely,
    inv.oneShot, m, matched.frame, matched.waiting, matched.issued, matched.running, ?_⟩,
    clock.frame, clock.index, clock.barrier⟩
  change Replays (s.trace ++ [.frame s.vCurrentFrameIdx]) m
  rw [← matched.frame]
  exact matched.replays.snoc (.frame m)

omit [Arithmetic] in
/-- The timers that are left when the slot of the frame is empty expire later. -/
theorem Timely.later {frame : Nat} {w : Fin 4} {i : Nat} {e : Int}
    (timely : Timely frame (fun _ => frame + 1) w i e) (elsewhere : ¬ (w = 0 ∧ i = frame % 200)) :
    (frame : Int) < e ∧ Timely (frame + 1) (fun _ => max (frame + 1) 1) w i e := by
  match w with
  | 0 =>
      have other : i ≠ frame % 200 := fun here => elsewhere ⟨rfl, here⟩
      simp only [Timely] at timely ⊢
      omega
  | 1 =>
      simp only [Timely] at timely ⊢
      omega
  | 2 =>
      simp only [Timely] at timely ⊢
      omega
  | 3 =>
      simp only [Timely] at timely ⊢
      omega

omit [Arithmetic] in
/-- The last lines of a turn: the frame is finished in the map too. -/
theorem InFrame.finish {frame : Nat} {s : TimerState κ W} (inFrame : InFrame frame none false s)
    (empty : ∀ x, x ∉ s.slot 0 (frame % 200)) :
    AtStart (frame + 1)
      (({ s.record (.frameDone s.vCurrentFrameIdx) with
        vCurrentFrameIdx := s.vCurrentFrameIdx + 1 } : TimerState κ W).setIndex 0
          ((s.vWheels 0).index + 1)) := by
  obtain ⟨inv, clock⟩ := inFrame
  obtain ⟨m, matched⟩ := inv.matched
  have later : ∀ w i t, t ∈ s.slot w i → (frame : Int) < t.expires ∧
      Timely (frame + 1) (fun _ => max (frame + 1) 1) w i t.expires := by
    intro w i t member
    refine Timely.later (clock.frame ▸ inv.timely w i t member) ?_
    rintro ⟨rfl, rfl⟩
    exact empty t member
  have noneDue : ∀ id, m.waiting id ≠ some (m.frame : Int) := by
    intro id due
    obtain ⟨-, t, none | ⟨w, i, member⟩, -, expires⟩ := (matched.waiting id _).mp due
    · simp at none
    · have after := (later w i t member).1
      rw [expires, matched.frame, clock.frame] at after
      exact lt_irrefl _ after
  let advanced : TimerState κ W :=
    { s.record (.frameDone s.vCurrentFrameIdx) with vCurrentFrameIdx := s.vCurrentFrameIdx + 1 }
  have invAdvanced : Inv (fun _ => max (frame + 1) 1) [] none advanced := by
    refine ⟨inv.wellFormed.congr (fun _ _ => rfl) (fun _ => rfl) rfl (Nat.le_refl _), ?_, inv.oneShot,
      { m with frame := m.frame + 1 }, congrArg (· + 1) matched.frame, matched.waiting,
      matched.issued, matched.running, ?_⟩
    · intro w i t member
      change Timely (s.vCurrentFrameIdx + 1) _ w i t.expires
      rw [clock.frame]
      exact (later w i t member).2
    · change Replays (s.trace ++ [.frameDone s.vCurrentFrameIdx]) _
      rw [← matched.frame]
      exact matched.replays.snoc (.frameDone noneDue)
  have clockAdvanced : Clock (frame + 1) (frameIndex frame) false advanced :=
    ⟨congrArg (· + 1) clock.frame, clock.index, clock.barrier⟩
  have indexEq : Function.update (frameIndex frame) 0 ((s.vWheels 0).index + 1) =
      startIndex (frame + 1) := by
    funext v
    match v with
    | 0 =>
        rw [Function.update_self, clock.index]
        rfl
    | 1 => rfl
    | 2 => rfl
    | 3 => rfl
  exact ⟨invAdvanced.setIndex 0 _, indexEq ▸ clockAdvanced.setIndex 0 _⟩

/-- A callback that raises keeps its timer in the slot: `remove_timer` is not reached, and neither is the end of the
frame, so that the next call of `update` finds it there. -/
theorem fireTimer_raised {s : TimerState κ W} {timer : TimerInfo κ} {wheelIndex idx : Nat}
    (due : (s.slot 0 wheelIndex).find? (fun t => t.id = idx) = some timer)
    (raises : ∀ s', (env.callback timer.callback timer.id s').ops = [] ∧
      (env.callback timer.callback timer.id s').result = none) :
    wp (fireTimer env wheelIndex idx) (fun _ _ => False)
      (fun s' => (∀ w i, s'.slot w i = s.slot w i) ∧ s'.vCurrentFrameIdx = s.vCurrentFrameIdx) s := by
  simp only [fireTimer, wp_bind, wp_get, due, callTimer, wp_modify]
  obtain ⟨noOps, noResult⟩ := raises ({ s with innerBarrier := true }.record (.started timer.id s.vCurrentFrameIdx))
  simp only [noOps, noResult, forEach, wp_pure, wp_bind, wp_modify, wp_raise]
  exact ⟨fun _ _ => rfl, rfl⟩

/-- So does a whole slot. -/
theorem fireSlot_grows : Keeps Grows (fireSlot env) := by
  refine Keeps.get.bind fun s => Keeps.ite ?_ Keeps.raise
  refine (Keeps.forEach (fireTimer_grows env _) _).bind fun _ => ?_
  refine Keeps.bind (grows_record _) fun _ => ?_
  exact Keeps.bind (grows_silent (fun _ => rfl) (fun _ => rfl) fun _ => Nat.le_succ _) fun _ =>
    grows_silent (fun _ => rfl) (fun _ => rfl) fun _ => Nat.le_refl _

/-- A frame that is over counts. -/
theorem fireSlot_counts (s : TimerState κ W) :
    wp (fireSlot env) (fun _ t => s.vCurrentFrameIdx < t.vCurrentFrameIdx) (fun _ => True) s := by
  simp only [fireSlot, wp_bind, wp_get]
  rw [wp_ite]
  refine ⟨fun _ => ?_, fun _ => trivial⟩
  simp only [wp_bind, wp_modify]
  refine wp_mono (Keeps.forEach (fireTimer_grows env _) _ s) (fun _ t fired => ?_) fun _ _ => trivial
  exact Nat.lt_succ_of_le fired.2.2

/-- The callbacks of a frame, and its end. -/
theorem fireSlot_triple {frame : Nat} :
    Triple FineSoFar (InFrame frame none false) (fireSlot env) fun _ => AtStart (frame + 1) := by
  unfold fireSlot
  refine Triple.get_bind (remembers_of_grows (fireSlot_grows env)) ?_
  rintro s₀ ⟨inv, clock⟩
  have indexEq : (s₀.vWheels 0).index = frame % 200 := clock.index 0
  have inside : frame % 200 < (s₀.vWheels 0).bound := by
    rw [inv.wellFormed.bounds]
    exact Nat.mod_lt _ (by decide)
  rw [indexEq, if_pos inside]
  let ids := (env.pairs s₀ (s₀.slot 0 (frame % 200))).map TimerInfo.id
  refine Triple.bind (Q := fun _ s => InFrame frame none false s ∧
    ∀ x ∈ s.slot 0 (frame % 200), x.id ∈ ([] : List Nat)) ?_ fun _ => ?_
  · refine (Triple.forEach (I := fun todo s => InFrame frame none false s ∧
      ∀ x ∈ s.slot 0 (frame % 200), x.id ∈ todo) (fireTimer_triple env) ids).consequence ?_
      fun _ _ done => done
    rintro s rfl
    refine ⟨⟨inv, clock⟩, fun x member => List.mem_map_of_mem ?_⟩
    exact (env.pairs_perm s _).mem_iff.mpr member
  · refine Triple.of_wp (remembers_of_grows ?_) ?_
    · refine Keeps.bind (grows_record _) fun _ => ?_
      exact Keeps.bind (grows_silent (fun _ => rfl) (fun _ => rfl) fun _ => Nat.le_succ _) fun _ =>
        grows_silent (fun _ => rfl) (fun _ => rfl) fun _ => Nat.le_refl _
    · rintro s ⟨inFrame, visited⟩
      simp only [wp_bind, wp_modify]
      intro _
      refine inFrame.finish fun x member => ?_
      exact absurd (visited x member) (by simp)

/-- One turn of `update` works off one frame. -/
theorem updateFrame_triple {frame : Nat} :
    Triple FineSoFar (AtStart frame) (updateFrame env) fun _ => AtStart (frame + 1) := by
  unfold updateFrame
  refine Triple.bind (Q := fun _ => AtStart frame) (Triple.modify (fun _ fine => fine) ?_)
    fun _ => ?_
  · rintro s ⟨inv, clock⟩ _
    exact ⟨inv.congr (fun _ _ => rfl) (fun _ => rfl) rfl rfl rfl rfl,
      clock.frame, clock.index, clock.barrier⟩
  refine Triple.bind (Q := fun _ s => frame < 43200000 ∧ AtStart frame s)
    (Triple.modify (fun _ fine => (fineSoFar_record.mp fine).1) ?_) fun _ => ?_
  · intro s start fine
    have reach : s.vCurrentFrameIdx < 43200000 := (fineSoFar_record.mp fine).2
    exact ⟨start.2.frame ▸ reach, start.begin⟩
  refine Triple.bind (Q := fun _ => InFrame frame none false) ?_ fun _ => fireSlot_triple env
  exact Triple.assume (remembers_of_grows (cascade_grows env _ _)) fun reach =>
    cascade_triple env reach

end GameServer.Timer
