/-
Module: GameServer.Lib.Runs
Purpose: Finite runs of a partial step function, guards required at every step of a run, and the
  induction that lifts a step lemma to whole runs.
Trusted boundary: none
Main exports: append_singleton_split, exists_first, runSteps, Guarded, runSteps_append, runSteps_invariant,
  guarded_invariant, forall_prefix_iff_guarded, forall_reached_iff_guarded
-/
import Mathlib.Data.List.Basic
import Mathlib.Data.Option.Basic

namespace GameServer.Lib

variable {σ α : Type*}

/-- Where an entry of a list stands when an entry is added at the end: it is that one, or it was there before. -/
theorem append_singleton_split {x y : α} {xs before after : List α} (split : xs ++ [x] = before ++ y :: after) :
    (after = [] ∧ xs = before ∧ x = y) ∨ ∃ rest, after = rest ++ [x] ∧ xs = before ++ y :: rest := by
  rcases List.eq_nil_or_concat after with rfl | ⟨rest, last, rfl⟩
  · obtain ⟨same, lasts⟩ := List.append_inj' split rfl
    exact Or.inl ⟨rfl, same, (List.cons.inj lasts).1⟩
  · rw [List.concat_eq_append, ← List.cons_append, ← List.append_assoc] at split
    obtain ⟨same, lasts⟩ := List.append_inj' split rfl
    obtain rfl := (List.cons.inj lasts).1
    exact Or.inr ⟨rest, List.concat_eq_append .., same⟩

/-- The first entry of a list with a property. -/
theorem exists_first {P : α → Prop} {xs : List α} (some : ∃ x ∈ xs, P x) :
    ∃ before x after, xs = before ++ x :: after ∧ P x ∧ ∀ y ∈ before, ¬ P y := by
  induction xs with
  | nil =>
      obtain ⟨x, member, -⟩ := some
      simp at member
  | cons y xs ih =>
      by_cases here : P y
      · exact ⟨[], y, xs, rfl, here, by simp⟩
      · have later : ∃ x ∈ xs, P x := by
          obtain ⟨x, member, holds⟩ := some
          rcases List.mem_cons.mp member with rfl | inside
          · exact absurd holds here
          · exact ⟨x, inside, holds⟩
        obtain ⟨before, x, after, rfl, holds, quiet⟩ := ih later
        refine ⟨y :: before, x, after, rfl, holds, fun z member => ?_⟩
        rcases List.mem_cons.mp member with rfl | inside
        · exact here
        · exact quiet z inside

/-- Execute the actions in order; `none` as soon as one of them is not enabled. -/
def runSteps (step : σ → α → Option σ) : σ → List α → Option σ
  | s, [] => some s
  | s, a :: as => (step s a).bind fun s' => runSteps step s' as

@[simp] theorem runSteps_nil (step : σ → α → Option σ) (s : σ) :
    runSteps step s [] = some s := rfl

@[simp] theorem runSteps_cons (step : σ → α → Option σ) (s : σ) (a : α) (as : List α) :
    runSteps step s (a :: as) = (step s a).bind fun s' => runSteps step s' as := rfl

/-- A nonempty run is a first step followed by a shorter run. -/
theorem runSteps_cons_eq_some {step : σ → α → Option σ} {s t : σ} {a : α} {as : List α} :
    runSteps step s (a :: as) = some t ↔
      ∃ m, step s a = some m ∧ runSteps step m as = some t := by
  simp [Option.bind_eq_some_iff]

/-- A run over a concatenation is the first run followed by the second. -/
theorem runSteps_append (step : σ → α → Option σ) (s : σ) (as bs : List α) :
    runSteps step s (as ++ bs) = (runSteps step s as).bind fun m => runSteps step m bs := by
  induction as generalizing s with
  | nil => simp
  | cons a as ih =>
      cases hstep : step s a with
      | none => simp [hstep]
      | some m => simp [hstep, ih m]

/-- `Guarded step G s as`: along the run of `as` from `s`, every action meets the guard `G` at the
state it is taken in.  The guard sees the state before the step and the action, nothing later. -/
def Guarded (step : σ → α → Option σ) (G : σ → α → Prop) : σ → List α → Prop
  | _, [] => True
  | s, a :: as => G s a ∧ ∀ m, step s a = some m → Guarded step G m as

@[simp] theorem guarded_nil (step : σ → α → Option σ) (G : σ → α → Prop) (s : σ) :
    Guarded step G s [] := trivial

theorem guarded_cons {step : σ → α → Option σ} {G : σ → α → Prop} {s : σ} {a : α}
    {as : List α} :
    Guarded step G s (a :: as) ↔ G s a ∧ ∀ m, step s a = some m → Guarded step G m as :=
  Iff.rfl

theorem Guarded.cons_of_step {step : σ → α → Option σ} {G : σ → α → Prop} {s m : σ} {a : α} {as : List α}
    (guard : G s a) (enabled : step s a = some m) (rest : Guarded step G m as) :
    Guarded step G s (a :: as) := by
  refine ⟨guard, fun next same => ?_⟩
  rw [enabled] at same
  cases same
  exact rest

/-- A decidable guard makes the guardedness of a run decidable. -/
instance decidableGuarded {step : σ → α → Option σ} {G : σ → α → Prop}
    [∀ s a, Decidable (G s a)] : ∀ (s : σ) (as : List α), Decidable (Guarded step G s as)
  | _, [] => isTrue trivial
  | s, a :: as =>
      have later : Decidable (∀ m, step s a = some m → Guarded step G m as) :=
        match hstep : step s a with
        | none => isTrue (fun m hm => by simp at hm)
        | some m =>
            have : Decidable (Guarded step G m as) := decidableGuarded m as
            decidable_of_iff (Guarded step G m as) (by simp)
      inferInstanceAs (Decidable (G s a ∧ ∀ m, step s a = some m → Guarded step G m as))

/-- A guarded run is guarded on each of its prefixes, so what is proved of the last state of a
guarded run holds of every state on the way. -/
theorem Guarded.of_append {step : σ → α → Option σ} {G : σ → α → Prop} {s : σ}
    {as bs : List α} (h : Guarded step G s (as ++ bs)) : Guarded step G s as := by
  induction as generalizing s with
  | nil => exact trivial
  | cons a as ih => exact ⟨h.1, fun m hm => ih (h.2 m hm)⟩

/-- The last action of a guarded run meets the guard where it is taken. -/
theorem Guarded.last {step : σ → α → Option σ} {G : σ → α → Prop} {s t : σ} {as : List α} {a : α}
    (h : Guarded step G s (as ++ [a])) (run : runSteps step s as = some t) : G t a := by
  induction as generalizing s with
  | nil =>
      cases run
      exact h.1
  | cons b as ih =>
      obtain ⟨m, hm, rest⟩ := runSteps_cons_eq_some.mp run
      exact ih (h.2 m hm) rest

/-- Run induction under a guard: a property that every guarded step keeps holds after every guarded
run. -/
theorem guarded_invariant {step : σ → α → Option σ} {G : σ → α → Prop} {Inv : σ → Prop}
    (keep : ∀ s a s', Inv s → G s a → step s a = some s' → Inv s')
    {s t : σ} {as : List α} (start : Inv s) (guarded : Guarded step G s as)
    (run : runSteps step s as = some t) : Inv t := by
  induction as generalizing s with
  | nil =>
      cases run
      exact start
  | cons a as ih =>
      obtain ⟨m, hm, rest⟩ := runSteps_cons_eq_some.mp run
      exact ih (keep s a m start guarded.1 hm) (guarded.2 m hm) rest

/-- Run induction without a guard. -/
theorem runSteps_invariant {step : σ → α → Option σ} {Inv : σ → Prop}
    (keep : ∀ s a s', Inv s → step s a = some s' → Inv s')
    {s t : σ} {as : List α} (start : Inv s) (run : runSteps step s as = some t) : Inv t := by
  have guarded : Guarded step (fun _ _ => True) s as := by
    clear run start
    induction as generalizing s with
    | nil => exact trivial
    | cons a as ih => exact ⟨trivial, fun m _ => ih⟩
  exact guarded_invariant (fun s a s' hs _ hstep => keep s a s' hs hstep) start guarded run

/-! ## Total steps

Where every action is enabled, a run is a fold, and its rules are those of runs.
-/

/-- A step function that is always enabled. -/
def always (f : σ → α → σ) : σ → α → Option σ := fun s a => some (f s a)

/-- A run of total steps never stops. -/
theorem runSteps_always (f : σ → α → σ) (s : σ) (as : List α) :
    runSteps (always f) s as = some (as.foldl f s) := by
  induction as generalizing s with
  | nil => rfl
  | cons a as ih => exact ih (f s a)

/-- The state after a total step is the only one. -/
theorem forall_always_iff {f : σ → α → σ} {P : σ → Prop} {s : σ} {a : α} :
    (∀ m, always f s a = some m → P m) ↔ P (f s a) := by
  constructor
  · intro every
    exact every _ rfl
  · intro holds m step
    cases step
    exact holds

theorem Guarded.always_cons {f : σ → α → σ} {G : σ → α → Prop} {s : σ} {a : α} {as : List α}
    (guard : G s a) (rest : Guarded (always f) G (f s a) as) : Guarded (always f) G s (a :: as) := by
  refine ⟨guard, fun m step => ?_⟩
  cases step
  exact rest

/-- A guard that does not look at the state is a condition on the actions. -/
theorem guarded_always_iff_forall {f : σ → α → σ} {G : α → Prop} (s : σ) (as : List α) :
    Guarded (always f) (fun _ a => G a) s as ↔ ∀ a ∈ as, G a := by
  induction as generalizing s with
  | nil => simp
  | cons a as ih =>
      rw [guarded_cons, List.forall_mem_cons]
      apply and_congr_right
      intro _
      constructor
      · intro later
        exact (ih (f s a)).mp (later _ rfl)
      · rintro later m step
        cases step
        exact (ih (f s a)).mpr later

/-- When the guard says exactly which steps keep the invariant, a run keeps it throughout exactly when
all its steps are guarded. -/
theorem forall_prefix_iff_guarded {f : σ → α → σ} {G : σ → α → Prop} {Inv : σ → Prop}
    (exact_guard : ∀ s a, Inv s → (Inv (f s a) ↔ G s a)) {s : σ} (start : Inv s) (as : List α) :
    (∀ pre, pre <+: as → Inv (pre.foldl f s)) ↔ Guarded (always f) G s as := by
  induction as generalizing s with
  | nil =>
      constructor
      · intro _
        exact trivial
      · intro _ pre isPrefix
        rw [List.prefix_nil.mp isPrefix]
        exact start
  | cons a as ih =>
      rw [guarded_cons]
      constructor
      · intro holds
        have next : Inv (f s a) := holds [a] (by simp)
        refine ⟨(exact_guard s a start).mp next, fun m step => ?_⟩
        cases step
        apply (ih next).mp
        intro pre isPrefix
        exact holds (a :: pre) (List.cons_prefix_cons.mpr ⟨rfl, isPrefix⟩)
      · rintro ⟨guard, rest⟩ pre isPrefix
        have next : Inv (f s a) := (exact_guard s a start).mpr guard
        cases pre with
        | nil => exact start
        | cons b pre =>
            obtain ⟨rfl, shorter⟩ := List.cons_prefix_cons.mp isPrefix
            exact (ih next).mpr (rest _ rfl) pre shorter

/-- When the guard keeps the invariant, and no step without it shows the property, a run that shows the property
throughout is guarded. -/
theorem guarded_of_forall_prefix {f : σ → α → σ} {G : σ → α → Prop} {Inv P : σ → Prop}
    (keep : ∀ s a, Inv s → G s a → Inv (f s a)) (needed : ∀ s a, Inv s → P (f s a) → G s a) {s : σ}
    (start : Inv s) {as : List α} (holds : ∀ pre, pre <+: as → P (pre.foldl f s)) :
    Guarded (always f) G s as := by
  induction as generalizing s with
  | nil => exact trivial
  | cons a as ih =>
      have first : P (f s a) := holds [a] (by simp)
      have guard : G s a := needed s a start first
      apply Guarded.always_cons guard
      apply ih (keep s a start guard)
      intro pre isPrefix
      exact holds (a :: pre) (List.cons_prefix_cons.mpr ⟨rfl, isPrefix⟩)

/-- A run shows a property in every state that it reaches exactly when all its steps are guarded, where the guard keeps
an invariant behind the property and no step without it shows the property. -/
theorem forall_reached_iff_guarded {step : σ → α → Option σ} {G : σ → α → Prop} {Inv P : σ → Prop}
    (sound : ∀ s, Inv s → P s) (keep : ∀ s a s', Inv s → G s a → step s a = some s' → Inv s')
    (needed : ∀ s a s', Inv s → step s a = some s' → P s' → G s a) {s t : σ} {as : List α} (start : Inv s)
    (run : runSteps step s as = some t) :
    (∀ pre m, pre <+: as → runSteps step s pre = some m → P m) ↔ Guarded step G s as := by
  constructor
  · intro holds
    induction as generalizing s with
    | nil => exact trivial
    | cons a as ih =>
        obtain ⟨next, enabled, rest⟩ := runSteps_cons_eq_some.mp run
        have first : P next := holds [a] next (by simp) (by simp [enabled])
        have guard : G s a := needed s a next start enabled first
        apply Guarded.cons_of_step guard enabled
        apply ih (keep s a next start guard enabled) rest
        intro pre m isPrefix reached
        apply holds (a :: pre) m (List.cons_prefix_cons.mpr ⟨rfl, isPrefix⟩)
        rw [runSteps_cons, enabled]
        exact reached
  · intro guarded pre m isPrefix reached
    obtain ⟨rest, split⟩ := isPrefix
    rw [← split] at guarded
    exact sound m (guarded_invariant keep start guarded.of_append reached)

end GameServer.Lib
