/-
Module: GameServer.Lib.LuaM
Purpose: Lua functions as state programs that return or raise, with `pcall`, and their weakest
  preconditions: one postcondition for a return and one for a raise.
Trusted boundary: error values are not kept
Main exports: LuaM, raise, pcall, forEach, exec, wp, wp_bind, wp_mono, wp_forEach, Keeps, Simulates, Commutes, Triple
  and their rules
-/
import Mathlib.Data.List.Basic
import Mathlib.Data.List.Forall2
import Mathlib.Order.Defs.Unbundled
import Mathlib.Tactic.Common

namespace GameServer.Lib

/-- A Lua function over the state `σ`.  A raised error ends the function and keeps the state as it
was at that moment. -/
abbrev LuaM (σ : Type) : Type → Type := ExceptT Unit (StateM σ)

namespace LuaM

variable {σ α β : Type}

/-- `error(...)`, and every failing primitive. -/
def raise : LuaM σ α := throw ()

/-- `pcall` and `xpcall`: the result, or `none` when the function raised. -/
def pcall (m : LuaM σ α) : LuaM σ (Option α) := fun s =>
  match m s with
  | (.ok a, t) => (.ok (some a), t)
  | (.error _, t) => (.ok none, t)

/-- A `for` loop over a list of values. -/
def forEach (body : α → LuaM σ Unit) : List α → LuaM σ Unit
  | [] => pure ()
  | a :: as => do
      body a
      forEach body as

/-- Run a function: what it returned, or that it raised, and the state then. -/
def exec (m : LuaM σ α) (s : σ) : Except Unit α × σ := m s

/-- From `s` the function returns in a state that `Q` accepts with the value, or raises in one that
`R` accepts. -/
def wp (m : LuaM σ α) (Q : α → σ → Prop) (R : σ → Prop) (s : σ) : Prop :=
  match exec m s with
  | (.ok a, t) => Q a t
  | (.error _, t) => R t

section Rules

variable {Q : α → σ → Prop} {R : σ → Prop} {s : σ}

@[simp] theorem exec_pure (a : α) : exec (pure a : LuaM σ α) s = (.ok a, s) := rfl

@[simp] theorem exec_raise : exec (raise : LuaM σ α) s = (.error (), s) := rfl

@[simp] theorem exec_get : exec (get : LuaM σ σ) s = (.ok s, s) := rfl

@[simp] theorem exec_set (t : σ) : exec (set t : LuaM σ PUnit) s = (.ok ⟨⟩, t) := rfl

@[simp] theorem exec_modify (f : σ → σ) : exec (modify f : LuaM σ PUnit) s = (.ok ⟨⟩, f s) := rfl

/-- The second function runs only if the first one returns. -/
theorem exec_bind (m : LuaM σ α) (f : α → LuaM σ β) :
    exec (m >>= f) s =
      match exec m s with
      | (.ok a, t) => exec (f a) t
      | (.error e, t) => (.error e, t) := by
  change (ExceptT.bind m f) s = _
  simp only [ExceptT.bind, ExceptT.mk, exec, bind, StateT.bind, ExceptT.bindCont]
  cases m s with
  | mk result t => cases result <;> rfl

/-- A function that returned or raised under `pcall` leaves its state. -/
theorem exec_pcall (m : LuaM σ α) :
    exec (pcall m) s =
      match exec m s with
      | (.ok a, t) => (.ok (some a), t)
      | (.error _, t) => (.ok none, t) := rfl

@[simp] theorem wp_pure (a : α) : wp (pure a) Q R s ↔ Q a s := Iff.rfl

@[simp] theorem wp_raise : wp (raise : LuaM σ α) Q R s ↔ R s := Iff.rfl

@[simp] theorem wp_get {Q : σ → σ → Prop} : wp get Q R s ↔ Q s s := Iff.rfl

@[simp] theorem wp_set {Q : PUnit → σ → Prop} (t : σ) : wp (set t) Q R s ↔ Q ⟨⟩ t := Iff.rfl

@[simp] theorem wp_modify {Q : PUnit → σ → Prop} (f : σ → σ) :
    wp (modify f) Q R s ↔ Q ⟨⟩ (f s) := Iff.rfl

@[simp] theorem wp_bind {Q : β → σ → Prop} (m : LuaM σ α) (f : α → LuaM σ β) :
    wp (m >>= f) Q R s ↔ wp m (fun a t => wp (f a) Q R t) R s := by
  simp only [wp, exec_bind]
  cases exec m s with
  | mk result t => cases result <;> rfl

@[simp] theorem wp_pcall {Q : Option α → σ → Prop} (m : LuaM σ α) :
    wp (pcall m) Q R s ↔ wp m (fun a t => Q (some a) t) (fun t => Q none t) s := by
  simp only [wp, exec, pcall]
  cases m s with
  | mk result t => cases result <;> rfl

/-- Both branches, each under its condition. -/
theorem wp_ite {c : Prop} [Decidable c] {m n : LuaM σ α} :
    wp (if c then m else n) Q R s ↔ (c → wp m Q R s) ∧ (¬ c → wp n Q R s) := by
  by_cases h : c <;> simp [h]

/-- Weaker postconditions are easier to meet. -/
theorem wp_mono {m : LuaM σ α} {Q' : α → σ → Prop} {R' : σ → Prop} (h : wp m Q R s)
    (onReturn : ∀ a t, Q a t → Q' a t) (onRaise : ∀ t, R t → R' t) : wp m Q' R' s := by
  unfold wp at h ⊢
  cases result : exec m s with
  | mk value t =>
      rw [result] at h
      cases value with
      | ok a => exact onReturn a t h
      | error _ => exact onRaise t h

/-- A postcondition for both ways to end is about the state at the end. -/
theorem wp_same {m : LuaM σ α} {P : σ → Prop} : wp m (fun _ t => P t) P s ↔ P (exec m s).2 := by
  unfold wp
  cases exec m s with
  | mk result t => cases result <;> rfl

/-- Loop rule: `I todo` holds whenever `todo` is still to be worked off. -/
theorem wp_forEach {body : α → LuaM σ Unit} {I : List α → σ → Prop}
    (turn : ∀ a as s, I (a :: as) s → wp (body a) (fun _ t => I as t) R s) {as : List α}
    (start : I as s) : wp (forEach body as) (fun _ t => I [] t) R s := by
  induction as generalizing s with
  | nil => exact start
  | cons a as ih =>
      rw [forEach, wp_bind]
      exact wp_mono (turn a as s start) (fun _ t keep => ih keep) (fun _ raised => raised)

/-- A function that cannot raise returns. -/
theorem exec_eq_of_wp {m : LuaM σ α} (h : wp m Q (fun _ => False) s) :
    ∃ a t, exec m s = (.ok a, t) ∧ Q a t := by
  unfold wp at h
  cases result : exec m s with
  | mk value t =>
      rw [result] at h
      cases value with
      | ok a => exact ⟨a, t, rfl, h⟩
      | error _ => exact h.elim

end Rules

/-! ## What a function keeps

A preorder relates the state before a function to the one after it, whether it returns or raises.
-/

section Keeps

/-- However the function ends, the state before is related to the state then. -/
def Keeps (rel : σ → σ → Prop) (m : LuaM σ α) : Prop := ∀ s, wp m (fun _ t => rel s t) (rel s) s

variable {rel : σ → σ → Prop}

theorem Keeps.mono {rel' : σ → σ → Prop} {m : LuaM σ α} (keeps : Keeps rel m)
    (weaker : ∀ s t, rel s t → rel' s t) : Keeps rel' m := fun s =>
  wp_mono (keeps s) (fun _ t => weaker s t) (weaker s)

theorem Keeps.modify {f : σ → σ} (step : ∀ s, rel s (f s)) :
    Keeps rel (modify f : LuaM σ PUnit) := step

variable [IsPreorder σ rel]

theorem Keeps.pure (a : α) : Keeps rel (pure a : LuaM σ α) := fun s => refl_of rel s

theorem Keeps.raise : Keeps rel (raise : LuaM σ α) := fun s => refl_of rel s

theorem Keeps.get : Keeps rel (get : LuaM σ σ) := fun s => refl_of rel s

/-- A preorder that both functions keep is kept by them together. -/
theorem Keeps.bind {m : LuaM σ α} {f : α → LuaM σ β} (first : Keeps rel m)
    (second : ∀ a, Keeps rel (f a)) : Keeps rel (m >>= f) := by
  intro s
  rw [wp_bind]
  refine wp_mono (first s) (fun a t before => ?_) (fun _ before => before)
  exact wp_mono (second a t) (fun _ _ after => trans_of rel before after)
    (fun _ after => trans_of rel before after)

theorem Keeps.forEach {body : α → LuaM σ Unit} (turn : ∀ a, Keeps rel (body a)) (as : List α) :
    Keeps rel (forEach body as) := by
  induction as with
  | nil => exact Keeps.pure ()
  | cons a as ih => exact (turn a).bind fun _ => ih

omit [IsPreorder σ rel] in
theorem Keeps.ite {c : Prop} [Decidable c] {m n : LuaM σ α} (yes : Keeps rel m)
    (no : Keeps rel n) : Keeps rel (if c then m else n) := by
  split
  · exact yes
  · exact no

end Keeps

/-! ## Two functions that do the same

A function over the states `τ` simulates one over the states `σ` when the states of `σ` are states of `τ`, seen through
`f`: it returns the same value or raises, too, and what it leaves is what the other one leaves.  A change of the state
that a function neither reads nor undoes is the case in which it simulates itself.
-/

section Simulates

variable {τ γ : Type}

/-- From the image of a state the first function does what the second one does from the state. -/
def Simulates (f : σ → τ) (big : LuaM τ α) (small : LuaM σ α) : Prop :=
  ∀ s, exec big (f s) = ((exec small s).1, f (exec small s).2)

variable {f : σ → τ}

theorem Simulates.pure (a : α) : Simulates f (pure a : LuaM τ α) (pure a) := fun _ => rfl

theorem Simulates.raise : Simulates f (raise : LuaM τ α) raise := fun _ => rfl

theorem Simulates.modify {g : τ → τ} {h : σ → σ} (swap : ∀ s, g (f s) = f (h s)) :
    Simulates f (modify g : LuaM τ PUnit) (modify h) := by
  intro s
  rw [exec_modify, exec_modify, swap]

/-- Functions that do the same, one after the other. -/
theorem Simulates.bind {big : LuaM τ α} {small : LuaM σ α} {k : α → LuaM τ β} {l : α → LuaM σ β}
    (first : Simulates f big small) (rest : ∀ a, Simulates f (k a) (l a)) : Simulates f (big >>= k) (small >>= l) := by
  intro s
  rw [exec_bind, exec_bind, first s]
  cases exec small s with
  | mk result t =>
      cases result with
      | ok a => exact rest a t
      | error _ => rfl

/-- What follows a `get` may read the state. -/
theorem Simulates.get_bind {k : τ → LuaM τ α} {l : σ → LuaM σ α} (rest : ∀ s, Simulates f (k (f s)) (l s)) :
    Simulates f (MonadState.get >>= k) (MonadState.get >>= l) := by
  intro s
  rw [exec_bind, exec_bind]
  exact rest s s

theorem Simulates.ite {c d : Prop} [Decidable c] [Decidable d] (same : c ↔ d) {big other : LuaM τ α}
    {small another : LuaM σ α} (yes : Simulates f big small) (no : Simulates f other another) :
    Simulates f (if c then big else other) (if d then small else another) := by
  by_cases h : d
  · rw [if_pos h, if_pos (same.mpr h)]
    exact yes
  · rw [if_neg h, if_neg fun isC => h (same.mp isC)]
    exact no

/-- Loops over lists of the same length, whose turns do the same. -/
theorem Simulates.forEach {body : α → LuaM τ Unit} {turn : γ → LuaM σ Unit} {as : List α} {cs : List γ}
    (turns : List.Forall₂ (fun a c => Simulates f (body a) (turn c)) as cs) :
    Simulates f (LuaM.forEach body as) (LuaM.forEach turn cs) := by
  induction turns with
  | nil => exact Simulates.pure ()
  | cons first _ ih => exact first.bind fun _ => ih

/-- The function does the same after the change `f` of the state, and leaves the change alone. -/
abbrev Commutes (f : σ → σ) (m : LuaM σ α) : Prop := Simulates f m m

/-- What follows a `get` reads only what the change leaves alone. -/
theorem Commutes.get_bind {f : σ → σ} {k : σ → LuaM σ α} (same : ∀ s, k (f s) = k s)
    (rest : ∀ s, Commutes f (k s)) : Commutes f (MonadState.get >>= k) := by
  refine Simulates.get_bind fun s => ?_
  rw [same]
  exact rest s

theorem Commutes.forEach {f : σ → σ} {body : α → LuaM σ Unit} (turn : ∀ a, Commutes f (body a)) (as : List α) :
    Commutes f (LuaM.forEach body as) := Simulates.forEach (List.forall₂_same.mpr fun a _ => turn a)

end Simulates

/-! ## Triples under an assumption on the history

`ok` says that nothing has happened so far that is assumed not to happen.  A triple promises its
postcondition for the runs of which that is true, and that those do not raise.
-/

section Triples

variable (ok : σ → Prop)

/-- From a state that `P` accepts the function reaches a state that `Q` accepts, as long as all is
`ok`. -/
def Triple (P : σ → Prop) (m : LuaM σ α) (Q : α → σ → Prop) : Prop :=
  ∀ s, (ok s → P s) → wp m (fun a t => ok t → Q a t) (fun t => ¬ ok t) s

/-- What was not `ok` before is not `ok` later. -/
abbrev Remembered (s t : σ) : Prop := ok t → ok s

instance : IsPreorder σ (Remembered ok) where
  refl _ h := h
  trans _ _ _ first second h := first (second h)

/-- What was not `ok` before the function is not `ok` after it. -/
abbrev Remembers (m : LuaM σ α) : Prop := Keeps (Remembered ok) m

variable {ok} {P : σ → Prop} {Q : α → σ → Prop} {R : β → σ → Prop}

/-- A triple from what the function does in the states that are `ok`. -/
theorem Triple.of_wp {m : LuaM σ α} (remembers : Remembers ok m)
    (spec : ∀ s, P s → wp m (fun a t => ok t → Q a t) (fun t => ¬ ok t) s) : Triple ok P m Q := by
  intro s start
  by_cases fine : ok s
  · exact spec s (start fine)
  · refine wp_mono (remembers s) (fun _ t back h => absurd (back h) fine) (fun t back h => fine (back h))

theorem Triple.pure {a : α} (keep : ∀ s, P s → Q a s) : Triple ok P (pure a) Q :=
  fun s start fine => keep s (start fine)

theorem Triple.raise (never : ∀ s, ¬ P s) : Triple ok P (raise : LuaM σ α) Q :=
  fun s start fine => never s (start fine)

theorem Triple.get : Triple ok P get fun a s => a = s ∧ P s := fun _ start fine => ⟨rfl, start fine⟩

theorem Triple.modify {f : σ → σ} {Q : PUnit → σ → Prop} (back : ∀ s, ok (f s) → ok s)
    (keep : ∀ s, P s → ok (f s) → Q ⟨⟩ (f s)) : Triple ok P (modify f) Q :=
  fun s start fine => keep s (start (back s fine)) fine

/-- Triples compose. -/
theorem Triple.bind {m : LuaM σ α} {f : α → LuaM σ β} (first : Triple ok P m Q)
    (second : ∀ a, Triple ok (Q a) (f a) R) : Triple ok P (m >>= f) R := by
  intro s start
  rw [wp_bind]
  exact wp_mono (first s start) (fun a t reached => second a t reached) (fun _ h => h)

theorem Triple.consequence {P' : σ → Prop} {Q' : α → σ → Prop} {m : LuaM σ α}
    (triple : Triple ok P m Q) (pre : ∀ s, P' s → P s) (post : ∀ a s, Q a s → Q' a s) :
    Triple ok P' m Q' := fun s start =>
  wp_mono (triple s fun fine => pre s (start fine)) (fun a t reached fine => post a t (reached fine))
    (fun _ h => h)

/-- A precondition that does not depend on the state can be used before the function is run. -/
theorem Triple.assume {p : Prop} {m : LuaM σ α} (remembers : Remembers ok m)
    (triple : p → Triple ok P m Q) : Triple ok (fun s => p ∧ P s) m Q :=
  Triple.of_wp remembers fun s start => triple start.1 s fun _ => start.2

/-- Behind a `get` the state is known. -/
theorem Triple.get_bind {f : σ → LuaM σ β} (remembers : Remembers ok (MonadState.get >>= f))
    (rest : ∀ a, P a → Triple ok (fun s => s = a) (f a) R) :
    Triple ok P ((MonadState.get : LuaM σ σ) >>= f) R := by
  refine Triple.of_wp remembers fun s start => ?_
  rw [wp_bind, wp_get]
  exact rest s start s fun _ => rfl

/-- A loop keeps what each turn keeps. -/
theorem Triple.forEach {body : α → LuaM σ Unit} {I : List α → σ → Prop}
    (turn : ∀ a as, Triple ok (I (a :: as)) (body a) fun _ => I as) (as : List α) :
    Triple ok (I as) (forEach body as) fun _ => I [] := by
  induction as with
  | nil => exact Triple.pure fun _ keep => keep
  | cons a as ih => exact (turn a as).bind fun _ => ih

end Triples

end LuaM

end GameServer.Lib
