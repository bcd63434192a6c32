/-
Module: GameServer.Lib.Ownership
Purpose: Programs of threads that share objects by counted references and hand them on through queues, and which
  references such a program holds until it has given them all away.
Trusted boundary: none
Main exports: Prog, Alive, Owns, SendsOnly, Owns.mono, owns_pass, owns_create_lost, owns_create_kept
-/
import Mathlib.Logic.Function.Basic

namespace GameServer.Lib.Ownership

open Function

/-- What a thread still does with objects of kinds `κ`, with queues `χ`.  Objects are named by numbers.  At `pause`
other code may be called before the thread goes on. -/
inductive Prog (χ κ : Type*) where
  | done
  | pause (next : Prog χ κ)
  | create (kind : κ) (next : Nat → Prog χ κ)
  | access (b : Nat) (next : Prog χ κ)
  | addRef (b : Nat) (next : Prog χ κ)
  | send (queue : χ) (b : Nat) (next : Prog χ κ)
  | release (b : Nat) (next : Prog χ κ)

variable {χ κ : Type*}

section Judgement

variable (lost : κ → Bool) (accepts : χ → κ → Prop)

/-- An object that a thread may use: it holds a reference, or there is one that nobody ever gives back. -/
def Alive (kinds : Nat → Option κ) (held : Nat → Nat) (b : Nat) : Prop :=
  1 ≤ held b ∨ ∃ kind, kinds b = some kind ∧ lost kind = true

/-- A program that starts with the references `held`, uses objects only while they are alive, sends to a queue only
what the queue accepts, and ends without a reference.  The creator of an object gets one reference, unless the kind
of the object is one where this reference is lost. -/
def Owns : (Nat → Option κ) → (Nat → Nat) → Prog χ κ → Prop
  | _, held, .done => ∀ b, held b = 0
  | kinds, held, .pause next => Owns kinds held next
  | kinds, held, .create kind next =>
      ∀ b, kinds b = none → held b = 0 →
        Owns (update kinds b (some kind)) (update held b (!lost kind).toNat) (next b)
  | kinds, held, .access b next => Alive lost kinds held b ∧ Owns kinds held next
  | kinds, held, .addRef b next => Alive lost kinds held b ∧ Owns kinds (update held b (held b + 1)) next
  | kinds, held, .send queue b next =>
      1 ≤ held b ∧ (∃ kind, kinds b = some kind ∧ accepts queue kind) ∧ Owns kinds (update held b (held b - 1)) next
  | kinds, held, .release b next => 1 ≤ held b ∧ Owns kinds (update held b (held b - 1)) next

end Judgement

/-- A program that sends only to some queues. -/
def SendsOnly (allowed : χ → Prop) : Prog χ κ → Prop
  | .done => True
  | .pause next => SendsOnly allowed next
  | .create _ next => ∀ b, SendsOnly allowed (next b)
  | .access _ next => SendsOnly allowed next
  | .addRef _ next => SendsOnly allowed next
  | .send queue _ next => allowed queue ∧ SendsOnly allowed next
  | .release _ next => SendsOnly allowed next

variable {lost : κ → Bool} {accepts : χ → κ → Prop} {kinds kinds' : Nat → Option κ} {held : Nat → Nat}

theorem Alive.mono {b : Nat} (grow : ∀ b kind, kinds b = some kind → kinds' b = some kind)
    (alive : Alive lost kinds held b) : Alive lost kinds' held b := by
  rcases alive with holds | ⟨kind, known, isLost⟩
  · exact .inl holds
  · exact .inr ⟨kind, grow b kind known, isLost⟩

theorem sendsOnly_all (p : Prog χ κ) : SendsOnly (fun _ => True) p := by
  induction p with
  | done => exact trivial
  | pause next ih => exact ih
  | create kind next ih => exact ih
  | access b next ih => exact ih
  | addRef b next ih => exact ih
  | send queue b next ih => exact ⟨trivial, ih⟩
  | release b next ih => exact ih

/-- Other threads create objects; this does not concern a program. -/
theorem Owns.mono {p : Prog χ κ} (grow : ∀ b kind, kinds b = some kind → kinds' b = some kind)
    (owns : Owns lost accepts kinds held p) : Owns lost accepts kinds' held p := by
  induction p generalizing kinds kinds' held with
  | done => exact owns
  | pause next ih => exact ih grow owns
  | create kind next ih =>
      intro b isNew noRef
      have wasNew : kinds b = none := by
        cases known : kinds b with
        | none => rfl
        | some other => simp [grow b other known] at isNew
      apply ih b _ (owns b wasNew noRef)
      intro c other known
      by_cases same : c = b
      · subst same
        simpa using known
      · rw [update_of_ne same] at known ⊢
        exact grow c other known
  | access b next ih => exact ⟨owns.1.mono grow, ih grow owns.2⟩
  | addRef b next ih => exact ⟨owns.1.mono grow, ih grow owns.2⟩
  | send queue b next ih =>
      obtain ⟨holds, ⟨kind, known, accepted⟩, rest⟩ := owns
      exact ⟨holds, ⟨kind, grow b kind known, accepted⟩, ih grow rest⟩
  | release b next ih => exact ⟨owns.1, ih grow owns.2⟩

/-- Passing on a reference of its own does not change what a program holds. -/
theorem owns_pass {queue : χ} {b : Nat} {next : Prog χ κ} (alive : Alive lost kinds held b)
    (accepted : ∃ kind, kinds b = some kind ∧ accepts queue kind) (rest : Owns lost accepts kinds held next) :
    Owns lost accepts kinds held (.addRef b (.send queue b next)) := by
  have unchanged : update (update held b (held b + 1)) b (held b) = held := by
    rw [update_idem, update_eq_self]
  refine ⟨alive, ?_, accepted, ?_⟩
  · simp
  · simpa [unchanged] using rest

theorem owns_create_lost {kind : κ} {next : Nat → Prog χ κ} (isLost : lost kind = true)
    (rest : ∀ b, kinds b = none → Owns lost accepts (update kinds b (some kind)) held (next b)) :
    Owns lost accepts kinds held (.create kind next) := by
  intro b isNew noRef
  have zero : (!lost kind).toNat = held b := by
    rw [isLost, noRef]
    rfl
  have unchanged : update held b (!lost kind).toNat = held := by
    rw [zero, update_eq_self]
  rw [unchanged]
  exact rest b isNew

theorem owns_create_kept {kind : κ} {next : Nat → Prog χ κ} (notLost : lost kind = false)
    (rest : ∀ b, kinds b = none → held b = 0 →
      Owns lost accepts (update kinds b (some kind)) (update held b 1) (next b)) :
    Owns lost accepts kinds held (.create kind next) := by
  intro b isNew noRef
  rw [notLost]
  exact rest b isNew noRef

/-- The last reference to an object that the program created itself is given back. -/
theorem owns_release_own {b : Nat} {next : Prog χ κ} (noRef : held b = 0) (rest : Owns lost accepts kinds held next) :
    Owns lost accepts kinds (update held b 1) (.release b next) := by
  have back : update (update held b 1) b 0 = held := by
    rw [update_idem, ← noRef, update_eq_self]
  refine ⟨by simp, ?_⟩
  simpa [back] using rest

theorem grow_update {b : Nat} {kind : κ} (isNew : kinds b = none) :
    ∀ c other, kinds c = some other → update kinds b (some kind) c = some other := by
  intro c other known
  have different : c ≠ b := by
    rintro rfl
    simp [isNew] at known
  rw [update_of_ne different]
  exact known

end GameServer.Lib.Ownership
