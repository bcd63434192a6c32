/-
Module: GameServer.Script.Presence
Purpose: When the two maps of `NetManager`, from users to connections and back, are inverse to each
  other: exactly as long as no user takes over a connection that another user is on, and no user who is
  on another connection registers.
Trusted boundary: none
Main exports: Inverse, NetCall, Allowed, apply_inverse_iff, maps_inverse_iff
-/
import GameServer.Lib.Runs
import GameServer.Script.NetManager

namespace GameServer.Script

open Lib LuaValue

namespace NetManager

variable (net : NetManager)

/-- The two maps are inverse to each other. -/
def Inverse : Prop :=
  ∀ u h : Int, net.getHandlerId (.number u) = some h ↔ net.getUserId h = .number u

/-- No user but `u` is on connection `h`. -/
def FreeFor (h u : Int) : Prop := ∀ v, net.getUserId h = .number v → v = u

/-- User `u` is on no connection but `h`. -/
def NowhereBut (u h : Int) : Prop := ∀ k, net.getHandlerId (.number u) = some k → k = h

instance (h u : Int) : Decidable (net.FreeFor h u) :=
  match found : net.getUserId h with
  | .number v => decidable_of_iff (v = u) (by simp [FreeFor, found])
  | .nil => isTrue (by simp [FreeFor, found])
  | .boolean _ => isTrue (by simp [FreeFor, found])
  | .string _ => isTrue (by simp [FreeFor, found])
  | .table _ => isTrue (by simp [FreeFor, found])

instance (u h : Int) : Decidable (net.NowhereBut u h) :=
  match found : net.getHandlerId (.number u) with
  | some k => decidable_of_iff (k = h) (by simp [NowhereBut, found])
  | none => isTrue (by simp [NowhereBut, found])

/-! ## Reading the maps after an operation

One lemma for each operation, for numbers on positive connections.
-/

section Reading

variable (u v h k : Int)

theorem getHandlerId_setHandlerId (positive : 0 < h) :
    (net.setHandlerId (.number u) h).getHandlerId (.number v) =
      if v = u then some h else net.getHandlerId (.number v) := by
  by_cases same : v = u
  · simp [setHandlerId, getHandlerId, positive, same]
  · simp [setHandlerId, getHandlerId, positive, same, tostring_number_inj]

@[simp] theorem getUserId_setHandlerId (w : LuaValue) :
    (net.setHandlerId w h).getUserId k = net.getUserId k := by
  unfold setHandlerId
  split <;> rfl

@[simp] theorem getHandlerId_setUserId (w w' : LuaValue) :
    (net.setUserId h w).getHandlerId w' = net.getHandlerId w' := by
  unfold setUserId
  split <;> rfl

theorem getUserId_setUserId (positive : 0 < h) (w : LuaValue) :
    (net.setUserId h w).getUserId k = if k = h then w else net.getUserId k := by
  by_cases same : k = h
  · simp [setUserId, getUserId, positive, same]
  · simp [setUserId, getUserId, positive, same]

theorem getHandlerId_releaseHandler :
    (net.releaseHandler (.number u)).getHandlerId (.number v) =
      if v = u then none else net.getHandlerId (.number v) := by
  unfold releaseHandler
  by_cases same : v = u
  · subst same
    cases found : net.getHandlerId (.number v) with
    | none => simpa using found
    | some _ => simp [getHandlerId]
  · cases found : net.getHandlerId (.number u) with
    | none => simp [same]
    | some _ => simp [getHandlerId, same, tostring_number_inj]

@[simp] theorem getUserId_releaseHandler (w : LuaValue) :
    (net.releaseHandler w).getUserId k = net.getUserId k := by
  unfold releaseHandler
  split <;> rfl

/-- After an update, the user is on the connection and nobody else has moved. -/
theorem getHandlerId_update (positive : 0 < h) :
    (net.updateHandlerIdAndUserId (.number u) h).getHandlerId (.number v) =
      if v = u then some h else net.getHandlerId (.number v) := by
  unfold updateHandlerIdAndUserId existOldHanlder
  cases found : net.getHandlerId (.number u) with
  | none => simp [getHandlerId_setHandlerId, positive]
  | some old =>
      by_cases same : v = u
      · simp [getHandlerId_setHandlerId, positive, same]
      · by_cases moved : old = h
        · simp [getHandlerId_setHandlerId, getHandlerId_releaseHandler, positive, same, moved]
        · simp [getHandlerId_setHandlerId, getHandlerId_releaseHandler, positive, same, moved,
            releaseUserId]

/-- After an update, the connection has the user, and the one the user was on before has nobody. -/
theorem getUserId_update (positive : 0 < h)
    (oldPositive : ∀ old, net.getHandlerId (.number u) = some old → 0 < old) :
    (net.updateHandlerIdAndUserId (.number u) h).getUserId k =
      if k = h then .number u
      else if net.getHandlerId (.number u) = some k then .nil
      else net.getUserId k := by
  unfold updateHandlerIdAndUserId existOldHanlder
  rw [getUserId_setUserId _ _ _ positive]
  by_cases here : k = h
  · simp [here]
  · cases found : net.getHandlerId (.number u) with
    | none => simp [here]
    | some old =>
        have oldPos : 0 < old := oldPositive old found
        by_cases moved : old = h
        · have other : ¬ h = k := fun same => here same.symm
          simp [here, moved, other]
        · by_cases left : old = k
          · subst left
            simp [here, releaseUserId, getUserId_setUserId _ _ _ oldPos]
          · have other : ¬ k = old := fun same => left same.symm
            simp [here, moved, left, other, releaseUserId, getUserId_setUserId _ _ _ oldPos]

theorem getHandlerId_register (positive : 0 < h) :
    (net.registerProcess (.number u) h).getHandlerId (.number v) =
      if v = u then some h else net.getHandlerId (.number v) := by
  rw [registerProcess, getHandlerId_setUserId]
  exact getHandlerId_setHandlerId net u v h positive

theorem getUserId_register (positive : 0 < h) :
    (net.registerProcess (.number u) h).getUserId k =
      if k = h then .number u else net.getUserId k := by
  rw [registerProcess, getUserId_setUserId _ _ _ positive, getUserId_setHandlerId]

/-- A disconnect takes the connection's user off it, wherever the maps say that user is. -/
theorem onUserDisconnect_of_user (user : net.getUserId h = .number u) :
    net.onUserDisconnect (.number h) = (net.releaseUserId h).releaseHandler (.number u) := by
  simp [onUserDisconnect, userOfDisconnect, user, isNumber]

theorem onUserDisconnect_of_nobody (nobody : (net.getUserId h).isNumber = false) :
    net.onUserDisconnect (.number h) = net := by
  simp [onUserDisconnect, userOfDisconnect, nobody]

end Reading

/-! ## One call

For each operation the condition under which the maps stay inverse to each other.
-/

/-- Users are only ever on positive connections. -/
def Positive : Prop := ∀ u h : Int, net.getHandlerId (.number u) = some h → 0 < h

variable {net} {u h : Int}

/-- Two users on one connection are one user. -/
theorem Inverse.free_of_same {v k : Int} (inverse : net.Inverse)
    (onK : net.getHandlerId (.number u) = some k) (alsoK : net.getHandlerId (.number v) = some k) :
    v = u := by
  have first : net.getUserId k = .number u := (inverse u k).mp onK
  have second : net.getUserId k = .number v := (inverse v k).mp alsoK
  exact LuaValue.number.inj (second.symm.trans first)

/-- An update keeps the maps inverse exactly when the connection is free for the user. -/
theorem update_inverse_iff (inverse : net.Inverse) (pos : net.Positive) (positive : 0 < h) :
    (net.updateHandlerIdAndUserId (.number u) h).Inverse ↔ net.FreeFor h u := by
  have handler := fun v => getHandlerId_update net u v h positive
  have user := fun k => getUserId_update net u h k positive (pos u)
  constructor
  · intro after v onH
    by_contra other
    -- the former user of the connection still claims it
    have stays : (net.updateHandlerIdAndUserId (.number u) h).getHandlerId (.number v) = some h := by
      rw [handler, if_neg other]
      exact (inverse v h).mpr onH
    have current := (after v h).mp stays
    rw [user, if_pos rfl] at current
    exact other (LuaValue.number.inj current).symm
  · intro free v k
    rw [handler, user]
    by_cases isU : v = u
    · subst isU
      by_cases isH : k = h
      · simp [isH]
      · have notH : ¬ h = k := fun same => isH same.symm
        by_cases left : net.getHandlerId (.number v) = some k
        · simp [isH, notH, left]
        · simp [isH, notH, left, ← inverse v k]
    · by_cases isH : k = h
      · subst isH
        have away : net.getHandlerId (.number v) ≠ some k :=
          fun onK => isU (free v ((inverse v k).mp onK))
        have notU : ¬ u = v := fun same => isU same.symm
        simp [isU, notU, away]
      · by_cases left : net.getHandlerId (.number u) = some k
        · have away : net.getHandlerId (.number v) ≠ some k :=
            fun onK => isU (inverse.free_of_same left onK)
          simp [isU, isH, left, away]
        · simp [isU, isH, left, inverse v k]

/-- Registering keeps the maps inverse exactly when the connection is free for the user and the user is
on no other. -/
theorem register_inverse_iff (inverse : net.Inverse) (positive : 0 < h) :
    (net.registerProcess (.number u) h).Inverse ↔ net.FreeFor h u ∧ net.NowhereBut u h := by
  have handler := fun v => getHandlerId_register net u v h positive
  have user := fun k => getUserId_register net u h k positive
  constructor
  · intro after
    constructor
    · intro v onH
      by_contra other
      have stays : (net.registerProcess (.number u) h).getHandlerId (.number v) = some h := by
        rw [handler, if_neg other]
        exact (inverse v h).mpr onH
      have current := (after v h).mp stays
      rw [user, if_pos rfl] at current
      exact other (LuaValue.number.inj current).symm
    · intro k onK
      by_contra other
      -- the connection the user was on before still has them
      have stays : (net.registerProcess (.number u) h).getUserId k = .number u := by
        rw [user, if_neg other]
        exact (inverse u k).mp onK
      have current := (after u k).mpr stays
      rw [handler, if_pos rfl] at current
      exact other (Option.some.inj current).symm
  · rintro ⟨free, nowhere⟩ v k
    rw [handler, user]
    by_cases isU : v = u
    · subst isU
      by_cases isH : k = h
      · simp [isH]
      · have notH : ¬ h = k := fun same => isH same.symm
        have away : net.getHandlerId (.number v) ≠ some k := fun onK => isH (nowhere k onK)
        simp [isH, notH, ← inverse v k, away]
    · by_cases isH : k = h
      · subst isH
        have away : net.getHandlerId (.number v) ≠ some k :=
          fun onK => isU (free v ((inverse v k).mp onK))
        have notU : ¬ u = v := fun same => isU same.symm
        simp [isU, notU, away]
      · simp [isU, isH, inverse v k]

/-- A disconnect always keeps the maps inverse, and nobody is on the connection afterwards. -/
theorem disconnect_inverse (inverse : net.Inverse) (pos : net.Positive) (h : Int) :
    (net.onUserDisconnect (.number h)).Inverse ∧
      ∀ v, (net.onUserDisconnect (.number h)).getHandlerId (.number v) ≠ some h := by
  rcases (net.getUserId h).isNumber_or with ⟨u, found⟩ | nobody
  · rw [onUserDisconnect_of_user net u h found]
    have onH : net.getHandlerId (.number u) = some h := (inverse u h).mpr found
    have positive : 0 < h := pos u h onH
    have handler : ∀ v, ((net.releaseUserId h).releaseHandler (.number u)).getHandlerId (.number v) =
        if v = u then none else net.getHandlerId (.number v) := by
      intro v
      rw [getHandlerId_releaseHandler, releaseUserId, getHandlerId_setUserId]
    have user : ∀ k, ((net.releaseUserId h).releaseHandler (.number u)).getUserId k =
        if k = h then .nil else net.getUserId k := by
      intro k
      rw [getUserId_releaseHandler, releaseUserId, getUserId_setUserId net h k positive]
    have alone : ∀ v, v ≠ u → net.getHandlerId (.number v) ≠ some h :=
      fun v other alsoH => other (inverse.free_of_same onH alsoH)
    constructor
    · intro v k
      rw [handler, user]
      by_cases isU : v = u
      · subst isU
        by_cases isH : k = h
        · simp [isH]
        · have notH : ¬ h = k := fun same => isH same.symm
          simp [isH, ← inverse v k, onH, notH]
      · by_cases isH : k = h
        · subst isH
          simp [isU, alone v isU]
        · simp [isU, isH, inverse v k]
    · intro v
      rw [handler]
      by_cases isU : v = u
      · simp [isU]
      · simpa [isU] using alone v isU
  · rw [onUserDisconnect_of_nobody net h nobody]
    refine ⟨inverse, fun v onH => ?_⟩
    rw [(inverse v h).mp onH] at nobody
    exact absurd nobody (by simp [isNumber])

end NetManager

/-! ## Runs

A run of calls, from the maps as they are at the start.
-/

open NetManager

/-- What is done with the maps: a user enters the game on a connection, registers on one, or a
connection is closed. -/
inductive NetCall where
  | update (nUserId : Int) (nHandlerId : ℕ+)
  | register (nUserId : Int) (nHandlerId : ℕ+)
  | disconnect (nHandlerId : Int)
deriving Repr

def NetManager.apply (net : NetManager) : NetCall → NetManager
  | .update u h => net.updateHandlerIdAndUserId (.number u) (h : ℕ)
  | .register u h => net.registerProcess (.number u) (h : ℕ)
  | .disconnect h => net.onUserDisconnect (.number h)

/-- The calls after which the maps are still inverse. -/
def NetManager.Allowed (net : NetManager) : NetCall → Prop
  | .update u h => net.FreeFor (h : ℕ) u
  | .register u h => net.FreeFor (h : ℕ) u ∧ net.NowhereBut u (h : ℕ)
  | .disconnect _ => True

instance (net : NetManager) : (call : NetCall) → Decidable (net.Allowed call)
  | .update _ _ => inferInstanceAs (Decidable (net.FreeFor _ _))
  | .register _ _ => inferInstanceAs (Decidable (_ ∧ _))
  | .disconnect _ => inferInstanceAs (Decidable True)

theorem positive_ctor : ctor.Positive := by
  intro u h onH
  exact absurd onH (by simp [ctor, getHandlerId])

theorem inverse_ctor : ctor.Inverse := by
  intro u h
  simp [ctor, getHandlerId, getUserId]

/-- No operation puts a user on a connection that is not positive. -/
theorem positive_apply {net : NetManager} (pos : net.Positive) (call : NetCall) :
    (net.apply call).Positive := by
  intro v k onK
  cases call with
  | update u h =>
      have positive : (0 : Int) < (h : ℕ) := by exact_mod_cast h.pos
      rw [NetManager.apply, getHandlerId_update net u v _ positive] at onK
      split at onK
      · exact Option.some.inj onK ▸ positive
      · exact pos v k onK
  | register u h =>
      have positive : (0 : Int) < (h : ℕ) := by exact_mod_cast h.pos
      rw [NetManager.apply, getHandlerId_register net u v _ positive] at onK
      split at onK
      · exact Option.some.inj onK ▸ positive
      · exact pos v k onK
  | disconnect h =>
      rcases (net.getUserId h).isNumber_or with ⟨u, found⟩ | nobody
      · rw [NetManager.apply, onUserDisconnect_of_user net u h found, getHandlerId_releaseHandler,
          releaseUserId, getHandlerId_setUserId] at onK
        split at onK
        · exact absurd onK (by simp)
        · exact pos v k onK
      · rw [NetManager.apply, onUserDisconnect_of_nobody net h nobody] at onK
        exact pos v k onK

/-- A call keeps the maps inverse exactly when it is allowed. -/
theorem apply_inverse_iff {net : NetManager} (inverse : net.Inverse) (pos : net.Positive)
    (call : NetCall) : (net.apply call).Inverse ↔ net.Allowed call := by
  cases call with
  | update u h => exact update_inverse_iff inverse pos (by exact_mod_cast h.pos)
  | register u h => exact register_inverse_iff inverse (by exact_mod_cast h.pos)
  | disconnect h => exact iff_of_true (disconnect_inverse inverse pos h).1 trivial

/-- After every call of the run the maps are inverse, a notice to a user is only written to the
connection that user is on, and a connection that was just closed has no user online on it. -/
def PresenceKept (calls : List NetCall) : Prop :=
  ∀ pre, pre <+: calls →
    (pre.foldl NetManager.apply ctor).Inverse ∧
    (∀ u h, (pre.foldl NetManager.apply ctor).sendNoticeToUser (.number u) = some h →
      (pre.foldl NetManager.apply ctor).getUserId h = .number u) ∧
    ∀ before h, pre = before ++ [.disconnect h] →
      ∀ u, (pre.foldl NetManager.apply ctor).getHandlerId (.number u) ≠ some h

/-- The maps stay inverse throughout a run, with all that follows from it, exactly when every call is
allowed where it is made. -/
theorem presenceKept_iff (calls : List NetCall) :
    PresenceKept calls ↔ Guarded (always NetManager.apply) Allowed ctor calls := by
  have exactGuard : ∀ (net : NetManager) call, net.Inverse ∧ net.Positive →
      ((net.apply call).Inverse ∧ (net.apply call).Positive ↔ net.Allowed call) := by
    rintro net call ⟨inverse, pos⟩
    rw [← apply_inverse_iff inverse pos call]
    exact and_iff_left (positive_apply pos call)
  rw [← forall_prefix_iff_guarded exactGuard ⟨inverse_ctor, positive_ctor⟩]
  constructor
  · intro kept pre isPrefix
    refine ⟨(kept pre isPrefix).1, ?_⟩
    clear isPrefix
    induction pre using List.reverseRecOn with
    | nil => exact positive_ctor
    | append_singleton pre call ih =>
        rw [List.foldl_append]
        exact positive_apply ih call
  · intro holds pre isPrefix
    obtain ⟨inverse, pos⟩ := holds pre isPrefix
    refine ⟨inverse, ?_, ?_⟩
    · intro u h sent
      apply (inverse u h).mp
      unfold sendNoticeToUser at sent
      split at sent
      · exact sent
      · exact absurd sent (by simp)
    · rintro before h rfl
      obtain ⟨inverseBefore, posBefore⟩ := holds before ((List.prefix_append _ _).trans isPrefix)
      rw [List.foldl_append]
      exact (disconnect_inverse inverseBefore posBefore h).2

/-- Two users enter the game in turn on one connection: the first is still marked as being on it. -/
theorem presence_lost_by_takeover : ¬ ∀ calls, PresenceKept calls := by
  intro kept
  have inverse := (kept [.update 1 7, .update 2 7] _ (List.prefix_refl _)).1
  have stale := (inverse 1 7).mp (by decide)
  exact absurd stale (by decide)

end GameServer.Script
