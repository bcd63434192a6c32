/-
Module: GameServer.Net.PendingWrites
Purpose: The five functions that hand a copy of their bytes to `uv_write`, their callbacks, and what the peer receives
  under any schedule of partial writes.
Trusted boundary: `uv_write` sends a part of a buffer at once, and the rest out of the same memory later, in the order
  of the writes; a callback has the status 0 when everything was sent
Main exports: Server.step, Sound, TakenAtOnce, pendingWrites_sound_iff
-/
import GameServer.Lib.Runs
import Mathlib.Logic.Function.Basic

namespace GameServer.Net.Writes

open Lib

/-- The functions that send. -/
inductive Sender where
  /-- `CenterClient::TransferToCenterServer`. -/
  | transferToCenterServer
  /-- `CenterServer::TransferToClient`. -/
  | centerTransferToClient
  /-- `GameLogicServer::SendDataToGateway`. -/
  | sendDataToGateway
  /-- `GatewayClient::TransferToLogicServer`. -/
  | transferToLogicServer
  /-- `GatewayServer::TransferToClient`. -/
  | gatewayTransferToClient
deriving Repr, DecidableEq

/-- The status at which the callback returns before it deletes the request. -/
def Sender.returnsEarly : Sender → (status : Int) → Bool
  -- `OnSendData`
  | .sendDataToGateway, status => status == -1
  | _, status => status < 0

/-- A copy that was handed to `uv_write`. -/
structure Write where
  sender : Sender
  /-- What the function was called with, which is what `pvBuffer` holds until it is released. -/
  passed : List UInt8
  /-- What was sent of it. -/
  sent : List UInt8
  /-- The status that its callback was given. -/
  status : Option Int
  /-- How often `pvBuffer` was released. -/
  buffersFreed : Nat
  /-- How often `pWriteReq` was deleted. -/
  requestsDeleted : Nat
deriving Repr, DecidableEq

namespace Write

/-- A copy of the bytes, of which some are sent. -/
def copied (sender : Sender) (pBuffer sent : List UInt8) : Write where
  sender := sender
  passed := pBuffer
  sent := sent
  status := none
  buffersFreed := 0
  requestsDeleted := 0

/-- The callback has not run, and there is more to send. -/
def unfinished (w : Write) : Bool := w.status.isNone && decide (w.sent.length < w.passed.length)

/-- `SAFE_FREE(pvBuffer)`. -/
def safeFree (w : Write) : Write := { w with buffersFreed := w.buffersFreed + 1 }

/-- `SAFE_DELETE(pWriteReq)`. -/
def safeDelete (w : Write) : Write := { w with requestsDeleted := w.requestsDeleted + 1 }

/-- The rest of the buffer, or what lies there once it is released. -/
def sendRest (w : Write) (n : Nat) (released : Nat → UInt8) : Write :=
  { w with
    sent := w.sent ++
      if w.buffersFreed = 0 then (w.passed.drop w.sent.length).take n else (List.range n).map released }

/-- The callback. -/
def called (w : Write) (status : Int) : Write :=
  if w.sender.returnsEarly status then { w with status := some status }
  else { w with status := some status }.safeDelete

end Write

/-- The writes of each stream in their order, and the copies that `uv_write` has refused. -/
structure Server where
  writes : Nat → List Write
  refused : List Write

/-- What happens. -/
inductive Event where
  /-- A function is called with the stream of its peer, if there is one; `uv_write` fails, or sends some bytes. -/
  | send (sender : Sender) (stream : Option Nat) (pBuffer : List UInt8) (taken : Option Nat)
  /-- The socket is writable: the rest of a write goes on, out of memory that holds `released` where it is released. -/
  | writable (stream n : Nat) (released : Nat → UInt8)
  /-- The callback of the oldest write. -/
  | callback (stream : Nat) (status : Int)

/-- The first element with a property is changed. -/
def modifyFirst {α : Type*} (p : α → Bool) (f : α → α) : List α → List α
  | [] => []
  | x :: xs => if p x then f x :: xs else x :: modifyFirst p f xs

namespace Server

def onStream (s : Server) (stream : Nat) (f : List Write → List Write) : Server :=
  { s with writes := Function.update s.writes stream (f (s.writes stream)) }

/-- A copy of the bytes is handed to `uv_write`; in the end it is released. -/
def send (s : Server) (sender : Sender) (stream : Nat) (pBuffer : List UInt8) (taken : Option Nat) : Option Server :=
  match taken with
  | none => some { s with refused := s.refused ++ [(Write.copied sender pBuffer []).safeDelete.safeFree] }
  | some n =>
      if n ≤ pBuffer.length ∧ (0 < n → (s.writes stream).all fun earlier => !earlier.unfinished) then
        some (s.onStream stream fun writes => writes ++ [(Write.copied sender pBuffer (pBuffer.take n)).safeFree])
      else none

/-- The five functions; two of them look for the stream of their peer, and drop the bytes without one. -/
def transfer (s : Server) (sender : Sender) (stream : Option Nat) (pBuffer : List UInt8) (taken : Option Nat) :
    Option Server :=
  match sender, stream with
  | .centerTransferToClient, none => some s
  | .gatewayTransferToClient, none => some s
  | _, none => none
  | _, some stream => s.send sender stream pBuffer taken

/-- The write whose callback is next. -/
def oldest (s : Server) (stream : Nat) : Option Write := (s.writes stream).find? fun w => w.status.isNone

/-- One event; none where it cannot happen. -/
def step (s : Server) : Event → Option Server
  | .send sender stream pBuffer taken => s.transfer sender stream pBuffer taken
  | .writable stream n released =>
      match (s.writes stream).find? Write.unfinished with
      | none => none
      | some w =>
          if w.sent.length + n ≤ w.passed.length then
            some (s.onStream stream (modifyFirst Write.unfinished (fun w => w.sendRest n released)))
          else none
  | .callback stream status =>
      match s.oldest stream with
      | none => none
      | some w =>
          if status < 0 ∨ (status = 0 ∧ w.sent.length = w.passed.length) then
            some (s.onStream stream (modifyFirst (fun w => w.status.isNone) (fun w => w.called status)))
          else none

end Server

/-- Nothing was sent yet. -/
def initial : Server := ⟨fun _ => [], []⟩

/-! ## What is promised

A buffer that is handed to `uv_write` is sent as it was passed, stays until all of it was sent, and is released once.
-/

/-- What is sent is the beginning of what was passed, and all of it when success is reported; while more is to be sent,
the buffer is there. Buffer and request are released at most once, and once when the callback has run. -/
structure Write.Sound (w : Write) : Prop where
  exactBytes : w.sent <+: w.passed
  complete : w.status = some 0 → w.sent = w.passed
  kept : w.unfinished = true → w.buffersFreed = 0
  atMostOnce : w.buffersFreed ≤ 1 ∧ w.requestsDeleted ≤ 1
  released : w.status.isSome → w.buffersFreed = 1 ∧ w.requestsDeleted = 1

structure Sound (s : Server) : Prop where
  writes : ∀ stream, ∀ w ∈ s.writes stream, w.Sound
  refused : ∀ w ∈ s.refused, w.buffersFreed = 1 ∧ w.requestsDeleted = 1

/-- `uv_write` refuses a copy or takes all of it at once, and no callback returns early. -/
def TakenAtOnce (s : Server) : Event → Prop
  | .send _ (some _) pBuffer (some n) => n = pBuffer.length
  | .callback stream status => ∀ w, s.oldest stream = some w → w.sender.returnsEarly status = false
  | _ => True

/-! ## Writes that are taken at once

When `uv_write` takes a whole copy or refuses it, nothing is left to send and the early release does no harm.
-/

/-- Everything was sent, the buffer is released, and the request as well if the callback has run. -/
structure Write.Settled (w : Write) : Prop where
  sent : w.sent = w.passed
  freed : w.buffersFreed = 1
  deleted : w.requestsDeleted = if w.status.isSome then 1 else 0

/-- All writes are settled. -/
structure Settled (s : Server) : Prop where
  writes : ∀ stream, ∀ w ∈ s.writes stream, w.Settled
  refused : ∀ w ∈ s.refused, w.buffersFreed = 1 ∧ w.requestsDeleted = 1

theorem Write.Settled.sound {w : Write} (settled : w.Settled) : w.Sound where
  exactBytes := settled.sent ▸ List.prefix_refl w.sent
  complete _ := settled.sent
  kept more := by simp [Write.unfinished, settled.sent] at more
  atMostOnce := by
    rw [settled.freed, settled.deleted]
    split <;> decide
  released called := by
    rw [settled.freed, settled.deleted, if_pos called]
    exact ⟨rfl, rfl⟩

/-- Settled writes keep the promise. -/
theorem Settled.sound {s : Server} (settled : Settled s) : Sound s where
  writes stream w member := (settled.writes stream w member).sound
  refused := settled.refused

theorem mem_modifyFirst {α : Type*} {p : α → Bool} {f : α → α} {xs : List α} {y : α}
    (member : y ∈ modifyFirst p f xs) : y ∈ xs ∨ ∃ x, xs.find? p = some x ∧ y = f x := by
  induction xs with
  | nil => exact Or.inl member
  | cons x xs ih =>
      rw [modifyFirst] at member
      split at member
      · next holds =>
        rcases List.mem_cons.mp member with first | later
        · exact Or.inr ⟨x, List.find?_cons_of_pos holds, first⟩
        · exact Or.inl (List.mem_cons_of_mem _ later)
      · next fails =>
        rcases List.mem_cons.mp member with first | later
        · exact Or.inl (List.mem_cons.mpr (Or.inl first))
        · rw [List.find?_cons_of_neg fails]
          exact (ih later).imp (List.mem_cons_of_mem _) id

theorem modified_mem_modifyFirst {α : Type*} {p : α → Bool} (f : α → α) {xs : List α} {x : α}
    (found : xs.find? p = some x) : f x ∈ modifyFirst p f xs := by
  induction xs with
  | nil => cases found
  | cons head xs ih =>
      rw [modifyFirst]
      split
      · next holds =>
        rw [List.find?_cons_of_pos holds] at found
        cases found
        exact List.mem_cons_self
      · next fails =>
        rw [List.find?_cons_of_neg fails] at found
        exact List.mem_cons_of_mem _ (ih found)

section Steps

variable {s t : Server}

theorem writes_onStream (s : Server) (stream : Nat) (f : List Write → List Write) :
    (s.onStream stream f).writes stream = f (s.writes stream) := Function.update_self ..

/-- Only the writes of one stream change. -/
theorem Settled.onStream {stream : Nat} {f : List Write → List Write} (settled : Settled s)
    (changed : ∀ w ∈ f (s.writes stream), w.Settled) : Settled (s.onStream stream f) where
  writes other := by
    by_cases same : other = stream
    · rw [same, writes_onStream]
      exact changed
    · rw [Server.onStream]
      simp only [Function.update_of_ne same]
      exact settled.writes other
  refused := settled.refused

theorem Settled.send {sender : Sender} {stream : Nat} {pBuffer : List UInt8} {taken : Option Nat}
    (settled : Settled s) (whole : ∀ n, taken = some n → n = pBuffer.length)
    (step : s.send sender stream pBuffer taken = some t) : Settled t := by
  cases taken with
  | none =>
      cases step
      refine ⟨settled.writes, ?_⟩
      intro w member
      rcases List.mem_append.mp member with old | new
      · exact settled.refused w old
      · cases List.mem_singleton.mp new
        exact ⟨rfl, rfl⟩
  | some n =>
      obtain ⟨-, result⟩ := Option.ite_none_right_eq_some.mp step
      cases result
      apply settled.onStream
      intro w member
      rcases List.mem_append.mp member with old | new
      · exact settled.writes stream w old
      · cases List.mem_singleton.mp new
        refine ⟨?_, rfl, rfl⟩
        rw [whole n rfl]
        exact List.take_length

/-- The functions differ only where there is no stream. -/
theorem transfer_cases {sender : Sender} {stream : Option Nat} {pBuffer : List UInt8} {taken : Option Nat}
    (step : s.transfer sender stream pBuffer taken = some t) :
    (stream = none ∧ t = s) ∨ ∃ peer, stream = some peer ∧ s.send sender peer pBuffer taken = some t := by
  cases stream with
  | none =>
      left
      cases sender with
      | centerTransferToClient | gatewayTransferToClient =>
          cases step
          exact ⟨rfl, rfl⟩
      | _ => cases step
  | some peer =>
      right
      cases sender with
      | _ => exact ⟨peer, rfl, step⟩

/-- One event that meets the condition. -/
theorem settled_step {event : Event} (settled : Settled s) (guard : TakenAtOnce s event)
    (step : s.step event = some t) : Settled t := by
  cases event with
  | send sender stream pBuffer taken =>
      rcases transfer_cases step with ⟨-, same⟩ | ⟨peer, there, sent⟩
      · rwa [same]
      · subst there
        apply settled.send _ sent
        intro n accepted
        subst accepted
        exact guard
  | writable stream n released =>
      -- there is nothing left to send
      cases found : (s.writes stream).find? Write.unfinished with
      | none => simp [Server.step, found] at step
      | some w =>
          have more := List.find?_some found
          rw [Write.unfinished, (settled.writes stream w (List.mem_of_find?_eq_some found)).sent] at more
          simp at more
  | callback stream status =>
      cases found : s.oldest stream with
      | none => simp [Server.step, found] at step
      | some w =>
          simp only [Server.step, found] at step
          obtain ⟨-, result⟩ := Option.ite_none_right_eq_some.mp step
          cases result
          apply settled.onStream
          intro changed member
          rcases mem_modifyFirst member with old | ⟨first, isFirst, result⟩
          · exact settled.writes stream changed old
          · have before := settled.writes stream first (List.mem_of_find?_eq_some isFirst)
            have pending : first.status = none := by simpa using List.find?_some isFirst
            have deletes := guard first isFirst
            rw [result, Write.called, if_neg (by rw [deletes]; decide)]
            refine ⟨before.sent, before.freed, ?_⟩
            have deleted := before.deleted
            rw [pending] at deleted
            simp [Write.safeDelete, deleted]

/-- A copy that is not taken at once is released too early, and a callback that returns early does not release. -/
theorem takenAtOnce_of_sound {event : Event} (settled : Settled s) (step : s.step event = some t) (sound : Sound t) :
    TakenAtOnce s event := by
  cases event with
  | send sender stream pBuffer taken =>
      cases stream with
      | none => exact trivial
      | some peer =>
          cases taken with
          | none => exact trivial
          | some n =>
              rcases transfer_cases step with ⟨absent, -⟩ | ⟨same, there, sent⟩
              · cases absent
              · cases there
                obtain ⟨⟨part, -⟩, result⟩ := Option.ite_none_right_eq_some.mp sent
                cases result
                have added := sound.writes peer _ (by
                  rw [writes_onStream]
                  exact List.mem_append_right _ (List.mem_singleton_self _))
                by_contra partly
                have rest : n < pBuffer.length := Nat.lt_of_le_of_ne part partly
                have kept := added.kept (by
                  simp [Write.unfinished, Write.safeFree, Write.copied, Nat.min_eq_left part, rest])
                cases kept
  | writable stream n released => exact trivial
  | callback stream status =>
      intro w found
      simp only [Server.step, found] at step
      obtain ⟨-, result⟩ := Option.ite_none_right_eq_some.mp step
      cases result
      have changed := sound.writes stream (w.called status) (by
        rw [writes_onStream]
        exact modified_mem_modifyFirst _ found)
      have pending : w.status = none := by simpa using List.find?_some found
      have deleted := (settled.writes stream w (List.mem_of_find?_eq_some found)).deleted
      rw [pending] at deleted
      cases early : w.sender.returnsEarly status with
      | false => rfl
      | true =>
          rw [Write.called, if_pos early] at changed
          have once := (changed.released rfl).2
          simp [deleted] at once

end Steps

/-- A run is sound in every state that it reaches if and only if each copy is refused or taken at once, and no callback
returns before it deletes its request. -/
theorem pendingWrites_sound_iff {events : List Event} {t : Server}
    (run : runSteps Server.step initial events = some t) :
    (∀ pre m, pre <+: events → runSteps Server.step initial pre = some m → Sound m) ↔
      Guarded Server.step TakenAtOnce initial events := by
  have start : Settled initial := ⟨fun stream w member => absurd member List.not_mem_nil,
    fun w member => absurd member List.not_mem_nil⟩
  exact forall_reached_iff_guarded (fun _ => Settled.sound)
    (fun _ _ _ settled guard step => settled_step settled guard step)
    (fun _ _ _ settled step sound => takenAtOnce_of_sound settled step sound) start run

/-- One packet to a logic server and one that is refused, with the callback of the first. -/
def exampleEvents : List Event :=
  [.send .transferToLogicServer (some 0) [65, 66] (some 2), .send .transferToLogicServer (some 0) [67] none,
    .callback 0 0]

theorem pendingWrites_sound_iff_example :
    ∃ t, runSteps Server.step initial exampleEvents = some t ∧ Sound t := by
  have run : runSteps Server.step initial exampleEvents = some _ := rfl
  refine ⟨_, run, ?_⟩
  apply (pendingWrites_sound_iff run).mpr _ exampleEvents _ (List.prefix_refl _) run
  refine ⟨rfl, fun first step => ⟨trivial, fun second next => ⟨?_, fun third last => trivial⟩⟩⟩
  cases step
  cases next
  intro w oldest
  cases oldest
  rfl

/-- The socket takes one of two bytes: the other will be read out of released memory. -/
theorem partial_write_released :
    ¬ ∀ pre m, pre <+: [Event.send .transferToLogicServer (some 0) [65, 66] (some 1)] →
      runSteps Server.step initial pre = some m → Sound m := by
  intro sound
  have reached := sound _ _ (List.prefix_refl _) rfl
  have kept := (reached.writes 0 _ (List.mem_singleton_self _)).kept rfl
  cases kept

end GameServer.Net.Writes
