/-
Module: GameServer.Net.Progress
Purpose: Chunks received one after another, and exactly when the receive loop makes progress on one.
Trusted boundary: none
Main exports: processChunks_spec, processChunks_of_free, LoopProgresses, loopProgresses_iff,
  session_loop_progress_iff
-/
import GameServer.Net.Handlers
import GameServer.Net.Receive

namespace GameServer.Net

open Lib KNetPackage

variable {ε : Type*} (onPacket : KgBuffer → List ε)

/-! ## Chunks

On a chunk on which the assembler does not stall, the receive function returns with the calls for its packets; on any
other it never returns.
-/

theorem processNetData_of_free {p : KNetPackage} (idle : Idle p) {chunk : List UInt8}
    (free : ¬ StallsIn p.received chunk) :
    ∃ q, processNetData onPacket p chunk = some (q, eventsOf onPacket p.received chunk) ∧
      Idle q ∧ q.received = (netFrame.feed p.received chunk).1 := by
  by_cases nonempty : chunk = []
  · subst nonempty
    exact ⟨p, rfl, idle, rfl⟩
  · obtain ⟨q, loopEq, rest⟩ := recvLoop_spec onPacket idle nonempty free (Nat.le_refl _)
    exact ⟨q, by simp [processNetData, nonempty, loopEq], rest⟩

theorem processNetData_of_stalls {p : KNetPackage} (idle : Idle p) {chunk : List UInt8}
    (stalls : StallsIn p.received chunk) : processNetData onPacket p chunk = none := by
  simp [processNetData, stalls.ne_nil, recvLoop_eq_none onPacket idle stalls]

/-- When the function returns, the assembler was fed the chunk. -/
theorem processNetData_eq_some {p q : KNetPackage} (idle : Idle p) {chunk : List UInt8}
    {events : List ε} (returns : processNetData onPacket p chunk = some (q, events)) :
    events = eventsOf onPacket p.received chunk ∧ Idle q ∧
      q.received = (netFrame.feed p.received chunk).1 := by
  by_cases stalls : StallsIn p.received chunk
  · rw [processNetData_of_stalls onPacket idle stalls] at returns
    exact absurd returns (by simp)
  · obtain ⟨t, loopEq, rest⟩ := processNetData_of_free onPacket idle stalls
    rw [loopEq] at returns
    cases returns
    exact ⟨rfl, rest⟩

/-- After any chunks the assembler holds the bytes of the unfinished packet of the whole stream, and
the handler has seen the packets of the whole stream. -/
theorem processChunks_spec {p q : KNetPackage} (idle : Idle p) {chunks : List (List UInt8)}
    {events : List ε} (returns : processChunks (processNetData onPacket) p chunks = some (q, events)) :
    events = eventsOf onPacket p.received chunks.flatten ∧ Idle q ∧
      q.received = (netFrame.feed p.received chunks.flatten).1 := by
  induction chunks generalizing p events with
  | nil =>
      cases returns
      exact ⟨rfl, idle, rfl⟩
  | cons chunk chunks ih =>
      simp only [processChunks, Option.bind_eq_some_iff, Option.map_eq_some_iff, Prod.exists,
        Prod.mk.injEq] at returns
      obtain ⟨m, headEvents, headEq, q', tailEvents, tailEq, rfl, rfl⟩ := returns
      obtain ⟨rfl, idleHead, heldHead⟩ := processNetData_eq_some onPacket idle headEq
      obtain ⟨rfl, idleTail, heldTail⟩ := ih idleHead tailEq
      refine ⟨?_, idleTail, ?_⟩
      · rw [List.flatten_cons, eventsOf_append, heldHead]
      · rw [heldTail, heldHead, List.flatten_cons, netFrame.feed_append]

/-- Chunks none of which meets a stall are all worked off. -/
theorem processChunks_of_free {p : KNetPackage} (idle : Idle p) {chunks : List (List UInt8)}
    (free : ∀ before chunk after, chunks = before ++ chunk :: after →
      ¬ StallsIn (netFrame.feed p.received before.flatten).1 chunk) :
    ∃ q events, processChunks (processNetData onPacket) p chunks = some (q, events) := by
  induction chunks generalizing p with
  | nil => exact ⟨p, [], rfl⟩
  | cons chunk chunks ih =>
      have freeHead : ¬ StallsIn p.received chunk := by simpa using free [] chunk chunks rfl
      obtain ⟨m, headEq, idleHead, heldHead⟩ := processNetData_of_free onPacket idle freeHead
      have freeTail : ∀ before c after, chunks = before ++ c :: after →
          ¬ StallsIn (netFrame.feed m.received before.flatten).1 c := by
        intro before c after cut
        have whole := free (chunk :: before) c after (by rw [cut, List.cons_append])
        rwa [List.flatten_cons, netFrame.feed_append, ← heldHead] at whole
      obtain ⟨q, events, tailEq⟩ := ih idleHead freeTail
      exact ⟨q, eventsOf onPacket p.received chunk ++ events, by simp [processChunks, headEq, tailEq]⟩

/-! ## Progress

Every pass that the loop comes to takes a byte, or is the last one.
-/

/-- The passes the loop comes to: the assembler and the data that is left at their start. -/
inductive PassReached : KNetPackage → List UInt8 → KNetPackage → List UInt8 → Prop
  | start (p : KNetPackage) (pData : List UInt8) : PassReached p pData p pData
  | next {p q : KNetPackage} {pData rest : List UInt8}
      (goesOn : (recvPass onPacket p pData).continues = true)
      (later : PassReached (recvPass onPacket p pData).pkg (recvPass onPacket p pData).pData q rest) :
      PassReached p pData q rest

/-- The loop ends on the chunk, and every pass after which it goes on has taken a byte. -/
def LoopProgresses (p : KNetPackage) (chunk : List UInt8) : Prop :=
  (∃ passes, recvLoop onPacket passes p chunk ≠ none) ∧
    ∀ q rest, PassReached onPacket p chunk q rest →
      (recvPass onPacket q rest).continues = true → 0 < (q.write rest (rest.length % 2 ^ 32)).2

private theorem passReached_free {p q : KNetPackage} {pData rest : List UInt8}
    (reached : PassReached onPacket p pData q rest) (idle : Idle p) (nonempty : pData ≠ [])
    (free : ¬ StallsIn p.received pData) :
    Idle q ∧ rest ≠ [] ∧ ¬ StallsIn q.received rest := by
  induction reached with
  | start => exact ⟨idle, nonempty, free⟩
  | @next p q pData rest goesOn _ ih =>
      have freeHere : ¬ Stalled p.received pData.length :=
        fun stalled => free (stallsIn_of_stalled nonempty stalled)
      obtain ⟨m, n, passEq, -, bound, idleNext, held, noStall⟩ :=
        recvPass_spec onPacket idle nonempty freeHere
      rw [passEq] at goesOn ih
      refine ih idleNext ?_ ?_
      · simpa [PassResult.continues] using goesOn
      · rw [held, ← stallsIn_iff_drop bound noStall]
        exact free

/-- Between two chunks, the loop makes progress on a chunk exactly when the chunk has no stall in
it. -/
theorem loopProgresses_iff {p : KNetPackage} (idle : Idle p) {chunk : List UInt8}
    (nonempty : chunk ≠ []) :
    LoopProgresses onPacket p chunk ↔ ¬ StallsIn p.received chunk := by
  constructor
  · rintro ⟨⟨passes, ends⟩, -⟩ stalls
    exact ends (recvLoop_eq_none onPacket idle stalls passes)
  · intro free
    obtain ⟨q, loopEq, -⟩ := recvLoop_spec onPacket idle nonempty free (Nat.le_refl _)
    refine ⟨⟨chunk.length, by simp [loopEq]⟩, fun q rest reached _ => ?_⟩
    obtain ⟨idleThere, someLeft, freeThere⟩ :=
      passReached_free onPacket reached idle nonempty free
    obtain ⟨t, n, writeEq, takes⟩ :=
      write_spec idleThere someLeft fun stalled => freeThere (stallsIn_of_stalled someLeft stalled)
    rw [writeEq]
    exact takes.positive

/-! ## The loops of `TCPSession`

Both of its receive functions are the one loop.
-/

/-- The two receive functions of a `TCPSession`. -/
inductive SessionLoop where
  | processNetData
  | centerServerProcessNetData
deriving Repr, DecidableEq

section Session

variable (parseFromArray : List UInt8 → Option (List UInt8)) (uHandlerId : UInt32)

namespace SessionLoop

def packetHandler : SessionLoop → KgBuffer → List NetEvent
  | .processNetData => TCPSession.onPacket parseFromArray uHandlerId
  | .centerServerProcessNetData => TCPSession.onCenterPacket parseFromArray uHandlerId

def receive : SessionLoop → KNetPackage → List UInt8 → Option (KNetPackage × List NetEvent)
  | .processNetData => TCPSession.processNetData parseFromArray uHandlerId
  | .centerServerProcessNetData => TCPSession.centerServerProcessNetData parseFromArray uHandlerId

theorem receive_eq (loop : SessionLoop) :
    loop.receive parseFromArray uHandlerId =
      Net.processNetData (loop.packetHandler parseFromArray uHandlerId) := by
  cases loop <;> rfl

end SessionLoop

/-- For every state of a session's assembler that chunks from the peer lead to, and every further
chunk: the loop makes progress on it exactly when the chunk has no stall in it. -/
theorem session_loop_progress_iff (loop : SessionLoop) {chunks : List (List UInt8)} {p : KNetPackage}
    {events : List NetEvent}
    (reach : processChunks (loop.receive parseFromArray uHandlerId) fresh chunks = some (p, events))
    {chunk : List UInt8} (nonempty : chunk ≠ []) :
    LoopProgresses (loop.packetHandler parseFromArray uHandlerId) p chunk ↔
      ¬ StallsIn p.received chunk := by
  rw [SessionLoop.receive_eq] at reach
  obtain ⟨-, idle, -⟩ := processChunks_spec _ fresh_idle reach
  exact loopProgresses_iff _ idle nonempty

end Session

/-- A session that has received the first byte of a prefix makes progress on the rest of it. -/
theorem session_loop_progresses_prefix :
    LoopProgresses (SessionLoop.packetHandler (fun body => some body) 7 .processNetData)
      { fresh with szRemain := [21, 0, 0, 0], uRecvOffset := 1 } [0, 0, 0, 9] :=
  have reach : processChunks (SessionLoop.receive (fun body => some body) 7 .processNetData) fresh
      [[21]] = some ({ fresh with szRemain := [21, 0, 0, 0], uRecvOffset := 1 }, []) := rfl
  (session_loop_progress_iff (fun body => some body) 7 .processNetData reach (by simp)).mpr
    (by decide)

/-- Five bytes whose prefix declares a packet shorter than itself: the loop never ends. -/
theorem session_loop_stalls :
    ¬ LoopProgresses (SessionLoop.packetHandler (fun body => some body) 7 .processNetData)
      fresh [0, 0, 0, 0, 1] := by
  rw [loopProgresses_iff _ fresh_idle (by simp)]
  decide

end GameServer.Net
