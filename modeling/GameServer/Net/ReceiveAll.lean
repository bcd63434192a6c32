/-
Module: GameServer.Net.ReceiveAll
Purpose: What a receive function has done with chunks one after another, whether or not it returns for the last of
  them.
Trusted boundary: none
Main exports: recvPasses, receiveAll, StopsAt, receiveAll_take, receiveAll_eq
-/
import GameServer.Net.Progress

namespace GameServer.Net

open Lib KNetPackage

variable {ε : Type*} (onPacket : KgBuffer → List ε)

/-- The assembler after the first passes of the receive loop, and the calls made in them. -/
def recvPasses : Nat → KNetPackage → List UInt8 → KNetPackage × List ε
  | 0, p, _ => (p, [])
  | passes + 1, p, pData =>
      let r := recvPass onPacket p pData
      if r.continues then
        let rest := recvPasses passes r.pkg r.pData
        (rest.1, r.events ++ rest.2)
      else
        (r.pkg, r.events)

/-- The assembler after chunks one after another, and the calls made.  Where the function does not return for a chunk,
no later one is received; as many passes as the chunk has bytes make all calls there are (`recvPasses_spec`). -/
def receiveAll : KNetPackage → List (List UInt8) → KNetPackage × List ε
  | p, [] => (p, [])
  | p, chunk :: chunks =>
      match processNetData onPacket p chunk with
      | some (q, events) =>
          let rest := receiveAll q chunks
          (rest.1, events ++ rest.2)
      | none => recvPasses onPacket chunk.length p chunk

/-! ## Where a chunk stalls

The number of bytes that are taken before the assembler stalls; all of them, if it does not.
-/

/-- How much of the data is taken before the assembler stalls. -/
structure StopsAt (acc pData : List UInt8) (n : Nat) : Prop where
  bound : n ≤ pData.length
  free : ∀ j, j < n → ¬ Stalled (netFrame.feed acc (pData.take j)).1 (pData.length - j)
  stop : n < pData.length → Stalled (netFrame.feed acc (pData.take n)).1 (pData.length - n)

theorem StopsAt.unique {acc pData : List UInt8} {n m : Nat} (first : StopsAt acc pData n)
    (second : StopsAt acc pData m) : n = m := by
  rcases Nat.lt_trichotomy n m with less | same | less
  · exact absurd (first.stop (Nat.lt_of_lt_of_le less second.bound)) (second.free n less)
  · exact same
  · exact absurd (second.stop (Nat.lt_of_lt_of_le less first.bound)) (first.free m less)

theorem StopsAt.short {acc pData : List UInt8} {n : Nat} (stops : StopsAt acc pData n)
    (stalls : StallsIn acc pData) : n < pData.length := by
  obtain ⟨j, inside, stalled⟩ := stalls
  by_contra whole
  exact stops.free j (by omega) stalled

/-- A stop behind data that was taken is a stop in the whole data. -/
theorem StopsAt.later {acc pData : List UInt8} {n k : Nat} (bound : n ≤ pData.length)
    (noStall : ∀ j, j < n → ¬ Stalled (netFrame.feed acc (pData.take j)).1 (pData.length - j))
    (rest : StopsAt (netFrame.feed acc (pData.take n)).1 (pData.drop n) k) : StopsAt acc pData (n + k) := by
  have later : ∀ j, (netFrame.feed acc (pData.take (n + j))).1 =
      (netFrame.feed (netFrame.feed acc (pData.take n)).1 ((pData.drop n).take j)).1 := by
    intro j
    rw [List.take_add, netFrame.feed_append]
  have inside := rest.bound
  rw [List.length_drop] at inside
  constructor
  · omega
  · intro j before
    by_cases early : j < n
    · exact noStall j early
    · obtain ⟨i, rfl⟩ := Nat.exists_eq_add_of_le (Nat.le_of_not_lt early)
      have free := rest.free i (by omega)
      rwa [← later, List.length_drop, Nat.sub_sub] at free
  · intro short
    have stop := rest.stop (by rw [List.length_drop]; omega)
    rwa [← later, List.length_drop, Nat.sub_sub] at stop

/-! ## Calls for the stream

The calls for several chunks are those for the bytes that are taken of them.
-/

/-- The calls and the assembler are those for data that is taken. -/
structure Took (acc pData : List UInt8) (result : KNetPackage × List ε) : Prop where
  calls : result.2 = eventsOf onPacket acc pData
  idle : Idle result.1
  held : result.1.received = (netFrame.feed acc pData).1

variable {onPacket}

theorem Took.append {acc xs ys : List UInt8} {first second : KNetPackage × List ε} (before : Took onPacket acc xs first)
    (after : Took onPacket first.1.received ys second) :
    Took onPacket acc (xs ++ ys) (second.1, first.2 ++ second.2) where
  calls := by rw [eventsOf_append, before.calls, after.calls, before.held]
  idle := after.idle
  held := by rw [after.held, before.held, netFrame.feed_append]

variable (onPacket)

theorem recvPasses_of_stalled {p : KNetPackage} (idle : Idle p) {pData : List UInt8}
    (stalled : Stalled p.received pData.length) (passes : Nat) : recvPasses onPacket passes p pData = (p, []) := by
  induction passes with
  | zero => rfl
  | succ passes ih =>
      rw [recvPasses, recvPass_of_stalled onPacket idle stalled]
      simp only [ih, List.nil_append, ite_self]

theorem recvPasses_spec {p : KNetPackage} (idle : Idle p) {pData : List UInt8} (nonempty : pData ≠ []) {passes : Nat}
    (enough : pData.length ≤ passes) :
    ∃ n, StopsAt p.received pData n ∧ Took onPacket p.received (pData.take n) (recvPasses onPacket passes p pData) := by
  induction passes generalizing p pData with
  | zero => exact absurd (List.length_pos_of_ne_nil nonempty) (by omega)
  | succ passes ih =>
      by_cases stalled : Stalled p.received pData.length
      · refine ⟨0, ⟨Nat.zero_le _, fun j before => absurd before (Nat.not_lt_zero j), fun _ => stalled⟩, ?_⟩
        rw [recvPasses_of_stalled onPacket idle stalled]
        exact ⟨rfl, idle, rfl⟩
      · obtain ⟨q, n, passEq, positive, bound, idleNext, held, noStall⟩ :=
          recvPass_spec onPacket idle nonempty stalled
        have taken : Took onPacket p.received (pData.take n) (q, eventsOf onPacket p.received (pData.take n)) :=
          ⟨rfl, idleNext, held⟩
        rw [recvPasses, passEq]
        by_cases last : pData.drop n = []
        · have whole : n = pData.length := Nat.le_antisymm bound (List.drop_eq_nil_iff.mp last)
          refine ⟨n, ⟨bound, noStall, fun short => absurd whole (Nat.ne_of_lt short)⟩, ?_⟩
          simpa [PassResult.continues, last] using taken
        · obtain ⟨k, stops, later⟩ := ih idleNext last (by rw [List.length_drop]; omega)
          have both := taken.append later
          rw [held] at stops
          refine ⟨n + k, StopsAt.later bound noStall stops, ?_⟩
          rw [List.take_add]
          simpa [PassResult.continues, last] using both

/-- A chunk with a stall in it is taken up to the stall. -/
theorem receiveAll_of_stalls {p : KNetPackage} (idle : Idle p) {chunk : List UInt8} (stalls : StallsIn p.received chunk)
    (chunks : List (List UInt8)) :
    ∃ n, StopsAt p.received chunk n ∧
      Took onPacket p.received (chunk.take n) (receiveAll onPacket p (chunk :: chunks)) := by
  rw [receiveAll, processNetData_of_stalls onPacket idle stalls]
  exact recvPasses_spec onPacket idle stalls.ne_nil (Nat.le_refl _)

/-- A chunk without a stall is taken as a whole. -/
theorem receiveAll_of_free {p : KNetPackage} (idle : Idle p) {chunk : List UInt8}
    (free : ¬ StallsIn p.received chunk) (chunks : List (List UInt8)) :
    ∃ q, Took onPacket p.received chunk (q, eventsOf onPacket p.received chunk) ∧
      receiveAll onPacket p (chunk :: chunks) =
        ((receiveAll onPacket q chunks).1, eventsOf onPacket p.received chunk ++ (receiveAll onPacket q chunks).2) := by
  obtain ⟨q, returns, idleNext, held⟩ := processNetData_of_free onPacket idle free
  refine ⟨q, ⟨rfl, idleNext, held⟩, ?_⟩
  rw [receiveAll, returns]

/-- The first part of the stream is taken. -/
theorem receiveAll_take {p : KNetPackage} (idle : Idle p) (chunks : List (List UInt8)) :
    ∃ n, Took onPacket p.received (chunks.flatten.take n) (receiveAll onPacket p chunks) := by
  induction chunks generalizing p with
  | nil => exact ⟨0, ⟨rfl, idle, rfl⟩⟩
  | cons chunk chunks ih =>
      rw [List.flatten_cons]
      by_cases stalls : StallsIn p.received chunk
      · obtain ⟨n, stops, took⟩ := receiveAll_of_stalls onPacket idle stalls chunks
        refine ⟨n, ?_⟩
        rw [List.take_append_of_le_length stops.bound]
        exact took
      · obtain ⟨q, here, result⟩ := receiveAll_of_free onPacket idle stalls chunks
        obtain ⟨n, later⟩ := ih here.idle
        refine ⟨chunk.length + n, ?_⟩
        rw [result, List.take_length_add_append]
        exact here.append later

/-- A packet that declares less than was received never ends. -/
theorem feed_of_stalled {acc : List UInt8} (long : kdPackageLenSize ≤ acc.length)
    (less : leValue (acc.take kdPackageLenSize) < acc.length) (xs : List UInt8) :
    netFrame.feed acc xs = (acc ++ xs, []) := by
  apply netFrame.feed_of_partial
  intro n positive le complete
  have declares : leValue ((acc ++ xs.take n).take kdPackageLenSize) = (acc ++ xs.take n).length := complete.2
  rw [List.take_append_of_le_length long, List.length_append] at declares
  omega

/-- While `unsigned int` holds the lengths of the chunks, all of the stream is taken, but for what is behind the prefix
of a packet that never ends. -/
theorem receiveAll_eq {p : KNetPackage} (idle : Idle p) {chunks : List (List UInt8)}
    (bound : ∀ c ∈ chunks, c.length < 2 ^ 32) :
    (receiveAll onPacket p chunks).2 = eventsOf onPacket p.received chunks.flatten ∧
      Idle (receiveAll onPacket p chunks).1 ∧
      ∃ rest, (netFrame.feed p.received chunks.flatten).1 = (receiveAll onPacket p chunks).1.received ++ rest ∧
        (rest = [] ∨ kdPackageLenSize ≤ (receiveAll onPacket p chunks).1.received.length) := by
  induction chunks generalizing p with
  | nil => exact ⟨rfl, idle, [], (List.append_nil _).symm, Or.inl rfl⟩
  | cons chunk chunks ih =>
      rw [List.forall_mem_cons] at bound
      rw [List.flatten_cons]
      by_cases stalls : StallsIn p.received chunk
      · obtain ⟨n, stops, took⟩ := receiveAll_of_stalls onPacket idle stalls chunks
        have short := stops.short stalls
        obtain ⟨long, reason⟩ := stops.stop short
        have less := reason.resolve_right (by rw [Nat.mod_eq_of_lt (by omega)]; omega)
        have cut : chunk ++ chunks.flatten = chunk.take n ++ (chunk.drop n ++ chunks.flatten) := by
          rw [← List.append_assoc, List.take_append_drop]
        have nothing := feed_of_stalled long less (chunk.drop n ++ chunks.flatten)
        have noCalls : eventsOf onPacket (netFrame.feed p.received (chunk.take n)).1
            (chunk.drop n ++ chunks.flatten) = [] := by
          rw [eventsOf, nothing]
          rfl
        refine ⟨?_, took.idle, chunk.drop n ++ chunks.flatten, ?_, Or.inr (took.held ▸ long)⟩
        · rw [took.calls, cut, eventsOf_append, noCalls, List.append_nil]
        · rw [cut, netFrame.feed_append, nothing, took.held]
      · obtain ⟨q, here, result⟩ := receiveAll_of_free onPacket idle stalls chunks
        obtain ⟨calls, idleEnd, rest, held, reason⟩ := ih here.idle bound.2
        rw [result]
        refine ⟨?_, idleEnd, rest, ?_, reason⟩
        · rw [calls, eventsOf_append, ← here.held]
        · rw [netFrame.feed_append, ← here.held]
          exact held

end GameServer.Net
