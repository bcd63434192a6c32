/-
Module: GameServer.Net.Reassembly
Purpose: A stream of `CreateNetBuffer` packets, cut anywhere, comes out of the receive loop packet by
  packet.
Trusted boundary: none
Main exports: encode_complete, not_stallsIn_of_packets, processChunks_frames, processChunks_packets,
  reassembly_inverts_encoding
-/
import GameServer.Net.Progress

namespace GameServer.Net

open Lib KNetPackage

/-- The largest packet for which the sizes in `DB_MemoryCreateBuffer` do not wrap. -/
def packetSizeLimit : Nat := 2 ^ 32 - (sizeofKgBuffer + memoryBufferReserveSize)

/-- The packets a peer may send: those whose buffer can be made. -/
def NetPackage.Fits (m : NetPackage) : Prop := kdPackageHeaderSize + m.body.length < packetSizeLimit

instance (m : NetPackage) : Decidable m.Fits := inferInstanceAs (Decidable (_ < _))

theorem NetPackage.Fits.lt {m : NetPackage} (fits : m.Fits) :
    kdPackageHeaderSize + m.body.length < 2 ^ 32 :=
  Nat.lt_of_lt_of_le fits (Nat.sub_le _ _)

theorem encode_complete {m : NetPackage} (fits : m.Fits) : netFrame.Complete m.encode := by
  rw [netFrame_complete_iff]
  refine ⟨?_, declared_encode fits.lt⟩
  rw [encode_length]
  exact Nat.le_trans (by decide) (Nat.le_add_right _ _)

/-- The buffer of such a packet is large enough for it. -/
theorem wholeBuffer_room {m : NetPackage} (fits : m.Fits) :
    m.encode.length + sizeofKgBuffer ≤ (wholeBuffer m.encode).uBufferSize := by
  have limit : m.encode.length + sizeofKgBuffer + memoryBufferReserveSize < 2 ^ 32 := by
    rw [encode_length]
    have bound : kdPackageHeaderSize + m.body.length < packetSizeLimit := fits
    rw [packetSizeLimit] at bound
    omega
  change _ ≤ (m.encode.length + sizeofKgBuffer + memoryBufferReserveSize) % 2 ^ 32
  rw [Nat.mod_eq_of_lt limit]
  exact Nat.le_add_right _ _

/-- A proper beginning of a whole frame does not stall while less than 2^32 bytes are offered. -/
theorem not_stalled_of_take {frame : List UInt8} (complete : netFrame.Complete frame) {n offered : Nat}
    (short : n < frame.length) (positive : 0 < offered) (bound : offered < 2 ^ 32) :
    ¬ Stalled (frame.take n) offered := by
  have length : (frame.take n).length = n := by
    rw [List.length_take]
    exact Nat.min_eq_left (Nat.le_of_lt short)
  rintro ⟨hasPrefix, less | zero⟩
  · rw [length] at hasPrefix less
    rw [List.take_take, Nat.min_eq_left hasPrefix] at less
    have declares : leValue (frame.take kdPackageLenSize) = frame.length := complete.2
    omega
  · rw [Nat.mod_eq_of_lt bound] at zero
    omega

/-- A chunk of a stream of whole frames meets no stall. -/
theorem not_stallsIn_of_packets {frames : List (List UInt8)}
    (complete : ∀ f ∈ frames, netFrame.Complete f) {before chunk after : List UInt8}
    (cut : frames.flatten = before ++ (chunk ++ after)) (bound : chunk.length < 2 ^ 32) :
    ¬ StallsIn (netFrame.feed [] before).1 chunk := by
  rintro ⟨j, inside, stalled⟩
  have sofar : (netFrame.feed (netFrame.feed [] before).1 (chunk.take j)).1 =
      (netFrame.feed [] (before ++ chunk.take j)).1 := by
    rw [netFrame.feed_append]
  have recut : frames.flatten = (before ++ chunk.take j) ++ (chunk.drop j ++ after) := by
    rw [cut, List.append_assoc, ← List.append_assoc (chunk.take j), List.take_append_drop]
  rw [sofar] at stalled
  rcases netFrame.held_of_flatten_eq complete recut with nothing | ⟨f, member, n, short, held⟩
  · rw [nothing] at stalled
    exact not_stalled_of_short (by decide) _ stalled
  · rw [held] at stalled
    exact not_stalled_of_take (complete f member) short (by omega) (by omega) stalled

/-- Whatever the handler: it is called on the frames sent, in order, and nothing is left over. -/
theorem processChunks_frames {ε : Type*} (onPacket : KgBuffer → List ε) {frames : List (List UInt8)}
    (complete : ∀ f ∈ frames, netFrame.Complete f) {chunks : List (List UInt8)}
    (bound : ∀ c ∈ chunks, c.length < 2 ^ 32) (cut : chunks.flatten = frames.flatten) :
    ∃ p, processChunks (processNetData onPacket) fresh chunks =
        some (p, frames.flatMap fun f => onPacket (wholeBuffer f)) ∧
      p.received = [] := by
  have free : ∀ before chunk after, chunks = before ++ chunk :: after →
      ¬ StallsIn (netFrame.feed fresh.received before.flatten).1 chunk := by
    intro before chunk after split
    have recut : frames.flatten = before.flatten ++ (chunk ++ after.flatten) := by
      rw [← cut, split, List.flatten_append, List.flatten_cons]
    exact not_stallsIn_of_packets complete recut (bound chunk (by simp [split]))
  obtain ⟨p, events, returns⟩ := processChunks_of_free onPacket fresh_idle free
  obtain ⟨eventsEq, -, held⟩ := processChunks_spec onPacket fresh_idle returns
  have whole := netFrame.feed_flatten complete
  rw [received_fresh, cut] at eventsEq held
  rw [whole] at held
  refine ⟨p, ?_, held⟩
  rw [returns, eventsEq, eventsOf, whole]

/-- The packets sent are frames. -/
theorem processChunks_packets {ε : Type*} (onPacket : KgBuffer → List ε) {msgs : List NetPackage}
    (fits : ∀ m ∈ msgs, m.Fits) {chunks : List (List UInt8)} (bound : ∀ c ∈ chunks, c.length < 2 ^ 32)
    (cut : chunks.flatten = (msgs.map NetPackage.encode).flatten) :
    ∃ p, processChunks (processNetData onPacket) fresh chunks =
        some (p, msgs.flatMap fun m => onPacket (wholeBuffer m.encode)) ∧
      p.received = [] := by
  have complete : ∀ f ∈ msgs.map NetPackage.encode, netFrame.Complete f := by
    intro f member
    obtain ⟨m, sent, rfl⟩ := List.mem_map.mp member
    exact encode_complete (fits m sent)
  obtain ⟨p, returns, held⟩ := processChunks_frames onPacket complete bound cut
  rw [List.flatMap_map] at returns
  exact ⟨p, returns, held⟩

/-- Reassembly inverts encoding: the packets sent, in order, each with every field and its body. -/
theorem reassembly_inverts_encoding {msgs : List NetPackage} (fits : ∀ m ∈ msgs, m.Fits)
    {chunks : List (List UInt8)} (bound : ∀ c ∈ chunks, c.length < 2 ^ 32)
    (cut : chunks.flatten = (msgs.map NetPackage.encode).flatten) :
    ∃ p packets, processChunks (processNetData fun pBuffer => [pBuffer]) fresh chunks =
        some (p, packets) ∧
      packets.map (fun pBuffer => pBuffer.pvData) = msgs.map NetPackage.encode ∧
      packets.map (fun pBuffer => readPackage pBuffer.pvData pBuffer.uSize) = msgs ∧
      ∀ pBuffer ∈ packets, pBuffer.uSize + sizeofKgBuffer ≤ pBuffer.uBufferSize := by
  obtain ⟨p, returns, -⟩ := processChunks_packets (fun pBuffer => [pBuffer]) fits bound cut
  refine ⟨p, msgs.map fun m => wholeBuffer m.encode, ?_, ?_, ?_, ?_⟩
  · rw [returns, ← List.map_eq_flatMap]
  · rw [List.map_map]
    rfl
  · rw [List.map_map]
    refine (List.map_congr_left fun m member => ?_).trans (List.map_id msgs)
    exact readPackage_encode (fits m member).lt
  · intro pBuffer member
    obtain ⟨m, sent, rfl⟩ := List.mem_map.mp member
    exact wholeBuffer_room (fits m sent)

/-- Two packets, the second without a body, cut inside the first prefix and across the border. -/
theorem reassembly_inverts_encoding_cut :
    ∃ p packets, processChunks (processNetData fun pBuffer => [pBuffer]) fresh
        [[22, 0], [0, 0, 5, 0, 0, 0, 0, 0, 0, 0, 9, 0, 0, 0, 1, 0, 3, 0, 65, 66, 20],
          [0, 0, 0, 6, 0, 0, 0, 0, 0, 0, 0, 9, 0, 0, 0, 1, 0, 4, 0]] = some (p, packets) ∧
      packets.map (fun pBuffer => pBuffer.pvData) =
        [⟨5, 0, 9, 1, 3, [65, 66]⟩, ⟨6, 0, 9, 1, 4, []⟩].map NetPackage.encode ∧
      packets.map (fun pBuffer => readPackage pBuffer.pvData pBuffer.uSize) =
        [⟨5, 0, 9, 1, 3, [65, 66]⟩, ⟨6, 0, 9, 1, 4, []⟩] ∧
      ∀ pBuffer ∈ packets, pBuffer.uSize + sizeofKgBuffer ≤ pBuffer.uBufferSize :=
  reassembly_inverts_encoding (by decide) (by decide) (by decide)

/-- A chunk of 2^32 + 5 bytes that begins with a longer packet: the first pass takes 5 bytes, the
next one is offered 0. -/
private theorem stallsIn_of_huge {m : NetPackage} (fits : m.Fits) {rest : List UInt8}
    (long : 5 < m.encode.length) (length : (m.encode ++ rest).length = 2 ^ 32 + 5) :
    StallsIn [] (m.encode ++ rest) := by
  have begins : (m.encode ++ rest).take 5 = m.encode.take 5 :=
    List.take_append_of_le_length (Nat.le_of_lt long)
  have five : (m.encode.take 5).length = 5 := by
    rw [List.length_take]
    exact Nat.min_eq_left (Nat.le_of_lt long)
  have held : netFrame.feed [] (m.encode.take 5) = ([] ++ m.encode.take 5, []) := by
    refine netFrame.feed_of_partial fun n _ le => ?_
    rw [List.nil_append, List.take_take]
    exact netFrame.not_complete_take (encode_complete fits) (by omega)
  refine ⟨5, by omega, ?_⟩
  rw [begins, held, List.nil_append, length]
  exact ⟨by rw [five]; decide, Or.inr (by norm_num)⟩

/-- Without the bound on the chunks, two packets that arrive in one chunk of 2^32 + 5 bytes keep the
loop running for ever. -/
theorem reassembly_fails_on_huge_chunk :
    ¬ ∀ (msgs : List NetPackage) (chunks : List (List UInt8)), (∀ m ∈ msgs, m.Fits) →
      (∀ c ∈ chunks, c ≠ []) → chunks.flatten = (msgs.map NetPackage.encode).flatten →
      ∃ p packets, processChunks (processNetData fun pBuffer => [pBuffer]) fresh chunks =
          some (p, packets) ∧
        packets.map (fun pBuffer => readPackage pBuffer.pvData pBuffer.uSize) = msgs := by
  intro claim
  have lengths : ∀ n, (NetPackage.encode ⟨0, 0, 0, 0, 0, List.replicate n 0⟩).length = 20 + n := by
    intro n
    rw [encode_length, List.length_replicate]
    rfl
  have fitsAll : ∀ n, 20 + n < 2 ^ 32 - 40 →
      NetPackage.Fits ⟨0, 0, 0, 0, 0, List.replicate n 0⟩ := by
    intro n small
    rw [NetPackage.Fits, List.length_replicate]
    exact small
  generalize firstEq : (⟨0, 0, 0, 0, 0, List.replicate (2 ^ 32 - 61) 0⟩ : NetPackage) = first
  generalize secondEq : (⟨0, 0, 0, 0, 0, List.replicate 26 0⟩ : NetPackage) = second
  have firstFits : first.Fits := firstEq ▸ fitsAll _ (by norm_num)
  have secondFits : second.Fits := secondEq ▸ fitsAll _ (by norm_num)
  have firstLength : first.encode.length = 2 ^ 32 - 41 := by rw [← firstEq, lengths]; norm_num
  have secondLength : second.encode.length = 46 := by rw [← secondEq, lengths]
  have stalls : StallsIn [] (first.encode ++ second.encode) :=
    stallsIn_of_huge firstFits (by omega) (by rw [List.length_append]; omega)
  obtain ⟨p, packets, returns, -⟩ := claim [first, second] [first.encode ++ second.encode]
    (by simp [firstFits, secondFits])
    (by
      have positive : 0 < (first.encode ++ second.encode).length := by
        rw [List.length_append]
        omega
      simpa using List.ne_nil_of_length_pos positive)
    (by simp)
  have never := processNetData_of_stalls (fun pBuffer => [pBuffer]) fresh_idle stalls
  simp [processChunks, never] at returns

end GameServer.Net
