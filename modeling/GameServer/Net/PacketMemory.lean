/-
Module: GameServer.Net.PacketMemory
Purpose: The lengths that packets declare and the memory of their buffers: which streams the assembler takes without
  leaving its memory.
Trusted boundary: `malloc` has memory; the length of a chunk is that of a read buffer
Main exports: KgBuffer.WritesInside, KgBuffer.ReadsInside, LengthsSafe, LengthsFine, lengthsSafe_iff
-/
import GameServer.Lib.MemoryBlock
import GameServer.Net.ReceiveAll

namespace GameServer.Net

open Lib KNetPackage

/-! ## Accesses to a buffer

Where the bytes that are written to a buffer and read from it lie in its memory.
-/

/-- Where the data of a buffer starts in its memory. -/
def dataStart : Nat := sizeofKgBuffer + memoryBufferReserveSize

/-- The memory is as large as the declared length, the constructor of `KG_Buffer` stays inside, and so did everything
that was written to the data: the prefix and the copies of `_WriteData`. -/
structure KgBuffer.WritesInside (b : KgBuffer) : Prop where
  allocated : b.uSize ≤ b.uBufferSize
  constructed : InBounds b.uBufferSize 0 sizeofKgBuffer
  written : InBounds b.uBufferSize dataStart b.pvData.length

/-- What the header getters read: `GetBufferSize`, `GetEventType`, `GetErrorCode`, `GetHandlerId`, `GetServerId` and
`GetSequenceId`. -/
def headerReads : List (Nat × Nat) :=
  [(0, kdPackageUintSize), (kdPackageHeaderEventTypeStart, kdPackageUintSize),
    (kdPackageHeaderErrorCodeStart, kdPackageUintSize), (kdPackageHeaderHandlerIdStart, kdPackageUintSize),
    (kdPackageHeaderServerIdStart, kdPackageUshortSize), (kdPackageHeaderSequenceIdStart, kdPackageUshortSize)]

/-- The header getters stay inside, and `GetNetPackageBody` says the size that is left behind the header. -/
structure KgBuffer.ReadsInside (b : KgBuffer) : Prop where
  header : ∀ read ∈ headerReads, InBounds b.uBufferSize (dataStart + read.1) read.2
  body : ((getNetPackageBody b.pvData b.uSize).2 : Int) = b.uSize - kdPackageHeaderSize

/-! ## The property and its condition

Every access stays inside of the buffer, which is so exactly where the lengths in the stream are fine.
-/

/-- Every buffer that a session has handed out was written and is read inside of its memory, and the one that is being
filled was written inside. -/
def LengthsSafe (chunks : List (List UInt8)) : Prop :=
  let result := receiveAll (fun pBuffer => [pBuffer]) fresh chunks
  (∀ pBuffer ∈ result.2, pBuffer.WritesInside ∧ pBuffer.ReadsInside) ∧
    (kdPackageLenSize ≤ result.1.uRecvOffset → ∀ pBuffer ∈ result.1.pBuffer, pBuffer.WritesInside)

/-- The sum in `DB_MemoryCreateBuffer` does not wrap. -/
def Allocatable (length : Nat) : Prop := length + dataStart < 2 ^ 32

/-- The packets of the stream declare at least a header, the one that has not ended declares at least its prefix, and
the size of no buffer wraps. -/
structure LengthsFine (stream : List UInt8) : Prop where
  whole : ∀ packet ∈ (netFrame.feed [] stream).2, kdPackageHeaderSize ≤ packet.length ∧ Allocatable packet.length
  unfinished : kdPackageLenSize ≤ (netFrame.feed [] stream).1.length →
    kdPackageLenSize ≤ leValue ((netFrame.feed [] stream).1.take kdPackageLenSize) ∧
      Allocatable (leValue ((netFrame.feed [] stream).1.take kdPackageLenSize))

/-! ## One buffer

The sum of the size and of the header of a buffer is made with 32 bits.
-/

theorem uBufferSize_filledBuffer (uSize : Nat) (data : List UInt8) :
    (filledBuffer uSize data).uBufferSize = (uSize + dataStart) % 2 ^ 32 := by
  unfold dataStart
  rw [← Nat.add_assoc]
  rfl

theorem le_uBufferSize_iff {uSize : Nat} (fits : uSize < 2 ^ 32) (data : List UInt8) :
    uSize ≤ (filledBuffer uSize data).uBufferSize ↔ Allocatable uSize := by
  rw [uBufferSize_filledBuffer]
  unfold Allocatable dataStart sizeofKgBuffer memoryBufferReserveSize
  omega

/-- A buffer with the prefix and no more than the declared length in it. -/
theorem writesInside_iff {uSize : Nat} {data : List UInt8} (fits : uSize < 2 ^ 32)
    (long : kdPackageLenSize ≤ data.length) (filled : data.length = kdPackageLenSize ∨ data.length ≤ uSize) :
    (filledBuffer uSize data).WritesInside ↔ kdPackageLenSize ≤ uSize ∧ Allocatable uSize := by
  have four : kdPackageLenSize = 4 := rfl
  have size := uBufferSize_filledBuffer uSize data
  constructor
  · intro inside
    have allocatable := (le_uBufferSize_iff fits data).mp inside.allocated
    refine ⟨?_, allocatable⟩
    rcases inside.written with nothing | ⟨_, ends⟩
    · rw [filledBuffer_pvData] at nothing
      omega
    · rw [size, filledBuffer_pvData, Nat.mod_eq_of_lt allocatable] at ends
      omega
  · rintro ⟨least, allocatable⟩
    have whole : (filledBuffer uSize data).uBufferSize = uSize + dataStart := by
      rw [size, Nat.mod_eq_of_lt allocatable]
    refine ⟨(le_uBufferSize_iff fits data).mpr allocatable, Or.inr ⟨le_refl _, ?_⟩, Or.inr ⟨?_, ?_⟩⟩
    · rw [whole]
      unfold dataStart
      omega
    · exact Int.natCast_nonneg _
    · rw [whole, filledBuffer_pvData]
      omega

theorem readsInside_iff {packet : List UInt8} (allocatable : Allocatable packet.length) :
    (wholeBuffer packet).ReadsInside ↔ kdPackageHeaderSize ≤ packet.length := by
  have fits : packet.length < 2 ^ 32 := Nat.lt_of_le_of_lt (Nat.le_add_right _ _) allocatable
  have twenty : kdPackageHeaderSize = 20 := rfl
  have body : (getNetPackageBody (wholeBuffer packet).pvData (wholeBuffer packet).uSize).2 =
      uintSub packet.length kdPackageHeaderSize := rfl
  have declared : (wholeBuffer packet).uSize = packet.length := rfl
  constructor
  · intro inside
    have size := inside.body
    rw [body, declared] at size
    omega
  · intro least
    constructor
    · have room : dataStart + 20 ≤ (wholeBuffer packet).uBufferSize := by
        rw [wholeBuffer, uBufferSize_filledBuffer, Nat.mod_eq_of_lt allocatable]
        omega
      have ends : ∀ read ∈ headerReads, read.1 + read.2 ≤ 20 := by decide
      intro read member
      have last := ends read member
      right
      omega
    · rw [body, declared, uintSub_of_le least fits]
      omega

/-- A packet that was handed out. -/
theorem wholeBuffer_inside_iff {packet : List UInt8} (complete : netFrame.Complete packet) :
    (wholeBuffer packet).WritesInside ∧ (wholeBuffer packet).ReadsInside ↔
      kdPackageHeaderSize ≤ packet.length ∧ Allocatable packet.length := by
  have long : kdPackageLenSize ≤ packet.length := complete.1
  have fits : packet.length < 2 ^ 32 := by
    have value := leValue_lt (packet.take kdPackageLenSize)
    have declares : leValue (packet.take kdPackageLenSize) = packet.length := complete.2
    have width : (packet.take kdPackageLenSize).length = 4 := List.length_take_of_le long
    rw [declares, width] at value
    exact value
  rw [wholeBuffer, writesInside_iff fits long (Or.inr (le_refl _))]
  constructor
  · rintro ⟨⟨_, allocatable⟩, reads⟩
    exact ⟨(readsInside_iff allocatable).mp reads, allocatable⟩
  · rintro ⟨least, allocatable⟩
    exact ⟨⟨long, allocatable⟩, (readsInside_iff allocatable).mpr least⟩

/-- The packet that is being filled, behind its prefix. -/
theorem WellFormed.inside_iff {p : KNetPackage} (wf : WellFormed p) (long : kdPackageLenSize ≤ p.uRecvOffset) :
    (∀ pBuffer ∈ p.pBuffer, pBuffer.WritesInside) ↔
      kdPackageLenSize ≤ leValue (p.received.take kdPackageLenSize) ∧
        Allocatable (leValue (p.received.take kdPackageLenSize)) := by
  obtain ⟨data, buffer, length, declares, filled⟩ := wf.started long
  have bytes : p.received = data := received_of_buffer long buffer
  have fits : p.uPacketLen < 2 ^ 32 := by
    have value := leValue_lt (data.take kdPackageLenSize)
    have width : (data.take kdPackageLenSize).length = 4 := List.length_take_of_le (length ▸ long)
    rw [← declares, width] at value
    exact value
  rw [bytes, ← declares, buffer, ← writesInside_iff fits (length ▸ long) (length ▸ filled)]
  constructor
  · intro inside
    exact inside _ rfl
  · intro inside pBuffer isIt
    rw [← Option.some.inj isIt]
    exact inside

/-! ## Streams

The packets of a stream are handed out whole, so the condition is about each of them and about the one that is still
arriving.
-/

theorem handedOut_eq (acc xs : List UInt8) :
    eventsOf (fun pBuffer => [pBuffer]) acc xs = (netFrame.feed acc xs).2.map wholeBuffer := by
  unfold eventsOf
  rw [List.map_eq_flatMap]

/-- A session stays inside of the memory of its buffers, and the sizes it computes do not wrap, exactly for the streams
whose packets declare lengths that are neither too small nor too large. -/
theorem lengthsSafe_iff {chunks : List (List UInt8)} (bound : ∀ c ∈ chunks, c.length < 2 ^ 32) :
    LengthsSafe chunks ↔ LengthsFine chunks.flatten := by
  obtain ⟨calls, idle, rest, held, reason⟩ := receiveAll_eq (fun pBuffer => [pBuffer]) fresh_idle bound
  rw [received_fresh] at calls held
  rw [handedOut_eq] at calls
  unfold LengthsSafe
  generalize receiveAll (fun pBuffer => [pBuffer]) fresh chunks = result at *
  obtain ⟨p, buffers⟩ := result
  have offset : p.received.length = p.uRecvOffset := idle.received_length
  -- the packets that were handed out
  have whole : (∀ pBuffer ∈ buffers, pBuffer.WritesInside ∧ pBuffer.ReadsInside) ↔
      ∀ packet ∈ (netFrame.feed [] chunks.flatten).2,
        kdPackageHeaderSize ≤ packet.length ∧ Allocatable packet.length := by
    change buffers = _ at calls
    rw [calls, List.forall_mem_map]
    exact forall₂_congr fun packet member => wholeBuffer_inside_iff (netFrame.feed_snd_complete [] _ packet member)
  -- the packet that is being filled
  have started : kdPackageLenSize ≤ (netFrame.feed [] chunks.flatten).1.length ↔ kdPackageLenSize ≤ p.uRecvOffset := by
    rw [held, List.length_append, offset]
    rcases reason with rfl | long
    · rw [List.length_nil, Nat.add_zero]
    · change kdPackageLenSize ≤ p.received.length at long
      omega
  have declares : kdPackageLenSize ≤ p.uRecvOffset →
      (netFrame.feed [] chunks.flatten).1.take kdPackageLenSize = p.received.take kdPackageLenSize := by
    intro long
    rw [held, List.take_append_of_le_length (offset ▸ long)]
  constructor
  · rintro ⟨handedOut, filling⟩
    refine ⟨whole.mp handedOut, fun long => ?_⟩
    have long' := started.mp long
    rw [declares long']
    exact (WellFormed.inside_iff idle.toWellFormed long').mp (filling long')
  · rintro ⟨packets, unfinished⟩
    refine ⟨whole.mpr packets, fun long => ?_⟩
    have lengths := unfinished (started.mpr long)
    rw [declares long] at lengths
    exact (WellFormed.inside_iff idle.toWellFormed long).mpr lengths

/-- A whole packet in two chunks, and the prefix of the next one. -/
theorem lengthsSafe_iff_example :
    LengthsSafe [[21, 0, 0, 0, 5, 0, 0, 0, 0, 0, 0, 0, 9, 0], [0, 0, 1, 0, 3, 0, 65, 44, 1, 0, 0]] ↔
      LengthsFine [[21, 0, 0, 0, 5, 0, 0, 0, 0, 0, 0, 0, 9, 0], [0, 0, 1, 0, 3, 0, 65, 44, 1, 0, 0]].flatten :=
  lengthsSafe_iff (by decide)

/-- A prefix that declares three bytes is copied to memory for three. -/
theorem prefix_outside_of_memory : ¬ LengthsSafe [[3, 0, 0, 0]] := by
  rintro ⟨_, filling⟩
  have inside := (filling (by decide) _ rfl).written
  revert inside
  decide

end GameServer.Net
