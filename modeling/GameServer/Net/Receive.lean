/-
Module: GameServer.Net.Receive
Purpose: What `KNetPackage::Write` and one pass of the receive loop do to the bytes received so far,
  and from it when the loop ends and which packets it hands out.
Trusted boundary: none
Main exports: received, Idle, write_spec, recvPass_spec, StallsIn, recvLoop_spec, recvLoop_eq_none,
  recvLoop_progress_iff
-/
import GameServer.Lib.Framing
import GameServer.Net.KNetPackage

namespace GameServer.Net

open Lib

/-- The frames of the protocol: a 4-byte little-endian length of the whole packet. -/
def netFrame : FrameFormat UInt8 where
  prefixSize := kdPackageLenSize
  declared := leValue
  prefixSize_pos := by decide

@[simp] theorem netFrame_prefixSize : netFrame.prefixSize = kdPackageLenSize := rfl

@[simp] theorem netFrame_declared (bytes : List UInt8) : netFrame.declared bytes = leValue bytes :=
  rfl

theorem netFrame_complete_iff {bytes : List UInt8} :
    netFrame.Complete bytes ↔
      kdPackageLenSize ≤ bytes.length ∧ leValue (bytes.take kdPackageLenSize) = bytes.length :=
  Iff.rfl

/-- The buffer made for a packet of `uSize` bytes after `data` was written to it. -/
def filledBuffer (uSize : Nat) (data : List UInt8) : KgBuffer :=
  { dbMemoryCreateBuffer uSize with pvData := data }

@[simp] theorem filledBuffer_pvData (uSize : Nat) (data : List UInt8) :
    (filledBuffer uSize data).pvData = data := rfl

@[simp] theorem filledBuffer_uSize (uSize : Nat) (data : List UInt8) :
    (filledBuffer uSize data).uSize = uSize := rfl

theorem filledBuffer_write (uSize : Nat) (data more : List UInt8) :
    { filledBuffer uSize data with pvData := more } = filledBuffer uSize more := rfl

/-- The buffer in which a whole packet is handed out. -/
def wholeBuffer (frame : List UInt8) : KgBuffer := filledBuffer frame.length frame

namespace KNetPackage

/-! ## The state of the assembler as the bytes of the unfinished packet

All that the assembler remembers is the beginning of a packet, so its steps can be described on lists of bytes.
-/

/-- The bytes of the current packet received so far: in `m_szRemain` while the length prefix is
incomplete, in the buffer afterwards. -/
def received (p : KNetPackage) : List UInt8 :=
  if p.uRecvOffset < kdPackageLenSize then p.szRemain.take p.uRecvOffset
  else (p.pBuffer.map KgBuffer.pvData).getD []

/-- What holds of the assembler between any two statements of the receive loop. -/
structure WellFormed (p : KNetPackage) : Prop where
  remain : p.szRemain.length = kdPackageLenSize
  unread : p.uRecvOffset < kdPackageLenSize → p.uPacketLen = kdInvalidPacketLen
  started : kdPackageLenSize ≤ p.uRecvOffset →
    ∃ data, p.pBuffer = some (filledBuffer p.uPacketLen data) ∧ data.length = p.uRecvOffset ∧
      p.uPacketLen = leValue (data.take kdPackageLenSize) ∧
      (p.uRecvOffset = kdPackageLenSize ∨ p.uRecvOffset ≤ p.uPacketLen)

/-- What holds of the assembler between two passes: moreover no whole packet is waiting. -/
structure Idle (p : KNetPackage) : Prop extends WellFormed p where
  notValid : p.uRecvOffset ≠ p.uPacketLen

theorem fresh_idle : Idle fresh where
  remain := rfl
  unread _ := rfl
  started long := absurd long (by decide)
  notValid := by decide

@[simp] theorem received_fresh : received fresh = [] := rfl

theorem received_of_short {p : KNetPackage} (short : p.uRecvOffset < kdPackageLenSize) :
    p.received = p.szRemain.take p.uRecvOffset := by
  simp [received, short]

theorem received_of_buffer {p : KNetPackage} {b : KgBuffer}
    (long : kdPackageLenSize ≤ p.uRecvOffset) (buffer : p.pBuffer = some b) :
    p.received = b.pvData := by
  simp [received, Nat.not_lt.mpr long, buffer]

theorem WellFormed.received_length {p : KNetPackage} (wf : WellFormed p) :
    p.received.length = p.uRecvOffset := by
  by_cases short : p.uRecvOffset < kdPackageLenSize
  · rw [received_of_short short, List.length_take, wf.remain]
    exact Nat.min_eq_left (Nat.le_of_lt short)
  · obtain ⟨data, buffer, length, -⟩ := wf.started (Nat.not_lt.mp short)
    rw [received_of_buffer (Nat.not_lt.mp short) buffer]
    exact length

/-- Once the prefix is there, the packet length is the one it declares, whatever follows. -/
theorem WellFormed.declared {p : KNetPackage} (wf : WellFormed p)
    (long : kdPackageLenSize ≤ p.uRecvOffset) (more : List UInt8) :
    leValue ((p.received ++ more).take kdPackageLenSize) = p.uPacketLen := by
  obtain ⟨data, buffer, length, declares, -⟩ := wf.started long
  have bytes : p.received = data := received_of_buffer long buffer
  rw [bytes, List.take_append_of_le_length (by omega : kdPackageLenSize ≤ data.length), declares]

/-- A packet is whole when its prefix says so. -/
theorem WellFormed.isValid_iff {p : KNetPackage} (wf : WellFormed p) :
    p.isValid = true ↔ netFrame.Complete p.received := by
  rw [netFrame_complete_iff, wf.received_length, isValid, beq_iff_eq]
  by_cases short : p.uRecvOffset < kdPackageLenSize
  · have invalid := wf.unread short
    simp only [kdPackageLenSize, kdInvalidPacketLen] at short invalid ⊢
    omega
  · have long := Nat.not_lt.mp short
    have declares : leValue (p.received.take kdPackageLenSize) = p.uPacketLen := by
      simpa using wf.declared long []
    rw [declares]
    constructor
    · intro valid
      exact ⟨long, valid.symm⟩
    · intro complete
      exact complete.2.symm

/-! ## The length prefix

The loop that reads the prefix, turn by turn.
-/

private theorem take_succ_set {bytes : List UInt8} {i : Nat} (inside : i < bytes.length)
    (b : UInt8) : (bytes.set i b).take (i + 1) = bytes.take i ++ [b] := by
  rw [List.take_succ_eq_append_getElem (by simpa using inside), List.take_set_of_le (Nat.le_refl i)]
  simp

/-- One byte of the length prefix is one byte received. -/
theorem storePrefixByte_spec {p : KNetPackage} (wf : WellFormed p)
    (short : p.uRecvOffset < kdPackageLenSize) (b : UInt8) :
    WellFormed (p.storePrefixByte b) ∧ (p.storePrefixByte b).received = p.received ++ [b] ∧
      (p.storePrefixByte b).uRecvOffset = p.uRecvOffset + 1 := by
  have bytes : (p.szRemain.set p.uRecvOffset b).take (p.uRecvOffset + 1) =
      p.szRemain.take p.uRecvOffset ++ [b] :=
    take_succ_set (by rw [wf.remain]; exact short) b
  by_cases last : p.uRecvOffset + 1 = kdPackageLenSize
  · -- the fourth byte: the prefix is copied to the front of the new buffer
    have prefixBytes : leBytes kdPackageUintSize (leValue (p.szRemain.set p.uRecvOffset b)) =
        p.szRemain.set p.uRecvOffset b := by
      have width : (p.szRemain.set p.uRecvOffset b).length = kdPackageUintSize := by
        rw [List.length_set, wf.remain]
        rfl
      rw [← width, leBytes_leValue]
    have whole : p.szRemain.set p.uRecvOffset b = p.szRemain.take p.uRecvOffset ++ [b] := by
      rw [← bytes, last, List.take_of_length_le (by simp [wf.remain])]
    have stored : p.storePrefixByte b =
        { p with
          szRemain := p.szRemain.set p.uRecvOffset b
          uRecvOffset := p.uRecvOffset + 1
          uPacketLen := leValue (p.szRemain.set p.uRecvOffset b)
          pBuffer := some
            (filledBuffer (leValue (p.szRemain.set p.uRecvOffset b))
              (p.szRemain.set p.uRecvOffset b)) } := by
      simp [storePrefixByte, last, initPackage, memcpyAt, prefixBytes, filledBuffer]
    rw [stored]
    refine ⟨⟨by simpa using wf.remain, ?_, ?_⟩, ?_, rfl⟩
    · intro stillShort
      exact absurd stillShort (by simp [last])
    · intro _
      refine ⟨p.szRemain.set p.uRecvOffset b, rfl, ?_, ?_, Or.inl last⟩
      · simpa [wf.remain] using last.symm
      · rw [List.take_of_length_le (by simp [wf.remain])]
    · rw [received_of_short short, ← whole, received, if_neg (by simp [last])]
      rfl
  · have stored : p.storePrefixByte b =
        { p with
          szRemain := p.szRemain.set p.uRecvOffset b
          uRecvOffset := p.uRecvOffset + 1 } := by
      simp [storePrefixByte, last]
    have stillShort : p.uRecvOffset + 1 < kdPackageLenSize := by omega
    rw [stored]
    refine ⟨⟨by simpa using wf.remain, fun _ => wf.unread short, ?_⟩, ?_, rfl⟩
    · intro long
      exact absurd long (Nat.not_le.mpr stillShort)
    · rw [received_of_short short, ← bytes]
      exact received_of_short stillShort

/-- The bytes of the length prefix, one after another. -/
theorem storePrefix_spec {bytes : List UInt8} {p : KNetPackage} (wf : WellFormed p)
    (room : p.uRecvOffset + bytes.length ≤ kdPackageLenSize) :
    WellFormed (bytes.foldl storePrefixByte p) ∧
      (bytes.foldl storePrefixByte p).received = p.received ++ bytes ∧
      (bytes.foldl storePrefixByte p).uRecvOffset = p.uRecvOffset + bytes.length := by
  induction bytes generalizing p with
  | nil => simpa using wf
  | cons b bytes ih =>
      rw [List.length_cons] at room
      obtain ⟨wfHead, receivedHead, offsetHead⟩ := storePrefixByte_spec wf (by omega) b
      obtain ⟨wfTail, receivedTail, offsetTail⟩ := ih wfHead (by omega)
      refine ⟨wfTail, ?_, ?_⟩
      · rw [List.foldl_cons, receivedTail, receivedHead, List.append_assoc, List.singleton_append]
      · rw [List.foldl_cons, offsetTail, offsetHead, List.length_cons]
        omega

/-- How many turns the prefix loop makes: all of them, unless the data length is reached before. -/
def prefixTurns (uDataLen turns uCurWriteLen : Nat) : Nat :=
  if uCurWriteLen < uDataLen then min turns (uDataLen - uCurWriteLen) else turns

/-- The prefix loop stores the first bytes of the data one by one. -/
theorem readPrefix_eq {uDataLen turns : Nat} {p : KNetPackage} {pData : List UInt8}
    {uCurWriteLen : Nat} (enough : prefixTurns uDataLen turns uCurWriteLen ≤ pData.length) :
    readPrefix uDataLen turns p pData uCurWriteLen =
      let k := prefixTurns uDataLen turns uCurWriteLen
      ⟨(pData.take k).foldl storePrefixByte p, pData.drop k, uCurWriteLen + k,
        uCurWriteLen + k == uDataLen⟩ := by
  induction turns generalizing p pData uCurWriteLen with
  | zero =>
      have none : prefixTurns uDataLen 0 uCurWriteLen = 0 := by simp [prefixTurns]
      simp [readPrefix, none]
  | succ turns ih =>
      have positive : 0 < prefixTurns uDataLen (turns + 1) uCurWriteLen := by
        unfold prefixTurns
        split <;> omega
      cases pData with
      | nil =>
          rw [List.length_nil] at enough
          omega
      | cons b pData =>
          by_cases last : uCurWriteLen + 1 = uDataLen
          · have one : prefixTurns uDataLen (turns + 1) uCurWriteLen = 1 := by
              unfold prefixTurns
              split <;> omega
            simp [readPrefix, last, one]
          · have next : prefixTurns uDataLen (turns + 1) uCurWriteLen =
                prefixTurns uDataLen turns (uCurWriteLen + 1) + 1 := by
              unfold prefixTurns
              split <;> split <;> omega
            rw [next, List.length_cons] at enough
            simp only [readPrefix, last, if_false, next, List.take_succ_cons, List.foldl_cons,
              List.drop_succ_cons]
            rw [ih (by omega)]
            simp [Nat.add_assoc, Nat.add_comm 1]

/-! ## The body

What is written behind the prefix.
-/

/-- Appending to the buffer of an unfinished packet. -/
theorem writeData_spec {p : KNetPackage} (wf : WellFormed p) (bytes : List UInt8)
    (long : kdPackageLenSize ≤ p.uRecvOffset)
    (room : p.uRecvOffset + bytes.length ≤ p.uPacketLen) :
    WellFormed (p.writeData bytes) ∧ (p.writeData bytes).received = p.received ++ bytes := by
  obtain ⟨data, buffer, length, declares, -⟩ := wf.started long
  have appended : memcpyAt data p.uRecvOffset bytes = data ++ bytes := by
    rw [memcpyAt, ← length, List.take_length, List.drop_eq_nil_of_le (by omega), List.append_nil]
  have written : (p.writeData bytes).pBuffer = some (filledBuffer p.uPacketLen (data ++ bytes)) := by
    simp only [writeData, buffer, Option.map_some, filledBuffer_pvData, appended, filledBuffer_write]
  have stillLong : kdPackageLenSize ≤ p.uRecvOffset + bytes.length := by omega
  refine ⟨⟨wf.remain, ?_, ?_⟩, ?_⟩
  · intro short
    exact absurd short (Nat.not_lt.mpr stillLong)
  · intro _
    refine ⟨data ++ bytes, written, ?_, ?_, Or.inr room⟩
    · simp only [List.length_append, length, writeData]
    · rw [List.take_append_of_le_length (by omega : kdPackageLenSize ≤ data.length)]
      exact declares
  · rw [received_of_buffer (p := p.writeData bytes) stillLong written,
      received_of_buffer long buffer, filledBuffer_pvData, filledBuffer_pvData]

theorem writeData_nil {p : KNetPackage} (wf : WellFormed p)
    (long : kdPackageLenSize ≤ p.uRecvOffset) : p.writeData [] = p := by
  obtain ⟨data, buffer, -⟩ := wf.started long
  have same : memcpyAt data p.uRecvOffset [] = data := by simp [memcpyAt]
  have bufferSame : (p.writeData []).pBuffer = p.pBuffer := by
    simp only [writeData, buffer, Option.map_some, filledBuffer_pvData, same, filledBuffer_write]
  cases p
  exact congrArg (KNetPackage.mk _ _ _) bufferSame

/-- `writeBody` appends as much as is there and still belongs to the packet. -/
theorem writeBody_spec {p : KNetPackage} (wf : WellFormed p) (pData : List UInt8)
    {uDataLen uCurWriteLen n : Nat} (long : kdPackageLenSize ≤ p.uRecvOffset)
    (unfinished : p.uRecvOffset < p.uPacketLen)
    (size : min (uintSub uDataLen uCurWriteLen) (p.uPacketLen - p.uRecvOffset) = n)
    (available : n ≤ pData.length) :
    ∃ q, p.writeBody pData uDataLen uCurWriteLen = (q, uCurWriteLen + n) ∧ WellFormed q ∧
      q.received = p.received ++ pData.take n := by
  have taken : (pData.take n).length = n := by simpa using available
  obtain ⟨wfWritten, receivedWritten⟩ := writeData_spec wf (pData.take n) long (by omega)
  refine ⟨p.writeData (pData.take n), ?_, wfWritten, receivedWritten⟩
  rw [writeBody, if_pos unfinished, size]

end KNetPackage

/-! ## Where `Write` makes no progress

A prefix that declares less than what was received, or a chunk whose length is 0 as an `unsigned int`, lets `Write`
take nothing.
-/

/-- `Write` takes nothing when `acc` was received of the packet and `n` bytes are offered: the prefix
is there and declares less than what was received, or a body is awaited and the offered length is 0
as an `unsigned int`. -/
def Stalled (acc : List UInt8) (n : Nat) : Prop :=
  kdPackageLenSize ≤ acc.length ∧
    (leValue (acc.take kdPackageLenSize) < acc.length ∨ n % 2 ^ 32 = 0)

instance (acc : List UInt8) (n : Nat) : Decidable (Stalled acc n) :=
  inferInstanceAs (Decidable (_ ∧ _))

theorem not_stalled_of_short {acc : List UInt8} (short : acc.length < kdPackageLenSize) (n : Nat) :
    ¬ Stalled acc n := fun stalled => absurd stalled.1 (Nat.not_le.mpr short)

namespace KNetPackage

/-- A stalled assembler stays as it is and reports zero bytes. -/
theorem write_of_stalled {p : KNetPackage} (idle : Idle p) {pData : List UInt8}
    (stalled : Stalled p.received pData.length) :
    p.write pData (pData.length % 2 ^ 32) = (p, 0) := by
  obtain ⟨long, reason⟩ := stalled
  have offset := idle.received_length
  rw [offset] at long reason
  have declares : leValue (p.received.take kdPackageLenSize) = p.uPacketLen := by
    simpa using idle.declared long []
  have unfolded : p.write pData (pData.length % 2 ^ 32) =
      p.writeBody pData (pData.length % 2 ^ 32) 0 := by
    rw [write, if_neg (Ne.symm idle.notValid), if_neg (Nat.not_lt.mpr long)]
  rw [declares] at reason
  rw [unfolded, writeBody]
  rcases reason with less | zero
  · rw [if_neg (by omega)]
  · by_cases unfinished : p.uRecvOffset < p.uPacketLen
    · -- the offered length is 0, so `_WriteData` copies nothing
      have offered : uintSub 0 0 = 0 := rfl
      simp only [if_pos unfinished, zero, offered, Nat.zero_min, List.take_zero, Nat.add_zero,
        writeData_nil idle.toWellFormed long]
    · rw [if_neg unfinished]

/-- What a call of `Write` that makes progress does: it takes the first `n` bytes of the data, and no
packet ends and no stall begins before the last of them. -/
structure Takes (p : KNetPackage) (pData : List UInt8) (q : KNetPackage) (n : Nat) : Prop where
  positive : 0 < n
  bound : n ≤ pData.length
  wellFormed : WellFormed q
  bytes : q.received = p.received ++ pData.take n
  inner : ∀ j, 0 < j → j < n →
    ¬ netFrame.Complete (p.received ++ pData.take j) ∧
      ¬ Stalled (p.received ++ pData.take j) (pData.length - j)

/-- Bytes that stay inside the length prefix end no packet and begin no stall. -/
private theorem inner_of_short {p : KNetPackage} (wf : WellFormed p) {pData : List UInt8} {k : Nat}
    (room : p.uRecvOffset + k ≤ kdPackageLenSize) (j : Nat) (before : j < k) :
    ¬ netFrame.Complete (p.received ++ pData.take j) ∧
      ¬ Stalled (p.received ++ pData.take j) (pData.length - j) := by
  have short : (p.received ++ pData.take j).length < kdPackageLenSize := by
    rw [List.length_append, wf.received_length, List.length_take]
    omega
  exact ⟨fun complete => absurd complete.1 (Nat.not_le.mpr short), not_stalled_of_short short _⟩

/-- Bytes of the body before its last one end no packet, and begin no stall while less than the
offered `unsigned int` length is taken. -/
private theorem inner_of_body {acc : List UInt8} {uPacketLen rest : Nat}
    (declares : leValue (acc.take kdPackageLenSize) = uPacketLen) (before : acc.length < uPacketLen)
    (offered : rest % 2 ^ 32 ≠ 0) : ¬ netFrame.Complete acc ∧ ¬ Stalled acc rest := by
  rw [netFrame_complete_iff, Stalled, declares]
  omega

/-- `Write` in the body of a packet. -/
private theorem write_body_takes {p : KNetPackage} (idle : Idle p) {pData : List UInt8}
    (long : kdPackageLenSize ≤ p.uRecvOffset) (free : ¬ Stalled p.received pData.length) :
    ∃ q n, p.write pData (pData.length % 2 ^ 32) = (q, n) ∧ Takes p pData q n := by
  have declares : ∀ more, leValue ((p.received ++ more).take kdPackageLenSize) = p.uPacketLen :=
    fun more => idle.declared long more
  have unfinished : p.uRecvOffset < p.uPacketLen ∧ pData.length % 2 ^ 32 ≠ 0 := by
    have declaresHere : leValue (p.received.take kdPackageLenSize) = p.uPacketLen := by
      simpa using declares []
    have notValid := idle.notValid
    rw [Stalled, idle.received_length, declaresHere] at free
    omega
  have offered : uintSub (pData.length % 2 ^ 32) 0 = pData.length % 2 ^ 32 :=
    uintSub_of_le (Nat.zero_le _) (Nat.mod_lt _ (by norm_num))
  generalize size : min (pData.length % 2 ^ 32) (p.uPacketLen - p.uRecvOffset) = n
  have bound : n ≤ pData.length := by omega
  obtain ⟨q, bodyEq, wfBody, receivedBody⟩ :=
    writeBody_spec idle.toWellFormed pData long unfinished.1 (offered ▸ size) bound
  rw [Nat.zero_add] at bodyEq
  refine ⟨q, n, ?_, by omega, bound, wfBody, receivedBody, ?_⟩
  · rw [write, if_neg (Ne.symm idle.notValid), if_neg (Nat.not_lt.mpr long), bodyEq]
  · intro j positive before
    refine inner_of_body (declares _) ?_ (by omega)
    rw [List.length_append, idle.received_length, List.length_take]
    omega

/-- `Write` in the length prefix of a packet, and in its body when the data reaches it. -/
private theorem write_prefix_takes {p : KNetPackage} (idle : Idle p) {pData : List UInt8}
    (nonempty : pData ≠ []) (short : p.uRecvOffset < kdPackageLenSize) :
    ∃ q n, p.write pData (pData.length % 2 ^ 32) = (q, n) ∧ Takes p pData q n := by
  have four : kdPackageLenSize = 4 := rfl
  have dataPos : 0 < pData.length := List.length_pos_of_ne_nil nonempty
  -- the prefix loop runs for `k` turns
  generalize turnsEq : prefixTurns (pData.length % 2 ^ 32) (kdPackageLenSize - p.uRecvOffset) 0 = k
  have turns : k = if 0 < pData.length % 2 ^ 32 then
      min (kdPackageLenSize - p.uRecvOffset) (pData.length % 2 ^ 32)
      else kdPackageLenSize - p.uRecvOffset := by
    rw [← turnsEq, prefixTurns, Nat.sub_zero]
  have kBound : 0 < k ∧ k ≤ pData.length ∧ p.uRecvOffset + k ≤ kdPackageLenSize := by
    split at turns <;> omega
  have readEq := readPrefix_eq (p := p) (turnsEq ▸ kBound.2.1)
  simp only [turnsEq, Nat.zero_add] at readEq
  have taken : (pData.take k).length = k := by simpa using kBound.2.1
  obtain ⟨wfStored, receivedStored, offsetStored⟩ :=
    storePrefix_spec idle.toWellFormed (by omega : p.uRecvOffset + (pData.take k).length ≤ _)
  generalize (pData.take k).foldl storePrefixByte p = stored at *
  have prefixTakes : Takes p pData stored k :=
    ⟨kBound.1, kBound.2.1, wfStored, receivedStored,
      fun j _ before => inner_of_short idle.toWellFormed kBound.2.2 j before⟩
  have writeEq : p.write pData (pData.length % 2 ^ 32) =
      if k = pData.length % 2 ^ 32 then (stored, k)
      else stored.writeBody (pData.drop k) (pData.length % 2 ^ 32) k := by
    rw [write, if_neg (Ne.symm idle.notValid), if_pos short, readEq]
    simp only [beq_iff_eq]
  by_cases exit1 : k = pData.length % 2 ^ 32
  · exact ⟨stored, k, by rw [writeEq, if_pos exit1], prefixTakes⟩
  rw [if_neg exit1] at writeEq
  -- the whole prefix was read and data is left
  have storedLong : kdPackageLenSize ≤ stored.uRecvOffset := by
    split at turns <;> omega
  by_cases unfinished : stored.uRecvOffset < stored.uPacketLen
  · have offered : uintSub (pData.length % 2 ^ 32) k =
        if 0 < pData.length % 2 ^ 32 then pData.length % 2 ^ 32 - k else 2 ^ 32 - k := by
      split at turns
      · rename_i some
        rw [if_pos some, uintSub_of_le (by omega) (Nat.mod_lt _ (by norm_num))]
      · rename_i none
        rw [if_neg none, Nat.eq_zero_of_not_pos none, uintSub_zero_left kBound.1 (by omega)]
    generalize size : min (uintSub (pData.length % 2 ^ 32) k)
      (stored.uPacketLen - stored.uRecvOffset) = n
    rw [offered] at size
    have bound : k + n ≤ pData.length := by
      split at turns <;> split at size <;> omega
    obtain ⟨q, bodyEq, wfBody, receivedBody⟩ :=
      writeBody_spec wfStored (pData.drop k) storedLong unfinished (offered ▸ size)
        (by rw [List.length_drop]; omega)
    refine ⟨q, k + n, writeEq.trans bodyEq, by omega, bound, wfBody, ?_, ?_⟩
    · rw [receivedBody, receivedStored, List.append_assoc, ← List.take_add]
    · intro j _ before
      by_cases inPrefix : j < k
      · exact inner_of_short idle.toWellFormed kBound.2.2 j inPrefix
      · have cut : p.received ++ pData.take j =
            stored.received ++ (pData.drop k).take (j - k) := by
          rw [receivedStored, List.append_assoc, ← List.take_add,
            Nat.add_sub_cancel' (by omega : k ≤ j)]
        have declares : leValue ((p.received ++ pData.take j).take kdPackageLenSize) =
            stored.uPacketLen := by
          rw [cut]
          exact wfStored.declared storedLong _
        refine inner_of_body declares ?_ ?_
        · rw [List.length_append, idle.received_length, List.length_take]
          omega
        · split at turns <;> split at size <;> omega
  · rw [writeBody, if_neg unfinished] at writeEq
    exact ⟨stored, k, writeEq, prefixTakes⟩

/-- `Write` on data that does not stall. -/
theorem write_spec {p : KNetPackage} (idle : Idle p) {pData : List UInt8} (nonempty : pData ≠ [])
    (free : ¬ Stalled p.received pData.length) :
    ∃ q n, p.write pData (pData.length % 2 ^ 32) = (q, n) ∧ Takes p pData q n := by
  by_cases short : p.uRecvOffset < kdPackageLenSize
  · exact write_prefix_takes idle nonempty short
  · exact write_body_takes idle (Nat.not_lt.mp short) free

/-! ## One pass of the receive loop

A pass takes bytes up to the end of a packet, and hands it out.
-/

/-- A whole packet is handed out as the bytes received. -/
theorem WellFormed.getData_of_complete {p : KNetPackage} (wf : WellFormed p)
    (complete : netFrame.Complete p.received) : p.getData = some (wholeBuffer p.received) := by
  have valid : p.isValid = true := wf.isValid_iff.mpr complete
  have offset : p.uRecvOffset = p.uPacketLen := by simpa [isValid] using valid
  have long : kdPackageLenSize ≤ p.uRecvOffset := by
    rw [← wf.received_length]
    exact complete.1
  obtain ⟨data, buffer, length, -⟩ := wf.started long
  have bytes : p.received = data := received_of_buffer long buffer
  rw [getData, if_pos valid, buffer, bytes, wholeBuffer, length, offset]

theorem WellFormed.reset_idle {p : KNetPackage} (wf : WellFormed p) : Idle p.reset where
  remain := wf.remain
  unread _ := rfl
  started long := absurd long (by simp [reset, kdPackageLenSize])
  notValid := by simp [reset, kdInvalidPacketLen]

@[simp] theorem received_reset (p : KNetPackage) : p.reset.received = [] := by
  simp [received, reset, kdPackageLenSize]

end KNetPackage

section Loop

variable {ε : Type*} (onPacket : KgBuffer → List ε)

open KNetPackage

/-- What the packet handler does on the packets a stretch of data completes. -/
def eventsOf (acc pData : List UInt8) : List ε :=
  (netFrame.feed acc pData).2.flatMap fun frame => onPacket (wholeBuffer frame)

@[simp] theorem eventsOf_nil (acc : List UInt8) : eventsOf onPacket acc [] = [] := rfl

/-- The packets of the second part are completed by what the first has left. -/
theorem eventsOf_append (acc xs ys : List UInt8) :
    eventsOf onPacket acc (xs ++ ys) =
      eventsOf onPacket acc xs ++ eventsOf onPacket (netFrame.feed acc xs).1 ys := by
  simp [eventsOf, netFrame.feed_append]

theorem recvPass_of_stalled {p : KNetPackage} (idle : Idle p) {pData : List UInt8}
    (stalled : Stalled p.received pData.length) :
    recvPass onPacket p pData = ⟨p, pData, [], false⟩ := by
  have notValid : ¬ p.isValid = true := by simpa [isValid] using idle.notValid
  rw [recvPass, write_of_stalled idle stalled]
  simp [notValid]

/-- A pass that does not stall feeds the first `n` bytes of the data to the assembler. -/
theorem recvPass_spec {p : KNetPackage} (idle : Idle p) {pData : List UInt8} (nonempty : pData ≠ [])
    (free : ¬ Stalled p.received pData.length) :
    ∃ q n, recvPass onPacket p pData =
        ⟨q, pData.drop n, eventsOf onPacket p.received (pData.take n), false⟩ ∧
      0 < n ∧ n ≤ pData.length ∧ Idle q ∧
      q.received = (netFrame.feed p.received (pData.take n)).1 ∧
      ∀ j, j < n → ¬ Stalled (netFrame.feed p.received (pData.take j)).1 (pData.length - j) := by
  obtain ⟨q, n, writeEq, takes⟩ := write_spec idle nonempty free
  have length : (pData.take n).length = n := by simpa using takes.bound
  have quiet : ∀ j, 0 < j → j < n → ¬ netFrame.Complete (p.received ++ (pData.take n).take j) := by
    intro j positive before
    rw [List.take_take, Nat.min_eq_left (Nat.le_of_lt before)]
    exact (takes.inner j positive before).1
  have noStall : ∀ j, j < n →
      ¬ Stalled (netFrame.feed p.received (pData.take j)).1 (pData.length - j) := by
    intro j before
    rcases Nat.eq_zero_or_pos j with rfl | positive
    · simpa using free
    · have held : netFrame.feed p.received (pData.take j) = (p.received ++ pData.take j, []) := by
        refine netFrame.feed_of_partial fun i iPos iLe => ?_
        have iBound : i ≤ j := by
          rw [List.length_take] at iLe
          omega
        rw [List.take_take, Nat.min_eq_left iBound]
        exact (takes.inner i iPos (by omega)).1
      rw [held]
      exact (takes.inner j positive before).2
  by_cases complete : netFrame.Complete q.received
  · have fed : netFrame.feed p.received (pData.take n) = ([], [p.received ++ pData.take n]) := by
      refine netFrame.feed_of_complete ?_ ?_ (takes.bytes ▸ complete)
      · exact List.ne_nil_of_length_pos (by rw [length]; exact takes.positive)
      · rw [length]
        exact quiet
    refine ⟨q.reset, n, ?_, takes.positive, takes.bound, takes.wellFormed.reset_idle, ?_, noStall⟩
    · have data := takes.wellFormed.getData_of_complete complete
      rw [recvPass, writeEq]
      simp [takes.wellFormed.isValid_iff.mpr complete, data, eventsOf, fed, takes.bytes]
    · rw [fed, received_reset]
  · have fed : netFrame.feed p.received (pData.take n) = (p.received ++ pData.take n, []) := by
      refine netFrame.feed_of_partial fun j positive le => ?_
      rw [length] at le
      rcases Nat.lt_or_eq_of_le le with before | rfl
      · exact quiet j positive before
      · rw [List.take_take, Nat.min_self, ← takes.bytes]
        exact complete
    have notValid : ¬ q.isValid = true := fun valid =>
      complete (takes.wellFormed.isValid_iff.mp valid)
    refine ⟨q, n, ?_, takes.positive, takes.bound, ⟨takes.wellFormed, ?_⟩, ?_, noStall⟩
    · rw [recvPass, writeEq]
      simp [notValid, eventsOf, fed]
    · simpa [isValid] using notValid
    · rw [fed, takes.bytes]

/-! ## The loop

As many passes as there are bytes are enough, unless the assembler stalls.
-/

/-- Somewhere in the data, with at least one byte still to come, the assembler would stall. -/
def StallsIn (acc pData : List UInt8) : Prop :=
  ∃ j, j < pData.length ∧ Stalled (netFrame.feed acc (pData.take j)).1 (pData.length - j)

instance (acc pData : List UInt8) : Decidable (StallsIn acc pData) :=
  inferInstanceAs (Decidable (∃ j, j < pData.length ∧ _))

theorem StallsIn.ne_nil {acc pData : List UInt8} (stalls : StallsIn acc pData) : pData ≠ [] := by
  obtain ⟨j, inside, -⟩ := stalls
  exact List.ne_nil_of_length_pos (Nat.zero_lt_of_lt inside)

theorem stallsIn_of_stalled {acc pData : List UInt8} (nonempty : pData ≠ [])
    (stalled : Stalled acc pData.length) : StallsIn acc pData :=
  ⟨0, List.length_pos_of_ne_nil nonempty, by simpa using stalled⟩

/-- Data that was taken without a stall can be left out of the question. -/
theorem stallsIn_iff_drop {acc pData : List UInt8} {n : Nat} (bound : n ≤ pData.length)
    (noStall : ∀ j, j < n →
      ¬ Stalled (netFrame.feed acc (pData.take j)).1 (pData.length - j)) :
    StallsIn acc pData ↔ StallsIn (netFrame.feed acc (pData.take n)).1 (pData.drop n) := by
  have later : ∀ j, (netFrame.feed acc (pData.take (n + j))).1 =
      (netFrame.feed (netFrame.feed acc (pData.take n)).1 ((pData.drop n).take j)).1 := by
    intro j
    rw [List.take_add, netFrame.feed_append]
  constructor
  · rintro ⟨j, inside, stalled⟩
    have past : n ≤ j := Nat.le_of_not_lt fun before => noStall j before stalled
    obtain ⟨i, rfl⟩ := Nat.exists_eq_add_of_le past
    refine ⟨i, by rw [List.length_drop]; omega, ?_⟩
    rwa [← later, List.length_drop, Nat.sub_sub]
  · rintro ⟨i, inside, stalled⟩
    rw [List.length_drop] at inside stalled
    exact ⟨n + i, by omega, by rwa [later, ← Nat.sub_sub]⟩

/-- Whether the loop goes on after a pass. -/
def PassResult.continues (r : PassResult ε) : Bool := !r.exit0 && !r.pData.isEmpty

theorem recvLoop_succ (passes : Nat) (p : KNetPackage) (pData : List UInt8) :
    recvLoop onPacket (passes + 1) p pData =
      let r := recvPass onPacket p pData
      if r.continues then
        (recvLoop onPacket passes r.pkg r.pData).map fun rest => (rest.1, r.events ++ rest.2)
      else some (r.pkg, r.events) := by
  simp only [recvLoop, PassResult.continues]
  cases recvPass onPacket p pData with
  | mk pkg rest events exit0 => cases exit0 <;> cases rest <;> rfl

/-- Data with a stall in it keeps the loop running for ever. -/
theorem recvLoop_eq_none {p : KNetPackage} (idle : Idle p) {pData : List UInt8}
    (stalls : StallsIn p.received pData) (passes : Nat) :
    recvLoop onPacket passes p pData = none := by
  induction passes generalizing p pData with
  | zero => rfl
  | succ passes ih =>
      have nonempty := stalls.ne_nil
      rw [recvLoop_succ]
      by_cases stalled : Stalled p.received pData.length
      · -- the pass changes nothing
        simp [recvPass_of_stalled onPacket idle stalled, PassResult.continues, nonempty,
          ih idle stalls]
      · obtain ⟨q, n, passEq, -, bound, idleNext, held, noStall⟩ :=
          recvPass_spec onPacket idle nonempty stalled
        have stallsNext : StallsIn q.received (pData.drop n) := by
          rw [held]
          exact (stallsIn_iff_drop bound noStall).mp stalls
        have more := stallsNext.ne_nil
        simp [passEq, PassResult.continues, more, ih idleNext stallsNext]

/-- Data without a stall: the loop ends and has handed out the packets of the stream. -/
theorem recvLoop_spec {p : KNetPackage} (idle : Idle p) {pData : List UInt8} (nonempty : pData ≠ [])
    (free : ¬ StallsIn p.received pData) {passes : Nat} (enough : pData.length ≤ passes) :
    ∃ q, recvLoop onPacket passes p pData = some (q, eventsOf onPacket p.received pData) ∧
      Idle q ∧ q.received = (netFrame.feed p.received pData).1 := by
  induction passes generalizing p pData with
  | zero => exact absurd (List.length_pos_of_ne_nil nonempty) (by omega)
  | succ passes ih =>
      have freeHere : ¬ Stalled p.received pData.length :=
        fun stalled => free (stallsIn_of_stalled nonempty stalled)
      obtain ⟨q, n, passEq, positive, bound, idleNext, held, noStall⟩ :=
        recvPass_spec onPacket idle nonempty freeHere
      rw [recvLoop_succ]
      by_cases last : pData.drop n = []
      · have whole : pData.take n = pData :=
          List.take_of_length_le (List.drop_eq_nil_iff.mp last)
        rw [whole] at passEq held
        exact ⟨q, by simp [passEq, PassResult.continues, last], idleNext, held⟩
      · have freeNext : ¬ StallsIn q.received (pData.drop n) := by
          rw [held, ← stallsIn_iff_drop bound noStall]
          exact free
        obtain ⟨t, loopEq, idleEnd, heldEnd⟩ :=
          ih idleNext last freeNext (by rw [List.length_drop]; omega)
        have cut : pData = pData.take n ++ pData.drop n := (List.take_append_drop n pData).symm
        refine ⟨t, ?_, idleEnd, ?_⟩
        · have events : eventsOf onPacket p.received pData =
              eventsOf onPacket p.received (pData.take n) ++
                eventsOf onPacket q.received (pData.drop n) := by
            rw [held, ← eventsOf_append, ← cut]
          simp [passEq, PassResult.continues, last, loopEq, events]
        · rw [heldEnd, held]
          conv_rhs => rw [cut, netFrame.feed_append]

end Loop

end GameServer.Net
