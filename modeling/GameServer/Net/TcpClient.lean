/-
Module: GameServer.Net.TcpClient
Purpose: The bytes that `TCPClient::Write` makes of a message, beside the frames of the receiver.
Trusted boundary: the bytes behind the length variable, which a long copy would read, are any bytes
Main exports: TCPClient.write, SpeaksFraming, write_of_short, speaksFraming_iff
-/
import GameServer.Lib.MemoryBlock
import GameServer.Net.Reassembly

namespace GameServer.Net

open Lib
open KNetPackage (fresh)

namespace TCPClient

/-- `(unsigned int)message.length()`. -/
def uMsgSize (message : List UInt8) : Nat := message.length % 2 ^ 32

def uPacketLen (message : List UInt8) : Nat := (kdPackageUintSize + uMsgSize message) % 2 ^ 32

/-- What a copy of so many bytes from `&uPacketLen` reads: the variable, and what stands behind it. -/
def lengthBytes (behind : Nat → UInt8) (message : List UInt8) : List UInt8 :=
  (leBytes kdPackageUintSize (uPacketLen message) ++ (List.range (uMsgSize message)).map behind).take (uMsgSize message)

/-- The two copies into the buffer; both sizes and the second offset are the size of the message. -/
def copies (behind : Nat → UInt8) (message : List UInt8) : List (Int × List UInt8) :=
  [(0, lengthBytes behind message), (uMsgSize message, message.take (uMsgSize message))]

/-- `Write`: the buffer that is handed to `uv_write`, or none when a copy leaves it. -/
def write (behind : Nat → UInt8) (message : List UInt8) : Option Block :=
  storeAll (List.replicate (uPacketLen message) 0) (copies behind message)

end TCPClient

/-! ## The property

The writer puts a length in front of the message, and the receiver must find the message behind it.
-/

/-- Of a buffer of all the bytes of prefix and message, a prefix with their number and the message are written, and
however they are cut, the receiver completes one packet with the message behind the prefix. -/
structure SpeaksFraming (behind : Nat → UInt8) (message : List UInt8) : Prop where
  allocated : TCPClient.uPacketLen message = kdPackageLenSize + message.length
  written : TCPClient.write behind message =
    some (leBytes kdPackageLenSize (kdPackageLenSize + message.length) ++ message)
  received : ∀ chunks : List (List UInt8),
    chunks.flatten = leBytes kdPackageLenSize (kdPackageLenSize + message.length) ++ message →
      ∃ p pBuffer, processChunks (processNetData fun pBuffer => [pBuffer]) fresh chunks = some (p, [pBuffer]) ∧
        pBuffer.pvData.drop kdPackageLenSize = message

/-- Four bytes, or one to three zero bytes. -/
def FourOrZeros (message : List UInt8) : Prop :=
  message.length = 4 ∨ (1 ≤ message.length ∧ message.length ≤ 3 ∧ ∀ b ∈ message, b = 0)

instance (message : List UInt8) : Decidable (FourOrZeros message) := inferInstanceAs (Decidable (_ ∨ _))

/-! ## The receiver

What any receiver of the protocol makes of the prefix and the message.
-/

/-- A prefix with the length and a message are a frame. -/
theorem prefixed_complete {message : List UInt8} (fits : kdPackageLenSize + message.length < 2 ^ 32) :
    netFrame.Complete (leBytes kdPackageLenSize (kdPackageLenSize + message.length) ++ message) := by
  have front : (leBytes kdPackageLenSize (kdPackageLenSize + message.length)).length = kdPackageLenSize :=
    leBytes_length _ _
  rw [netFrame_complete_iff, List.length_append, front, List.take_append_of_le_length (Nat.le_of_eq front.symm),
    List.take_of_length_le (Nat.le_of_eq front), leValue_leBytes_of_lt fits]
  exact ⟨Nat.le_add_right _ _, rfl⟩

/-- Cut anywhere, a frame is completed once. -/
theorem received_of_prefixed {message : List UInt8} (fits : kdPackageLenSize + message.length < 2 ^ 32)
    {chunks : List (List UInt8)}
    (cut : chunks.flatten = leBytes kdPackageLenSize (kdPackageLenSize + message.length) ++ message) :
    ∃ p pBuffer, processChunks (processNetData fun pBuffer => [pBuffer]) fresh chunks = some (p, [pBuffer]) ∧
      pBuffer.pvData.drop kdPackageLenSize = message := by
  have bound : ∀ chunk ∈ chunks, chunk.length < 2 ^ 32 := by
    intro chunk member
    have part := (List.sublist_flatten_of_mem member).length_le
    rw [cut, List.length_append, leBytes_length] at part
    omega
  have complete : ∀ f ∈ [leBytes kdPackageLenSize (kdPackageLenSize + message.length) ++ message],
      netFrame.Complete f := by
    intro f member
    rw [List.mem_singleton.mp member]
    exact prefixed_complete fits
  obtain ⟨p, returns, -⟩ := processChunks_frames (fun pBuffer => [pBuffer]) complete bound (by simpa using cut)
  refine ⟨p, _, returns, ?_⟩
  rw [wholeBuffer, filledBuffer_pvData]
  exact List.drop_left' (leBytes_length _ _)

/-! ## The writer

The copies stay inside of the buffer only for short messages, and give a whole packet for those that `FourOrZeros`
names.
-/

section Writer

open TCPClient

variable {behind : Nat → UInt8} {message : List UInt8}

theorem TCPClient.uMsgSize_of_lt (fits : message.length < 2 ^ 32) : uMsgSize message = message.length := Nat.mod_eq_of_lt fits

/-- The second copy stays inside only for up to four bytes. -/
theorem short_of_write (allocated : uPacketLen message = kdPackageLenSize + message.length)
    (inside : (write behind message).isSome = true) : message.length ≤ 4 := by
  have small : kdPackageLenSize + message.length < 2 ^ 32 := by
    rw [← allocated]
    exact Nat.mod_lt _ (by decide)
  have size : uMsgSize message = message.length := uMsgSize_of_lt (by omega)
  have bounds := storeAll_isSome_iff.mp inside _ (List.mem_cons_of_mem _ List.mem_cons_self)
  rw [List.length_replicate, allocated, size, List.length_take, Nat.min_self] at bounds
  change message.length = 0 ∨ 0 ≤ (message.length : Int) ∧ (message.length : Int) + message.length ≤ _ at bounds
  have four : kdPackageLenSize = 4 := rfl
  omega

/-- So many bytes of the prefix as the message has, the message, and zeros. -/
theorem write_of_short (short : message.length ≤ 4) :
    write behind message =
      some ((leBytes kdPackageLenSize (kdPackageLenSize + message.length)).take message.length ++ message ++
        List.replicate (4 - message.length) 0) := by
  match message, short with
  | [], _ => rfl
  | [_], _ => rfl
  | [_, _], _ => rfl
  | [_, _, _], _ => rfl
  | [_, _, _, _], _ => rfl

/-- Of up to four bytes, the bytes are a prefix and the message for four, and for fewer when they are zeros. -/
theorem write_right_iff (short : message.length ≤ 4) :
    write behind message = some (leBytes kdPackageLenSize (kdPackageLenSize + message.length) ++ message) ↔
      FourOrZeros message := by
  rw [write_of_short short, Option.some.injEq]
  match message, short with
  | [], _ => decide
  | [a], _ =>
      have bytes : leBytes kdPackageLenSize (kdPackageLenSize + 1) = [5, 0, 0, 0] := by decide
      simp [bytes, FourOrZeros]
      grind
  | [a, b], _ =>
      have bytes : leBytes kdPackageLenSize (kdPackageLenSize + 2) = [6, 0, 0, 0] := by decide
      simp [bytes, FourOrZeros]
      grind
  | [a, b, c], _ =>
      have bytes : leBytes kdPackageLenSize (kdPackageLenSize + 3) = [7, 0, 0, 0] := by decide
      simp [bytes, FourOrZeros]
      grind
  | [a, b, c, d], _ => exact iff_of_true rfl (Or.inl rfl)

end Writer

/-- **Framing.** For every message the bytes are what the receiver takes for one packet with the message exactly when it
has four bytes, or one to three zeros. -/
theorem speaksFraming_iff (behind : Nat → UInt8) (message : List UInt8) :
    SpeaksFraming behind message ↔ FourOrZeros message := by
  constructor
  · intro speaks
    have inside : (TCPClient.write behind message).isSome = true := by
      rw [speaks.written]
      rfl
    exact (write_right_iff (short_of_write speaks.allocated inside)).mp speaks.written
  · intro good
    have short : message.length ≤ 4 := by
      rcases good with four | ⟨-, few, -⟩
      · exact four.le
      · exact few.trans (by decide)
    have fits : kdPackageLenSize + message.length < 2 ^ 32 := by
      have four : kdPackageLenSize = 4 := rfl
      omega
    refine ⟨?_, (write_right_iff short).mpr good, fun chunks cut => received_of_prefixed fits cut⟩
    rw [TCPClient.uPacketLen, TCPClient.uMsgSize_of_lt (by omega)]
    exact Nat.mod_eq_of_lt fits

/-- The message "hello" is written past the end of the buffer. -/
theorem not_speaksFraming_hello : ¬ ∀ behind message, SpeaksFraming behind message := by
  intro all
  have written := (all (fun _ => 0) [104, 101, 108, 108, 111]).written
  have outside : TCPClient.write (fun _ => 0) [104, 101, 108, 108, 111] = none := by decide
  rw [outside] at written
  cases written

end GameServer.Net
