/-
Module: GameServer.Net.DisconnectNotice
Purpose: The notice of a lost connection that the gateway sends to the logic server: the text and the array it is
  written to, the packet around it, and the call the logic server makes for it.
Trusted boundary: `SerializeToString` and `ParseFromArray` are parameters; text behind the end of the array reaches the
  message nevertheless
Main exports: noticeText, notifyUserSocketDisconnect, noticeText_fits_iff, onPacket_notice
-/
import Mathlib.Data.List.TakeWhile
import GameServer.Net.ClientRouting
import GameServer.Net.Reassembly

namespace GameServer.Net

/-! ## Gateway

The text of a notice is written into an array that has room for the format, not for every number.
-/

/-- What `%d` prints of an `unsigned int`. -/
def asInt (uHandlerId : UInt32) : Int :=
  if uHandlerId.toNat < 2 ^ 31 then uHandlerId.toNat else uHandlerId.toNat - 2 ^ 32

/-- The characters of an integer. -/
def decimal (n : Int) : List Char := if n < 0 then '-' :: (-n).toNat.repr.toList else n.toNat.repr.toList

/-- The bytes of characters. -/
def charBytes (text : List Char) : List UInt8 := text.map fun c => UInt8.ofNat c.toNat

/-- A list of one number in JSON. -/
def oneElement (n : Int) : List UInt8 := charBytes ('[' :: (decimal n ++ [']']))

/-- The text that `sprintf` writes, without its terminator. -/
def noticeText (uHandlerId : UInt32) : List UInt8 := oneElement (asInt uHandlerId)

/-- `sizeof("[%d]")`, the size of the array. -/
def sizeofNotice : Nat := "[%d]".length + 1

/-- The text and its terminator are in the array. -/
def FitsArray (uHandlerId : UInt32) : Prop := (noticeText uHandlerId).length + 1 ≤ sizeofNotice

def uUserDisconnect : UInt32 := 4001

section Notice

-- `Message::SerializeToString` of a message with the field `data`
variable (serializeToString : List UInt8 → List UInt8)

/-- The packet of the notice: its handler id, error code and sequence id are 0. -/
def noticePacket (uHandlerId : UInt32) : List UInt8 :=
  createNetBuffer uUserDisconnect 0 0 2 0 (serializeToString (noticeText uHandlerId))

/-- `NotifyUserSocketDisconnect`, up to the map of handlers. -/
def notifyUserSocketDisconnect {κ : Type*} (clients : GatewayClients κ) (uHandlerId : UInt32) : List (Transfer κ) :=
  notifyLogicServer clients 2 (noticePacket serializeToString uHandlerId)

end Notice

/-! ## The text

How long the text is, and that it ends where the C string ends.
-/

theorem length_noticeText (uHandlerId : UInt32) :
    (noticeText uHandlerId).length = (decimal (asInt uHandlerId)).length + 2 := by
  simp [noticeText, oneElement, charBytes]

/-- There is room for two characters between the brackets: a number up to 99, or one that `%d` prints as a negative
number of one digit. -/
theorem noticeText_fits_iff (uHandlerId : UInt32) :
    FitsArray uHandlerId ↔ uHandlerId.toNat ≤ 99 ∨ 2 ^ 32 - 9 ≤ uHandlerId.toNat := by
  have range := uHandlerId.toNat_lt
  unfold FitsArray sizeofNotice
  rw [length_noticeText]
  change (decimal (asInt uHandlerId)).length + 2 + 1 ≤ 4 + 1 ↔ _
  unfold decimal asInt
  by_cases small : uHandlerId.toNat < 2 ^ 31
  · have digits := Nat.length_toDigits_le_iff (b := 10) (n := uHandlerId.toNat) (k := 2) (by decide) (by decide)
    rw [if_pos small, if_neg (by omega)]
    simp only [Int.toNat_natCast, Nat.toList_repr]
    omega
  · have digits := Nat.length_toDigits_le_iff (b := 10) (n := 2 ^ 32 - uHandlerId.toNat) (k := 1) (by decide) (by decide)
    have negated : (-((uHandlerId.toNat : Int) - 2 ^ 32)).toNat = 2 ^ 32 - uHandlerId.toNat := by omega
    rw [if_neg small, if_pos (by omega), negated]
    simp only [Nat.toList_repr, List.length_cons]
    omega

theorem charByte_ne_zero {c : Char} (positive : 0 < c.toNat) (ascii : c.toNat < 128) : UInt8.ofNat c.toNat ≠ 0 := by
  intro same
  have value := congrArg UInt8.toNat same
  rw [UInt8.toNat_ofNat', Nat.mod_eq_of_lt (by omega)] at value
  exact absurd value (Nat.ne_of_gt positive)

theorem digit_range {k : Nat} {c : Char} (member : c ∈ k.repr.toList) : 0 < c.toNat ∧ c.toNat < 128 := by
  rw [Nat.toList_repr] at member
  have isDigit := Nat.isDigit_of_mem_toDigits (by decide) (by decide) member
  rw [Char.isDigit, Bool.and_eq_true, decide_eq_true_eq, decide_eq_true_eq, ge_iff_le, UInt32.le_iff_toNat_le,
    UInt32.le_iff_toNat_le] at isDigit
  change 48 ≤ c.toNat ∧ c.toNat ≤ 57 at isDigit
  omega

theorem decimal_range {n : Int} {c : Char} (member : c ∈ decimal n) : 0 < c.toNat ∧ c.toNat < 128 := by
  unfold decimal at member
  split at member
  · rcases List.mem_cons.mp member with rfl | digit
    · decide
    · exact digit_range digit
  · exact digit_range member

/-- The text has no terminator in it. -/
theorem cStr_oneElement (n : Int) : cStr (oneElement n) = oneElement n := by
  apply List.takeWhile_eq_self_iff.mpr
  intro b member
  obtain ⟨c, inText, rfl⟩ := List.mem_map.mp member
  have range : 0 < c.toNat ∧ c.toNat < 128 := by
    rcases List.mem_cons.mp inText with rfl | inside
    · decide
    · rcases List.mem_append.mp inside with digit | last
      · exact decimal_range digit
      · rw [List.mem_singleton.mp last]
        decide
  exact decide_eq_true (charByte_ne_zero range.1 range.2)

/-! ## The packet

The logic server reads from the packet what was written into it.
-/

/-- The logic server calls `OnClientRequest` with the connection 0, the event, and the text. -/
theorem onPacket_notice {serializeToString : List UInt8 → List UInt8} {parseFromArray : List UInt8 → Option (List UInt8)}
    (roundTrip : ∀ data, parseFromArray (serializeToString data) = some data) (uHandlerId : UInt32)
    (fits : kdPackageHeaderSize + (serializeToString (noticeText uHandlerId)).length < 2 ^ 32) :
    GameLogicServer.onPacket parseFromArray serverTypeGateway
      (wholeBuffer (noticePacket serializeToString uHandlerId)) =
        [.callLua 0 uUserDisconnect 0 (noticeText uHandlerId)] := by
  let m : NetPackage := ⟨uUserDisconnect, 0, 0, 2, 0, serializeToString (noticeText uHandlerId)⟩
  have read := readPackage_encode (m := m) fits
  have body : parseBody parseFromArray (wholeBuffer (noticePacket serializeToString uHandlerId)) =
      some (noticeText uHandlerId) := by
    change parseFromArray (readPackage m.encode m.encode.length).body = _
    rw [read]
    exact roundTrip _
  have event : getEventType (noticePacket serializeToString uHandlerId) = uUserDisconnect :=
    congrArg NetPackage.uEventType read
  have handler : getHandlerId (noticePacket serializeToString uHandlerId) = 0 := congrArg NetPackage.uHandlerId read
  have sequence : getSequenceId (noticePacket serializeToString uHandlerId) = 0 :=
    congrArg NetPackage.uSequenceId read
  unfold GameLogicServer.onPacket
  rw [body]
  change (if serverTypeGateway = serverTypeLogic ∨ serverTypeGateway = serverTypeGateway then
    [NetEvent.callLua (getHandlerId (noticePacket serializeToString uHandlerId))
      (getEventType (noticePacket serializeToString uHandlerId))
      (getSequenceId (noticePacket serializeToString uHandlerId)) (cStr (noticeText uHandlerId))] else _) = _
  rw [if_pos (Or.inr rfl), event, handler, sequence, noticeText, cStr_oneElement]

end GameServer.Net
