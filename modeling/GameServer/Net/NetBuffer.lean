/-
Module: GameServer.Net.NetBuffer
Purpose: The packet layout of `common/net_buffer.cpp`: `CreateNetBuffer`, the header getters and
  `GetNetPackageBody`, and that the getters give back what the packet was built from.
Trusted boundary: little-endian byte order, as on the targets of the repository
Main exports: NetPackage, createNetBuffer, getEventType, getErrorCode, getHandlerId, getServerId,
  getSequenceId, getNetPackageBody, readPackage_encode
-/
import GameServer.Lib.LittleEndian

namespace GameServer.Net

open Lib

/-! ## Layout constants of `net_buffer.hpp`

The offsets of the header's fields.
-/

def kdPackageUintSize : Nat := 4

def kdPackageUshortSize : Nat := 2

def kdPackageHeaderEventTypeStart : Nat := kdPackageUintSize

def kdPackageHeaderErrorCodeStart : Nat := kdPackageUintSize * 2

def kdPackageHeaderHandlerIdStart : Nat := kdPackageUintSize * 3

def kdPackageHeaderServerIdStart : Nat := kdPackageUintSize * 4

def kdPackageHeaderSequenceIdStart : Nat := kdPackageUintSize * 4 + kdPackageUshortSize

def kdPackageHeaderSize : Nat := kdPackageUintSize * 4 + kdPackageUshortSize * 2

/-- Subtraction of `unsigned int` values. -/
def uintSub (a b : Nat) : Nat := (a + 2 ^ 32 - b) % 2 ^ 32

theorem uintSub_of_le {a b : Nat} (le : b ≤ a) (fits : a < 2 ^ 32) : uintSub a b = a - b := by
  rw [uintSub]
  omega

/-- Below zero the difference wraps. -/
theorem uintSub_zero_left {b : Nat} (positive : 0 < b) (fits : b ≤ 2 ^ 32) :
    uintSub 0 b = 2 ^ 32 - b := by
  rw [uintSub]
  omega

/-! ## Reading a packet

The getters, each of which reads some bytes of the header.
-/

/-- The unsigned integer of `size` bytes stored at byte `start`. -/
def readUint (pBuffer : List UInt8) (start size : Nat) : Nat :=
  leValue ((pBuffer.drop start).take size)

def getBufferSize (pBuffer : List UInt8) : UInt32 :=
  UInt32.ofNat (readUint pBuffer 0 kdPackageUintSize)

def getEventType (pBuffer : List UInt8) : UInt32 :=
  UInt32.ofNat (readUint pBuffer kdPackageHeaderEventTypeStart kdPackageUintSize)

def getErrorCode (pBuffer : List UInt8) : UInt32 :=
  UInt32.ofNat (readUint pBuffer kdPackageHeaderErrorCodeStart kdPackageUintSize)

def getHandlerId (pBuffer : List UInt8) : UInt32 :=
  UInt32.ofNat (readUint pBuffer kdPackageHeaderHandlerIdStart kdPackageUintSize)

def getServerId (pBuffer : List UInt8) : UInt16 :=
  UInt16.ofNat (readUint pBuffer kdPackageHeaderServerIdStart kdPackageUshortSize)

def getSequenceId (pBuffer : List UInt8) : UInt16 :=
  UInt16.ofNat (readUint pBuffer kdPackageHeaderSequenceIdStart kdPackageUshortSize)

/-- `GetNetPackageBody`: the bytes from the end of the header on and the size they are said to have,
`pNetBufferSize - KD_PACKAGE_HEADER_SIZE` in 32-bit arithmetic. -/
def getNetPackageBody (pNetBuffer : List UInt8) (pNetBufferSize : Nat) : List UInt8 × Nat :=
  (pNetBuffer.drop kdPackageHeaderSize, uintSub pNetBufferSize kdPackageHeaderSize)

/-! ## Building a packet

`CreateNetBuffer`, and the lemmas that every getter reads back what was put in.
-/

/-- `CreateNetBuffer`: the length of the whole packet, the header fields and the body, at their
offsets. -/
def createNetBuffer (uEventType uErrorCode uHandlerId : UInt32)
    (uServerId uSequenceId : UInt16) (pParam : List UInt8) : List UInt8 :=
  let uBufferSize := (kdPackageHeaderSize + pParam.length) % 2 ^ 32
  leBytes kdPackageUintSize uBufferSize ++
    (leBytes kdPackageUintSize uEventType.toNat ++
      (leBytes kdPackageUintSize uErrorCode.toNat ++
        (leBytes kdPackageUintSize uHandlerId.toNat ++
          (leBytes kdPackageUshortSize uServerId.toNat ++
            (leBytes kdPackageUshortSize uSequenceId.toNat ++ pParam)))))

/-- What one packet carries: the fields of `NET_PACKAGE_HEADER` after the length, and the body. -/
structure NetPackage where
  uEventType : UInt32
  uErrorCode : UInt32
  uHandlerId : UInt32
  uServerId : UInt16
  uSequenceId : UInt16
  body : List UInt8
deriving Repr, DecidableEq

/-- The bytes `CreateNetBuffer` makes of a packet's fields. -/
def NetPackage.encode (m : NetPackage) : List UInt8 :=
  createNetBuffer m.uEventType m.uErrorCode m.uHandlerId m.uServerId m.uSequenceId m.body

/-- What the getters read from a received buffer of declared size `uSize`. -/
def readPackage (pBuffer : List UInt8) (uSize : Nat) : NetPackage where
  uEventType := getEventType pBuffer
  uErrorCode := getErrorCode pBuffer
  uHandlerId := getHandlerId pBuffer
  uServerId := getServerId pBuffer
  uSequenceId := getSequenceId pBuffer
  body :=
    let (pBodyBuffer, uNetBodySize) := getNetPackageBody pBuffer uSize
    pBodyBuffer.take uNetBodySize

@[simp] theorem encode_length (m : NetPackage) :
    m.encode.length = kdPackageHeaderSize + m.body.length := by
  simp [NetPackage.encode, createNetBuffer, kdPackageHeaderSize, kdPackageUintSize,
    kdPackageUshortSize]
  omega

/-- A field is read back from where the bytes before it end. -/
private theorem readUint_append {before field after : List UInt8} {start size : Nat}
    (atStart : before.length = start) (width : field.length = size) :
    readUint (before ++ (field ++ after)) start size = leValue field := by
  subst atStart width
  simp [readUint]

/-- A field behind another one is found by skipping that one. -/
private theorem readUint_skip {first rest : List UInt8} {start size : Nat}
    (skip : first.length ≤ start) :
    readUint (first ++ rest) start size = readUint rest (start - first.length) size := by
  simp [readUint, List.drop_append, List.drop_eq_nil_of_le skip]

private theorem readUint_front {field rest : List UInt8} {size : Nat}
    (width : field.length = size) : readUint (field ++ rest) 0 size = leValue field := by
  have atStart : ([] : List UInt8).length = 0 := rfl
  simpa using readUint_append atStart width

/-- The length prefix of a packet declares its whole length. -/
theorem declared_encode {m : NetPackage} (fits : kdPackageHeaderSize + m.body.length < 2 ^ 32) :
    leValue (m.encode.take kdPackageUintSize) = m.encode.length := by
  have value : leValue (leBytes kdPackageUintSize
      ((kdPackageHeaderSize + m.body.length) % 2 ^ 32)) =
        kdPackageHeaderSize + m.body.length := by
    rw [Nat.mod_eq_of_lt fits]
    exact leValue_leBytes_of_lt (by simpa [kdPackageUintSize] using fits)
  rw [encode_length, ← value]
  simp [NetPackage.encode, createNetBuffer]

section Getters

variable (m : NetPackage)

private theorem uint32_field (v : UInt32) :
    UInt32.ofNat (leValue (leBytes kdPackageUintSize v.toNat)) = v := by
  rw [leValue_leBytes_of_lt (by simpa [kdPackageUintSize] using v.toNat_lt)]
  exact UInt32.ofNat_toNat

private theorem uint16_field (v : UInt16) :
    UInt16.ofNat (leValue (leBytes kdPackageUshortSize v.toNat)) = v := by
  rw [leValue_leBytes_of_lt (by simpa [kdPackageUshortSize] using v.toNat_lt)]
  exact UInt16.ofNat_toNat

theorem getEventType_encode : getEventType m.encode = m.uEventType := by
  rw [getEventType, NetPackage.encode, createNetBuffer, readUint_skip (by simp; decide)]
  simp only [leBytes_length, kdPackageHeaderEventTypeStart, Nat.sub_self]
  rw [readUint_front (by simp), uint32_field]

theorem getErrorCode_encode : getErrorCode m.encode = m.uErrorCode := by
  rw [getErrorCode, NetPackage.encode, createNetBuffer]
  iterate 2 rw [readUint_skip (by simp; decide)]
  simp only [leBytes_length]
  rw [show kdPackageHeaderErrorCodeStart - kdPackageUintSize - kdPackageUintSize = 0 from rfl,
    readUint_front (by simp), uint32_field]

theorem getHandlerId_encode : getHandlerId m.encode = m.uHandlerId := by
  rw [getHandlerId, NetPackage.encode, createNetBuffer]
  iterate 3 rw [readUint_skip (by simp; decide)]
  simp only [leBytes_length]
  rw [show kdPackageHeaderHandlerIdStart - kdPackageUintSize - kdPackageUintSize -
    kdPackageUintSize = 0 from rfl, readUint_front (by simp), uint32_field]

theorem getServerId_encode : getServerId m.encode = m.uServerId := by
  rw [getServerId, NetPackage.encode, createNetBuffer]
  iterate 4 rw [readUint_skip (by simp; decide)]
  simp only [leBytes_length]
  rw [show kdPackageHeaderServerIdStart - kdPackageUintSize - kdPackageUintSize -
    kdPackageUintSize - kdPackageUintSize = 0 from rfl, readUint_front (by simp), uint16_field]

theorem getSequenceId_encode : getSequenceId m.encode = m.uSequenceId := by
  rw [getSequenceId, NetPackage.encode, createNetBuffer]
  iterate 5 rw [readUint_skip (by simp; decide)]
  simp only [leBytes_length]
  rw [show kdPackageHeaderSequenceIdStart - kdPackageUintSize - kdPackageUintSize -
    kdPackageUintSize - kdPackageUintSize - kdPackageUshortSize = 0 from rfl,
    readUint_front (by simp), uint16_field]

/-- The body starts where the header ends and has the length that is left. -/
theorem getNetPackageBody_encode (fits : kdPackageHeaderSize + m.body.length < 2 ^ 32) :
    getNetPackageBody m.encode m.encode.length = (m.body, m.body.length) := by
  have size : uintSub m.encode.length kdPackageHeaderSize = m.body.length := by
    rw [encode_length, uintSub]
    omega
  have bytes : m.encode.drop kdPackageHeaderSize = m.body := by
    have width : (leBytes kdPackageUintSize
        ((kdPackageHeaderSize + m.body.length) % 2 ^ 32) ++
          (leBytes kdPackageUintSize m.uEventType.toNat ++
            (leBytes kdPackageUintSize m.uErrorCode.toNat ++
              (leBytes kdPackageUintSize m.uHandlerId.toNat ++
                (leBytes kdPackageUshortSize m.uServerId.toNat ++
                  leBytes kdPackageUshortSize m.uSequenceId.toNat))))).length =
          kdPackageHeaderSize := by
      simp [kdPackageHeaderSize, kdPackageUintSize, kdPackageUshortSize]
    rw [← width, NetPackage.encode, createNetBuffer]
    simp only [← List.append_assoc, List.drop_left]
  rw [getNetPackageBody, size, bytes]

end Getters

/-- The getters give back every field and the body of the packet. -/
theorem readPackage_encode {m : NetPackage}
    (fits : kdPackageHeaderSize + m.body.length < 2 ^ 32) :
    readPackage m.encode m.encode.length = m := by
  rw [readPackage, getEventType_encode, getErrorCode_encode, getHandlerId_encode,
    getServerId_encode, getSequenceId_encode, getNetPackageBody_encode m fits]
  simp

end GameServer.Net
