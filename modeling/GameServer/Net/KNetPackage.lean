/-
Module: GameServer.Net.KNetPackage
Purpose: The packet assembler of `common/knetpacket.cpp` and the receive loop that every connection
  handler runs over it.
Trusted boundary: 64-bit layout of `KG_Buffer`; a buffer's bytes are listed as far as written
Main exports: KgBuffer, KNetPackage, KNetPackage.write, recvPass, recvLoop, processNetData
-/
import GameServer.Net.NetBuffer

namespace GameServer.Net

open Lib

/-! ## Buffers of `db_buffer.cpp`

A buffer with the size that is declared for it, and the bytes that were written to it.
-/

/-- `sizeof(KG_Buffer)`: the vtable pointer, the reference count, the two sizes and the data
pointer. -/
def sizeofKgBuffer : Nat := 32

def memoryBufferReserveSize : Nat := 8

/-- A `KG_Buffer`: the size it was asked for, the bytes `malloc` was called with, and the data bytes
written so far. -/
structure KgBuffer where
  uSize : Nat
  uBufferSize : Nat
  pvData : List UInt8
deriving Repr, DecidableEq

/-- `DB_MemoryCreateBuffer`; the size sum is made in 32-bit arithmetic. -/
def dbMemoryCreateBuffer (uSize : Nat) : KgBuffer where
  uSize := uSize
  uBufferSize := (uSize + sizeofKgBuffer + memoryBufferReserveSize) % 2 ^ 32
  pvData := []

/-- `memcpy` of `src` to byte `offset` of the data written so far. -/
def memcpyAt (data : List UInt8) (offset : Nat) (src : List UInt8) : List UInt8 :=
  data.take offset ++ src ++ data.drop (offset + src.length)

/-! ## The assembler

The functions of the class, in its order. `Write` reads the length prefix byte by byte, and then the body.
-/

/-- `KD_PACKAGE_LEN_SIZE`: the bytes of the length prefix. -/
def kdPackageLenSize : Nat := 4

/-- `KD_INVALID_PACKET_LEN`, `(unsigned int)-1`. -/
def kdInvalidPacketLen : Nat := 2 ^ 32 - 1

/-- `KNetPackage`: `m_szRemain`, `m_uPacketLen`, `m_uRecvOffset` and `m_pBuffer`. -/
structure KNetPackage where
  szRemain : List UInt8
  uPacketLen : Nat
  uRecvOffset : Nat
  pBuffer : Option KgBuffer
deriving Repr, DecidableEq

namespace KNetPackage

/-- The constructor. -/
def fresh : KNetPackage where
  szRemain := List.replicate kdPackageLenSize 0
  uPacketLen := kdInvalidPacketLen
  uRecvOffset := 0
  pBuffer := none

def isValid (p : KNetPackage) : Bool := p.uRecvOffset == p.uPacketLen

/-- `GetData`: the buffer, when a whole packet is there. -/
def getData (p : KNetPackage) : Option KgBuffer :=
  if p.isValid then p.pBuffer else none

def reset (p : KNetPackage) : KNetPackage :=
  { p with uPacketLen := kdInvalidPacketLen, uRecvOffset := 0 }

/-- `_InitPackage`: allocate the declared size and copy the length prefix to its front. -/
def initPackage (p : KNetPackage) (uPacketSize : Nat) : KNetPackage :=
  { p with
    uPacketLen := uPacketSize
    pBuffer := some { dbMemoryCreateBuffer uPacketSize with
      pvData := memcpyAt [] 0 (leBytes kdPackageUintSize uPacketSize) } }

/-- `_WriteData`: append the bytes at the receive offset. -/
def writeData (p : KNetPackage) (pData : List UInt8) : KNetPackage :=
  { p with
    pBuffer := p.pBuffer.map fun b =>
      { b with pvData := memcpyAt b.pvData p.uRecvOffset pData }
    uRecvOffset := p.uRecvOffset + pData.length }

/-- One turn of the prefix loop of `Write`: store a byte of the length, and read the length once its
last byte is there. -/
def storePrefixByte (p : KNetPackage) (b : UInt8) : KNetPackage :=
  let stored :=
    { p with
      szRemain := p.szRemain.set p.uRecvOffset b
      uRecvOffset := p.uRecvOffset + 1 }
  if stored.uRecvOffset = kdPackageLenSize then
    stored.initPackage (leValue stored.szRemain)
  else
    stored

/-- Where the prefix loop of `Write` leaves off: the packet, the rest of the data, `uCurWriteLen`, and
whether it jumped to `Exit1`. -/
structure PrefixRead where
  pkg : KNetPackage
  pData : List UInt8
  uCurWriteLen : Nat
  exit1 : Bool
deriving Repr

/-- The `for` loop of `Write`, with the number of turns that are left, and the test behind it.  A loop
turn without data is not reached: `uDataLen` never exceeds the data that is there. -/
def readPrefix (uDataLen : Nat) : Nat → KNetPackage → List UInt8 → Nat → PrefixRead
  | turns + 1, p, b :: pData, uCurWriteLen =>
      if uCurWriteLen + 1 = uDataLen then
        ⟨p.storePrefixByte b, pData, uCurWriteLen + 1, true⟩
      else
        readPrefix uDataLen turns (p.storePrefixByte b) pData (uCurWriteLen + 1)
  | _, p, pData, uCurWriteLen => ⟨p, pData, uCurWriteLen, uCurWriteLen == uDataLen⟩

/-- The part of `Write` behind the prefix: as much of the body as the data holds. -/
def writeBody (p : KNetPackage) (pData : List UInt8) (uDataLen uCurWriteLen : Nat) :
    KNetPackage × Nat :=
  if p.uRecvOffset < p.uPacketLen then
    let uMaxWriteLen := min (uintSub uDataLen uCurWriteLen) (p.uPacketLen - p.uRecvOffset)
    (p.writeData (pData.take uMaxWriteLen), uCurWriteLen + uMaxWriteLen)
  else
    (p, uCurWriteLen)

/-- `Write`: the packet afterwards and `*puWrite`.  It always returns `true`. -/
def write (p : KNetPackage) (pData : List UInt8) (uDataLen : Nat) : KNetPackage × Nat :=
  if p.uPacketLen = p.uRecvOffset then
    (p, 0)
  else if p.uRecvOffset < kdPackageLenSize then
    let r := readPrefix uDataLen (kdPackageLenSize - p.uRecvOffset) p pData 0
    if r.exit1 then
      (r.pkg, r.uCurWriteLen)
    else
      r.pkg.writeBody r.pData uDataLen r.uCurWriteLen
  else
    p.writeBody pData uDataLen 0

end KNetPackage

/-! ## The receive loop

`TCPSession::ProcessNetData`, `TCPSession::CenterServerProcessNetData`,
`GameLogicServer::_ProcessNetData`, `GatewayClient::_ProcessNetData` and
`CenterClient::_ProcessNetData` run the same loop and differ in what they do with a whole packet;
that part is `onPacket`.
-/

variable {ε : Type*}

/-- One pass of the loop body: the packet, the data that is left, what the packet handler did, and
whether the pass left the function through `Exit0`. -/
structure PassResult (ε : Type*) where
  pkg : KNetPackage
  pData : List UInt8
  events : List ε
  exit0 : Bool

/-- The body of the `do ... while (true)` loop.  `Write` takes the data length as `unsigned int`. -/
def recvPass (onPacket : KgBuffer → List ε) (p : KNetPackage) (pData : List UInt8) :
    PassResult ε :=
  let (written, uWrite) := p.write pData (pData.length % 2 ^ 32)
  if written.isValid then
    match written.getData with
    | none => ⟨written, pData, [], true⟩
    | some pBuffer => ⟨written.reset, pData.drop uWrite, onPacket pBuffer, false⟩
  else
    ⟨written, pData.drop uWrite, [], false⟩

/-- The loop, run for at most the given number of passes; `none` when it has not ended by then. -/
def recvLoop (onPacket : KgBuffer → List ε) :
    Nat → KNetPackage → List UInt8 → Option (KNetPackage × List ε)
  | 0, _, _ => none
  | passes + 1, p, pData =>
      let r := recvPass onPacket p pData
      if r.exit0 || r.pData.isEmpty then
        some (r.pkg, r.events)
      else
        (recvLoop onPacket passes r.pkg r.pData).map fun rest => (rest.1, r.events ++ rest.2)

/-- `ProcessNetData` on one chunk: nothing for an empty one, else the loop.  As many passes as the
chunk has bytes are enough whenever any number is (`recvLoop_eq_none`). -/
def processNetData (onPacket : KgBuffer → List ε) (p : KNetPackage) (chunk : List UInt8) :
    Option (KNetPackage × List ε) :=
  if chunk.isEmpty then some (p, []) else recvLoop onPacket chunk.length p chunk

/-- Chunks handed to a receive function one after another. -/
def processChunks (receive : KNetPackage → List UInt8 → Option (KNetPackage × List ε)) :
    KNetPackage → List (List UInt8) → Option (KNetPackage × List ε)
  | p, [] => some (p, [])
  | p, chunk :: chunks =>
      (receive p chunk).bind fun head =>
        (processChunks receive head.1 chunks).map fun rest => (rest.1, head.2 ++ rest.2)

end GameServer.Net
