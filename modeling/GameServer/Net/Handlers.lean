/-
Module: GameServer.Net.Handlers
Purpose: The receive functions of `src/tcp`: the one loop of `KNetPackage`, each with what it does to a
  whole packet.
Trusted boundary: `Message::ParseFromArray` is a parameter; the calls a handler makes return
Main exports: NetEvent, TCPSession.processNetData, TCPSession.centerServerProcessNetData,
  GameLogicServer.processNetData, GatewayClient.processNetData
-/
import GameServer.Net.KNetPackage

namespace GameServer.Net

open Lib

/-! ## Server types of `kmacros.h`

The five kinds of servers, by their numbers.
-/

def serverTypeCenter : Nat := 0

def serverTypeLogin : Nat := 1

def serverTypeLogic : Nat := 2

def serverTypeRoom : Nat := 3

def serverTypeGateway : Nat := 4

/-! ## What a packet leads to

The handlers of the receive functions, as lists of the calls that they make.
-/

/-- A call a receive function makes for a packet. -/
inductive NetEvent where
  /-- `GetGatewayClient(uServerId)->TransferToLogicServer`. -/
  | transferToLogicServer (uServerId : UInt16) (pBuffer : List UInt8)
  /-- `GatewayServer::TransferToClient`. -/
  | transferToClient (uHandlerId : UInt32) (pBuffer : List UInt8)
  /-- `CenterServer::TransferToClient` to the handler registered for a server type. -/
  | transferToServer (uServerType : UInt16) (pBuffer : List UInt8)
  /-- `lua_engine.CallLua`. -/
  | callLua (uHandlerId uEventType : UInt32) (uSequenceId : UInt16) (pParam : List UInt8)
  /-- `lua_engine.CallCenterRequestLua`. -/
  | callCenterRequestLua (uHandlerId uEventType : UInt32) (uSequenceId : UInt16)
      (pParam : List UInt8)
deriving Repr, DecidableEq

/-- `c_str()` read as a C string: the bytes before the first NUL. -/
def cStr (data : List UInt8) : List UInt8 := data.takeWhile (· ≠ 0)

/-- `AddHanderIdToBuffer`: put the handler id into the header of a packet with a body. -/
def addHanderIdToBuffer (nHandlerId : UInt32) (pBuffer : List UInt8) (uSize : Nat) : List UInt8 :=
  if uSize > kdPackageHeaderSize then
    memcpyAt pBuffer kdPackageHeaderHandlerIdStart (leBytes kdPackageUintSize nHandlerId.toNat)
  else
    pBuffer

/-- `ParseFromArray` on a message whose `data` has less than 128 bytes. -/
def parseShortData : List UInt8 → Option (List UInt8)
  | 10 :: size :: data => if size < 128 ∧ data.length = size.toNat then some data else none
  | _ => none

section Handlers

-- `Message::ParseFromArray`: the field `data` when the bytes parse
variable (parseFromArray : List UInt8 → Option (List UInt8))

/-- `ParseFromArray` on the body of a packet. -/
def parseBody (pBuffer : KgBuffer) : Option (List UInt8) :=
  parseFromArray (readPackage pBuffer.pvData pBuffer.uSize).body

/-- `CheckNetPacket`: the body is a protobuf message. -/
def checkNetPacket (pBuffer : KgBuffer) : Bool := (parseBody parseFromArray pBuffer).isSome

namespace TCPSession

/-- What the gateway does with a packet of a client. -/
def onPacket (uHandlerId : UInt32) (pBuffer : KgBuffer) : List NetEvent :=
  if checkNetPacket parseFromArray pBuffer then
    let pDataBuffer := addHanderIdToBuffer uHandlerId pBuffer.pvData pBuffer.uSize
    [.transferToLogicServer (getServerId pDataBuffer) pDataBuffer]
  else
    []

/-- What the center server does with a packet of another server. -/
def onCenterPacket (uHandlerId : UInt32) (pBuffer : KgBuffer) : List NetEvent :=
  match parseBody parseFromArray pBuffer with
  | none => []
  | some data =>
      let uServerId := getServerId pBuffer.pvData
      if uServerId.toNat = serverTypeCenter then
        [.callLua uHandlerId (getEventType pBuffer.pvData) 0 (cStr data)]
      else
        [.transferToServer uServerId pBuffer.pvData]

/-- `TCPSession::ProcessNetData` of the session with handler id `uHandlerId`. -/
def processNetData (uHandlerId : UInt32) (m_pRecvPacket : KNetPackage) (pData : List UInt8) :
    Option (KNetPackage × List NetEvent) :=
  Net.processNetData (onPacket parseFromArray uHandlerId) m_pRecvPacket pData

/-- `TCPSession::CenterServerProcessNetData`. -/
def centerServerProcessNetData (uHandlerId : UInt32) (m_pRecvPacket : KNetPackage)
    (pData : List UInt8) : Option (KNetPackage × List NetEvent) :=
  Net.processNetData (onCenterPacket parseFromArray uHandlerId) m_pRecvPacket pData

end TCPSession

namespace GameLogicServer

/-- What a logic server does with a packet of server type `uServerFrom`. -/
def onPacket (uServerFrom : Nat) (pBuffer : KgBuffer) : List NetEvent :=
  match parseBody parseFromArray pBuffer with
  | none => []
  | some data =>
      let uEventType := getEventType pBuffer.pvData
      let uHandlerId := getHandlerId pBuffer.pvData
      let uSequenceId := getSequenceId pBuffer.pvData
      if uServerFrom = serverTypeLogic ∨ uServerFrom = serverTypeGateway then
        [.callLua uHandlerId uEventType uSequenceId (cStr data)]
      else if uServerFrom = serverTypeCenter then
        [.callCenterRequestLua uHandlerId uEventType uSequenceId (cStr data)]
      else
        []

/-- `GameLogicServer::_ProcessNetData`. -/
def processNetData (uServerFrom : Nat) (m_pRecvPacket : KNetPackage) (pData : List UInt8) :
    Option (KNetPackage × List NetEvent) :=
  Net.processNetData (onPacket parseFromArray uServerFrom) m_pRecvPacket pData

end GameLogicServer

end Handlers

namespace GatewayClient

/-- What the gateway does with a packet of a logic server. -/
def onPacket (pBuffer : KgBuffer) : List NetEvent :=
  let uHandlerId := getHandlerId pBuffer.pvData
  if uHandlerId > 0 then [.transferToClient uHandlerId pBuffer.pvData] else []

/-- `GatewayClient::_ProcessNetData`. -/
def processNetData (m_pRecvPacket : KNetPackage) (pData : List UInt8) :
    Option (KNetPackage × List NetEvent) :=
  Net.processNetData onPacket m_pRecvPacket pData

end GatewayClient

end GameServer.Net
