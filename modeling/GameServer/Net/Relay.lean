/-
Module: GameServer.Net.Relay
Purpose: The gateway between its clients and the login, logic and room server, as one system: the packets of clients on
  their way to a server, the packets of the servers on their way back, and what the center server sends the servers.
Trusted boundary: a write is taken as a whole, and the bytes of a connection arrive in the order they were written, cut
  anywhere; `SerializeToString` and `ParseFromArray` are parameters; no session is opened while the system runs
Main exports: Relay, RelayAction, relayStep, linkBytes, gatewayClients
-/
import GameServer.Net.DisconnectNotice
import GameServer.Net.PeerStreams

namespace GameServer.Net

open Lib KNetPackage

/-! ## State

The gateway, its sessions and the servers, with what is on the way between them.
-/

structure Relay where
  /-- `m_pRecvPacket` of the session with the handler id. -/
  sessions : UInt32 → KNetPackage
  /-- All that has come from the client of the session. -/
  arrived : UInt32 → List UInt8
  /-- The handler ids in `m_mapIdToHandler`. -/
  isOpen : UInt32 → Bool
  /-- The packets that `TransferToLogicServer` has written on the connection to a server. -/
  sent : GatewayPeer → List (List UInt8)
  /-- How many of their bytes the server has read. -/
  taken : GatewayPeer → Nat
  /-- `m_pRecvPacket` of the server, for the gateway and for the center server. -/
  servers : GatewayPeer → KNetPackage
  /-- The calls into its scripts. -/
  calls : GatewayPeer → List NetEvent
  /-- The packets that `SendDataToGateway` has written. -/
  answers : GatewayPeer → List NetPackage
  /-- How many of their bytes the gateway has read. -/
  returned : GatewayPeer → Nat
  /-- The one `m_pRecvPacket` of the gateway for the servers, and what it has made of their packets. -/
  gateway : PeerState GatewayPeer
  /-- The packets that were written on the connection of a client, each with the server it came from. -/
  written : UInt32 → List (GatewayPeer × List UInt8)

namespace Relay

/-- The sessions with these handler ids are there, and nothing has been sent. -/
def init (isOpen : UInt32 → Bool) : Relay where
  sessions _ := fresh
  arrived _ := []
  isOpen := isOpen
  sent _ := []
  taken _ := 0
  servers _ := fresh
  calls _ := []
  answers _ := []
  returned _ := 0
  gateway := PeerState.init
  written _ := []

end Relay

/-- The bytes of packets one after another. -/
def linkBytes (packets : List (List UInt8)) : List UInt8 := packets.flatten

theorem linkBytes_append (packets more : List (List UInt8)) :
    linkBytes (packets ++ more) = linkBytes packets ++ linkBytes more := List.flatten_append

/-- The objects that `main` creates for the servers of `config.json`. -/
def gatewayClients (connected : GatewayPeer → Bool) : GatewayClients GatewayPeer where
  pLoginLogicClient := if connected .login then some .login else none
  pGameLogicClient := if connected .logic then some .logic else none
  pRoomLogicClient := if connected .room then some .room else none

/-! ## Steps

A step is a read callback, a client that leaves, or a packet that the scripts of a server send.
-/

inductive RelayAction where
  /-- A read callback of a client's connection. -/
  | clientData (uHandlerId : UInt32) (chunk : List UInt8)
  /-- A client's connection ends. -/
  | clientGone (uHandlerId : UInt32)
  /-- A read callback of a server, with so many bytes. -/
  | serverData (server : GatewayPeer) (n : Nat)
  /-- A read callback of a server for the center server: `CenterClient::OnMsgRecv`. -/
  | centerData (server : GatewayPeer) (chunk : List UInt8)
  /-- The scripts of a server send. -/
  | serverSends (server : GatewayPeer) (packet : NetPackage)
  /-- A read callback of the gateway for a server. -/
  | gatewayData (server : GatewayPeer) (n : Nat)

section

variable (parseFromArray : List UInt8 → Option (List UInt8)) (serializeToString : List UInt8 → List UInt8)
variable (connected : GatewayPeer → Bool)

/-- What calls of `TransferToLogicServer` write to a server. -/
def writesTo (server : GatewayPeer) (calls : List (Transfer GatewayPeer)) : List (List UInt8) :=
  calls.filterMap fun call => if call.1 = some server then some call.2 else none

namespace Relay

/-- The writes of calls of `TransferToLogicServer`. -/
def transfer (s : Relay) (calls : List (Transfer GatewayPeer)) : Relay :=
  { s with sent := fun server => s.sent server ++ writesTo server calls }

/-- `GatewayServer::TransferToClient` for a packet that came from a server. -/
def transferToClient (s : Relay) (server : GatewayPeer) : NetEvent → Relay
  | .transferToClient uHandlerId pBuffer =>
      if s.isOpen uHandlerId then
        { s with written := Function.update s.written uHandlerId (s.written uHandlerId ++ [(server, pBuffer)]) }
      else s.transfer (notifyUserSocketDisconnect serializeToString (gatewayClients connected) uHandlerId)
  | _ => s

end Relay

/-- None where the process of the gateway or of a server ends or never comes back. -/
def relayStep (s : Relay) : RelayAction → Option Relay
  | .clientData uHandlerId chunk =>
      if s.isOpen uHandlerId then do
        let (packet, events) ← TCPSession.processNetData parseFromArray uHandlerId (s.sessions uHandlerId) chunk
        let calls := transfers (gatewayClients connected) events
        -- a call on a null pointer
        if ∃ call ∈ calls, call.1 = none then none
        else
          some { s.transfer calls with
            sessions := Function.update s.sessions uHandlerId packet
            arrived := Function.update s.arrived uHandlerId (s.arrived uHandlerId ++ chunk) }
      else none
  | .clientGone uHandlerId => some { s with isOpen := Function.update s.isOpen uHandlerId false }
  | .serverData server n => do
      let chunk := ((linkBytes (s.sent server)).drop (s.taken server)).take n
      let (packet, events) ← GameLogicServer.processNetData parseFromArray serverTypeGateway (s.servers server) chunk
      return { s with
        taken := Function.update s.taken server (s.taken server + chunk.length)
        servers := Function.update s.servers server packet
        calls := Function.update s.calls server (s.calls server ++ events) }
  | .centerData server chunk => do
      let (packet, events) ← GameLogicServer.processNetData parseFromArray serverTypeCenter (s.servers server) chunk
      return { s with
        servers := Function.update s.servers server packet
        calls := Function.update s.calls server (s.calls server ++ events) }
  | .serverSends server packet => some { s with answers := Function.update s.answers server (s.answers server ++ [packet]) }
  | .gatewayData server n => do
      let chunk := ((linkBytes ((s.answers server).map NetPackage.encode)).drop (s.returned server)).take n
      let (packet, events) ← GatewayClient.processNetData s.gateway.m_pRecvPacket chunk
      return { events.foldl (fun s event => s.transferToClient serializeToString connected server event) s with
        gateway :=
          { m_pRecvPacket := packet
            arrived := s.gateway.arrived ++ [(server, chunk)]
            dispatched := s.gateway.dispatched ++ events.map fun event => (server, event) }
        returned := Function.update s.returned server (s.returned server + chunk.length) }

end

end GameServer.Net
