/-
Module: GameServer.Net.ClientRouting
Purpose: To which backend the gateway hands the packets of a client, and when it calls a backend that is not there.
Trusted boundary: a call on a null pointer ends the process
Main exports: GatewayClients, getGatewayClient, transfers, notifyLogicServer, RoutedOrDropped, routedOrDropped_iff
-/
import GameServer.Net.ReceiveAll

namespace GameServer.Net

open Lib KNetPackage

/-- `g_pLoginLogicClient`, `g_pGameLogicClient` and `g_pRoomLogicClient`; `main` creates the ones that are in
`config.json` with an address. -/
structure GatewayClients (κ : Type*) where
  pLoginLogicClient : Option κ
  pGameLogicClient : Option κ
  pRoomLogicClient : Option κ

section Routing

variable {κ : Type*} (clients : GatewayClients κ)

/-- `GetGatewayClient` of `TCPSession` and of `GatewayServer`. -/
def GatewayClients.getGatewayClient (uServerId : UInt16) : Option κ :=
  if uServerId.toNat = serverTypeLogin then clients.pLoginLogicClient
  else if uServerId.toNat = serverTypeLogic then clients.pGameLogicClient
  else if uServerId.toNat = serverTypeRoom then clients.pRoomLogicClient
  else none

/-- A call of `TransferToLogicServer`: the object it is made on, which may be null, and the packet. -/
abbrev Transfer (κ : Type*) := Option κ × List UInt8

/-- The calls that are made for the packets of a client; there is nothing behind a call on null. -/
def transfers : List NetEvent → List (Transfer κ)
  | [] => []
  | .transferToLogicServer uServerId pBuffer :: events =>
      match clients.getGatewayClient uServerId with
      | some pClient => (some pClient, pBuffer) :: transfers events
      | none => [(none, pBuffer)]
  | _ :: events => transfers events

/-- `NotifyLogicServer`, which looks at the pointer. -/
def notifyLogicServer (uServerId : UInt16) (pvNetBuffer : List UInt8) : List (Transfer κ) :=
  match clients.getGatewayClient uServerId with
  | some pClient => [(some pClient, pvNetBuffer)]
  | none => []

/-- The notices of the gateway itself never go to null. -/
theorem notifyLogicServer_not_null (uServerId : UInt16) (pvNetBuffer : List UInt8) :
    ∀ transfer ∈ notifyLogicServer clients uServerId pvNetBuffer, transfer.1 ≠ none := by
  unfold notifyLogicServer
  split <;> simp

section Session

variable (parseFromArray : List UInt8 → Option (List UInt8)) (uHandlerId : UInt32)

/-- The packet as it is handed on. -/
def stamped (packet : List UInt8) : List UInt8 := addHanderIdToBuffer uHandlerId packet packet.length

/-- What should become of a packet: when its body parses it goes to the client object of its server id, if there is
one. -/
def delivery (packet : List UInt8) : Option (Transfer κ) :=
  if checkNetPacket parseFromArray (wholeBuffer packet) then
    (clients.getGatewayClient (getServerId (stamped uHandlerId packet))).map fun pClient =>
      (some pClient, stamped uHandlerId packet)
  else none

/-- The packet is dropped, or there is a client object for it. -/
def HasBackend (packet : List UInt8) : Prop :=
  checkNetPacket parseFromArray (wholeBuffer packet) = true →
    (clients.getGatewayClient (getServerId (stamped uHandlerId packet))).isSome = true

instance (packet : List UInt8) : Decidable (HasBackend clients parseFromArray uHandlerId packet) :=
  inferInstanceAs (Decidable (_ → _))

/-- The calls of `TransferToLogicServer` that `ProcessNetData` makes of chunks of a client, one after another. -/
def sessionTransfers (chunks : List (List UInt8)) : List (Transfer κ) :=
  transfers clients (receiveAll (TCPSession.onPacket parseFromArray uHandlerId) fresh chunks).2

/-- The whole packets of a stream. -/
def packetsOf (chunks : List (List UInt8)) : List (List UInt8) := (netFrame.feed [] chunks.flatten).2

/-- No call is made on null, and every packet of the stream goes to the client object of its server id or nowhere. -/
structure RoutedOrDropped (chunks : List (List UInt8)) : Prop where
  never_null : ∀ transfer ∈ sessionTransfers clients parseFromArray uHandlerId chunks, transfer.1 ≠ none
  routed : sessionTransfers clients parseFromArray uHandlerId chunks =
    (packetsOf chunks).filterMap (delivery clients parseFromArray uHandlerId)

variable {clients parseFromArray uHandlerId}

/-- The handler of the session on a packet. -/
theorem onPacket_cases (packet : List UInt8) :
    (checkNetPacket parseFromArray (wholeBuffer packet) = true ∧
      TCPSession.onPacket parseFromArray uHandlerId (wholeBuffer packet) =
        [.transferToLogicServer (getServerId (stamped uHandlerId packet)) (stamped uHandlerId packet)]) ∨
    (checkNetPacket parseFromArray (wholeBuffer packet) = false ∧
      TCPSession.onPacket parseFromArray uHandlerId (wholeBuffer packet) = []) := by
  cases checked : checkNetPacket parseFromArray (wholeBuffer packet) with
  | true => exact Or.inl ⟨rfl, if_pos checked⟩
  | false => exact Or.inr ⟨rfl, if_neg (by simp [checked])⟩

theorem transfers_cons_of_hasBackend {packet : List UInt8}
    (backend : HasBackend clients parseFromArray uHandlerId packet) (events : List NetEvent) :
    transfers clients (TCPSession.onPacket parseFromArray uHandlerId (wholeBuffer packet) ++ events) =
      (delivery clients parseFromArray uHandlerId packet).toList ++ transfers clients events := by
  rcases @onPacket_cases parseFromArray uHandlerId packet with
    ⟨checked, handled⟩ | ⟨unchecked, handled⟩
  · obtain ⟨pClient, found⟩ := Option.isSome_iff_exists.mp (backend checked)
    rw [handled, delivery, if_pos checked, found, List.singleton_append, transfers, found]
    rfl
  · rw [handled, delivery, unchecked]
    rfl

/-- Without a client object for a packet, the call is made on null. -/
theorem transfers_cons_of_not_hasBackend {packet : List UInt8}
    (missing : ¬ HasBackend clients parseFromArray uHandlerId packet) (events : List NetEvent) :
    transfers clients (TCPSession.onPacket parseFromArray uHandlerId (wholeBuffer packet) ++ events) =
      [(none, stamped uHandlerId packet)] := by
  unfold HasBackend at missing
  push Not at missing
  obtain ⟨checked, notFound⟩ := missing
  rcases @onPacket_cases parseFromArray uHandlerId packet with
    ⟨-, handled⟩ | ⟨unchecked, -⟩
  · rw [handled, List.singleton_append, transfers, Option.not_isSome_iff_eq_none.mp notFound]
  · rw [unchecked] at checked
    exact absurd checked (by simp)

theorem transfers_of_hasBackend {packets : List (List UInt8)}
    (backend : ∀ packet ∈ packets, HasBackend clients parseFromArray uHandlerId packet) :
    transfers clients
        (packets.flatMap fun packet => TCPSession.onPacket parseFromArray uHandlerId (wholeBuffer packet)) =
      packets.filterMap (delivery clients parseFromArray uHandlerId) := by
  induction packets with
  | nil => rfl
  | cons packet packets ih =>
      rw [List.forall_mem_cons] at backend
      rw [List.flatMap_cons, transfers_cons_of_hasBackend backend.1, ih backend.2, List.filterMap_cons]
      cases delivery clients parseFromArray uHandlerId packet <;> rfl

theorem null_of_not_hasBackend {packets : List (List UInt8)} {packet : List UInt8} (member : packet ∈ packets)
    (missing : ¬ HasBackend clients parseFromArray uHandlerId packet) :
    ∃ pBuffer, (none, pBuffer) ∈ transfers clients
      (packets.flatMap fun packet => TCPSession.onPacket parseFromArray uHandlerId (wholeBuffer packet)) := by
  induction packets with
  | nil => exact absurd member List.not_mem_nil
  | cons first packets ih =>
      rw [List.flatMap_cons]
      by_cases backend : HasBackend clients parseFromArray uHandlerId first
      · have later : packet ∈ packets := by
          rcases List.mem_cons.mp member with rfl | later
          · exact absurd backend missing
          · exact later
        obtain ⟨pBuffer, called⟩ := ih later
        refine ⟨pBuffer, ?_⟩
        rw [transfers_cons_of_hasBackend backend]
        exact List.mem_append_right _ called
      · exact ⟨_, by rw [transfers_cons_of_not_hasBackend backend]; exact List.mem_singleton_self _⟩

theorem delivery_not_null {packet : List UInt8} {transfer : Transfer κ}
    (delivered : delivery clients parseFromArray uHandlerId packet = some transfer) : transfer.1 ≠ none := by
  obtain ⟨-, mapped⟩ := Option.ite_none_right_eq_some.mp delivered
  obtain ⟨pClient, -, rfl⟩ := Option.map_eq_some_iff.mp mapped
  simp

end Session

end Routing

/-- For chunks whose lengths an `unsigned int` holds: every packet of the stream is routed or dropped, and no call is
made on null, if and only if each packet whose body parses has the server id of a client object that is there. -/
theorem routedOrDropped_iff {κ : Type} (clients : GatewayClients κ) (parseFromArray : List UInt8 → Option (List UInt8))
    (uHandlerId : UInt32) {chunks : List (List UInt8)} (bound : ∀ c ∈ chunks, c.length < 2 ^ 32) :
    RoutedOrDropped clients parseFromArray uHandlerId chunks ↔
      ∀ packet ∈ packetsOf chunks, HasBackend clients parseFromArray uHandlerId packet := by
  have handled : sessionTransfers clients parseFromArray uHandlerId chunks = transfers clients
      ((packetsOf chunks).flatMap fun packet =>
        TCPSession.onPacket parseFromArray uHandlerId (wholeBuffer packet)) := by
    rw [sessionTransfers, (receiveAll_eq (TCPSession.onPacket parseFromArray uHandlerId) fresh_idle bound).1]
    rfl
  constructor
  · intro routed packet member
    by_contra missing
    obtain ⟨pBuffer, called⟩ := null_of_not_hasBackend member missing
    rw [← handled] at called
    exact routed.never_null _ called rfl
  · intro backend
    have routed := handled.trans (transfers_of_hasBackend backend)
    refine ⟨?_, routed⟩
    intro transfer called
    rw [routed] at called
    obtain ⟨packet, -, delivered⟩ := List.mem_filterMap.mp called
    exact delivery_not_null delivered

/-- The bodies with the one field `data` of one byte. -/
def parseOneByte (body : List UInt8) : Option (List UInt8) :=
  if body.length = 3 ∧ body.take 2 = [10, 1] then some (body.drop 2) else none

/-- A gateway without a room client. -/
def twoClients : GatewayClients Nat where
  pLoginLogicClient := some 1
  pGameLogicClient := some 2
  pRoomLogicClient := none

/-- A packet for login, one for server 9 whose body does not parse, and one for logic, cut in two. -/
def exampleChunks : List (List UInt8) :=
  [[23, 0, 0, 0, 5, 0, 0, 0, 0, 0, 0, 0, 0, 0, 0, 0, 1, 0, 3, 0, 10, 1, 65, 21, 0, 0, 0, 5, 0, 0, 0, 0, 0, 0, 0, 0, 0],
    [0, 0, 9, 0, 3, 0, 255, 23, 0, 0, 0, 5, 0, 0, 0, 0, 0, 0, 0, 0, 0, 0, 0, 2, 0, 3, 0, 10, 1, 66]]

theorem routedOrDropped_iff_example : RoutedOrDropped twoClients parseOneByte 7 exampleChunks :=
  (routedOrDropped_iff twoClients parseOneByte 7 (by decide)).mpr (by decide +kernel)

/-- A packet for a room client that is not configured. -/
theorem room_packet_to_null :
    ¬ ∀ (clients : GatewayClients Nat) (parseFromArray : List UInt8 → Option (List UInt8)) (uHandlerId : UInt32)
      (chunks : List (List UInt8)), (∀ c ∈ chunks, c.length < 2 ^ 32) →
      RoutedOrDropped clients parseFromArray uHandlerId chunks := by
  intro claim
  have routed := claim twoClients parseOneByte 7
    [[23, 0, 0, 0, 5, 0, 0, 0, 0, 0, 0, 0, 0, 0, 0, 0, 3, 0, 3, 0, 10, 1, 65]] (by decide)
  have null : (none, [23, 0, 0, 0, 5, 0, 0, 0, 0, 0, 0, 0, 7, 0, 0, 0, 3, 0, 3, 0, 10, 1, 65]) ∈
      sessionTransfers twoClients parseOneByte 7
        [[23, 0, 0, 0, 5, 0, 0, 0, 0, 0, 0, 0, 0, 0, 0, 0, 3, 0, 3, 0, 10, 1, 65]] := by
    decide +kernel
  exact routed.never_null _ null rfl

end GameServer.Net
