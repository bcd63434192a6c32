/-
Module: GameServer.Net.Uplink
Purpose: From the clients to the scripts of the servers: in every run of the relay a server is called for exactly what
  each client has sent to it, in the client's order and under the client's handler id.
Trusted boundary: as for the relay; a message is at most a tag and a length longer than its data
Main exports: request, callsOf, Uplink, Uplink.step, requests_in_order
-/
import GameServer.Net.ClientPackets
import GameServer.Net.Relay

namespace GameServer.Net

open Lib KNetPackage

/-! ## What a client asks for

The calls that the packets of a client are meant to lead to on a server.
-/

/-- The server that a packet is for. -/
def serverOf (uServerId : UInt16) : Option GatewayPeer :=
  if uServerId.toNat = serverTypeLogin then some .login
  else if uServerId.toNat = serverTypeLogic then some .logic
  else if uServerId.toNat = serverTypeRoom then some .room
  else none

/-- The call that a packet of the client is meant to lead to: when its body parses, and it is for the server. -/
def request (parseFromArray : List UInt8 → Option (List UInt8)) (server : GatewayPeer) (uHandlerId : UInt32)
    (packet : List UInt8) : Option NetEvent :=
  if serverOf (getServerId packet) = some server then
    (parseBody parseFromArray (wholeBuffer packet)).map fun data =>
      .callLua uHandlerId (getEventType packet) (getSequenceId packet) (cStr data)
  else none

/-- A call into the scripts is for the handler id. -/
def isCallOf (uHandlerId : UInt32) : NetEvent → Bool
  | .callLua id _ _ _ => id = uHandlerId
  | _ => false

def callsOf (uHandlerId : UInt32) (calls : List NetEvent) : List NetEvent := calls.filter (isCallOf uHandlerId)

theorem callsOf_append (uHandlerId : UInt32) (calls more : List NetEvent) :
    callsOf uHandlerId (calls ++ more) = callsOf uHandlerId calls ++ callsOf uHandlerId more := List.filter_append ..

/-! ## Packets and their handler ids

What a server does with a packet depends on the bytes that the gateway leaves as they are.
-/

section Packets

variable {packet other : List UInt8}

/-- A field that is not the handler id is the same. -/
theorem SameButHandlerId.field (similar : SameButHandlerId packet other) {start size : Nat}
    (apart : start + size ≤ kdPackageHeaderHandlerIdStart ∨
      kdPackageHeaderHandlerIdStart + kdPackageUintSize ≤ start) :
    readUint packet start size = readUint other start size := by
  unfold readUint
  cases apart with
  | inl front =>
      have inFront : ∀ bytes : List UInt8, (bytes.drop start).take size = (bytes.take (start + size)).drop start := by
        intro bytes
        rw [List.drop_take, Nat.add_sub_cancel_left]
      rw [inFront, inFront, similar.take front]
  | inr behind => rw [similar.drop behind]

variable {parseFromArray : List UInt8 → Option (List UInt8)} {uHandlerId : UInt32}

theorem SameButHandlerId.parseBody (similar : SameButHandlerId packet other) :
    Net.parseBody parseFromArray (wholeBuffer packet) = Net.parseBody parseFromArray (wholeBuffer other) := by
  rw [parseBody_wholeBuffer, parseBody_wholeBuffer, similar.drop (by decide), similar.length]

/-- What the logic server does with a whole packet of the gateway. -/
theorem onPacket_wholeBuffer (packet : List UInt8) :
    GameLogicServer.onPacket parseFromArray serverTypeGateway (wholeBuffer packet) =
      ((parseBody parseFromArray (wholeBuffer packet)).map fun data =>
        NetEvent.callLua (getHandlerId packet) (getEventType packet) (getSequenceId packet) (cStr data)).toList := by
  unfold GameLogicServer.onPacket
  cases parseBody parseFromArray (wholeBuffer packet) with
  | none => rfl
  | some data => exact if_pos (Or.inr rfl)

/-- Its calls are all for the handler id in the packet. -/
theorem callsOf_onPacket (packet : List UInt8) :
    callsOf uHandlerId (GameLogicServer.onPacket parseFromArray serverTypeGateway (wholeBuffer packet)) =
      if getHandlerId packet = uHandlerId then
        GameLogicServer.onPacket parseFromArray serverTypeGateway (wholeBuffer packet)
      else [] := by
  rw [onPacket_wholeBuffer]
  cases parseBody parseFromArray (wholeBuffer packet) with
  | none => exact (ite_self _).symm
  | some data =>
      by_cases own : getHandlerId packet = uHandlerId
      · rw [if_pos own]
        exact List.filter_cons_of_pos (decide_eq_true own)
      · rw [if_neg own]
        exact List.filter_cons_of_neg (by simpa [isCallOf] using own)

theorem callsOf_flatMap (packets : List (List UInt8)) :
    callsOf uHandlerId (packets.flatMap fun packet =>
        GameLogicServer.onPacket parseFromArray serverTypeGateway (wholeBuffer packet)) =
      (packets.filter fun packet => getHandlerId packet = uHandlerId).flatMap fun packet =>
        GameLogicServer.onPacket parseFromArray serverTypeGateway (wholeBuffer packet) := by
  induction packets with
  | nil => rfl
  | cons packet packets ih =>
      rw [List.flatMap_cons, callsOf_append, callsOf_onPacket, ih]
      by_cases own : getHandlerId packet = uHandlerId
      · rw [if_pos own, List.filter_cons_of_pos (by simpa using own), List.flatMap_cons]
      · rw [if_neg own, List.filter_cons_of_neg (by simpa using own), List.nil_append]

/-- The center server's packets are not called for as packets of clients. -/
theorem callsOf_eventsOf_center (uHandlerId : UInt32) (received chunk : List UInt8) :
    callsOf uHandlerId (eventsOf (GameLogicServer.onPacket parseFromArray serverTypeCenter) received chunk) = [] := by
  apply List.filter_eq_nil_iff.mpr
  intro event member
  obtain ⟨packet, -, called⟩ := List.mem_flatMap.mp member
  unfold GameLogicServer.onPacket at called
  split at called
  · exact absurd called List.not_mem_nil
  · rw [if_neg (by decide), if_pos rfl] at called
    rw [List.mem_singleton.mp called]
    exact Bool.false_ne_true

end Packets

/-! ## What the gateway writes to a server

The packets of one client, as they are written to the server that they are for.
-/

section Writes

variable (parseFromArray : List UInt8 → Option (List UInt8)) (connected : GatewayPeer → Bool)
variable (server : GatewayPeer) (uHandlerId : UInt32)

/-- A packet of the client as it is written to the server, if it is. -/
def forwardedTo (packet : List UInt8) : Option (List UInt8) :=
  (delivery (gatewayClients connected) parseFromArray uHandlerId packet).bind fun call =>
    if call.1 = some server then some call.2 else none

variable {parseFromArray connected server uHandlerId}

theorem writesTo_delivered (packets : List (List UInt8)) :
    writesTo server (packets.filterMap (delivery (gatewayClients connected) parseFromArray uHandlerId)) =
      packets.filterMap (forwardedTo parseFromArray connected server uHandlerId) := by
  rw [writesTo, List.filterMap_filterMap]
  rfl

theorem forwardedTo_some {packet written : List UInt8}
    (forwarded : forwardedTo parseFromArray connected server uHandlerId packet = some written) :
    checkNetPacket parseFromArray (wholeBuffer packet) = true ∧ written = stamped uHandlerId packet ∧
      (gatewayClients connected).getGatewayClient (getServerId written) = some server := by
  obtain ⟨call, delivered, toServer⟩ := Option.bind_eq_some_iff.mp forwarded
  rw [delivery] at delivered
  split at delivered
  · rename_i checked
    obtain ⟨client, found, isCall⟩ := Option.map_eq_some_iff.mp delivered
    subst isCall
    split at toServer
    · rename_i isServer
      cases toServer
      exact ⟨checked, rfl, found.trans isServer⟩
    · cases toServer
  · cases delivered

/-- The client object of a server is the one for its packets. -/
theorem getGatewayClient_some {uServerId : UInt16}
    (found : (gatewayClients connected).getGatewayClient uServerId = some server) :
    serverOf uServerId = some server ∧ connected server = true := by
  unfold GatewayClients.getGatewayClient gatewayClients at found
  unfold serverOf
  split at found
  · rename_i isLogin
    rw [if_pos isLogin]
    simp only at found
    split at found
    · cases found
      exact ⟨rfl, ‹_›⟩
    · cases found
  · rename_i notLogin
    rw [if_neg notLogin]
    split at found
    · rename_i isLogic
      rw [if_pos isLogic]
      simp only at found
      split at found
      · cases found
        exact ⟨rfl, ‹_›⟩
      · cases found
    · rename_i notLogic
      rw [if_neg notLogic]
      split at found
      · rename_i isRoom
        rw [if_pos isRoom]
        simp only at found
        split at found
        · cases found
          exact ⟨rfl, ‹_›⟩
        · cases found
      · cases found

end Writes

/-! ## Sessions and servers

`SessionFed` is about the gateway and its client, `ServerFed` about a server and the gateway.
-/

section Parties

variable (parseFromArray : List UInt8 → Option (List UInt8)) (connected : GatewayPeer → Bool)

/-- The session has been fed what has come from its client, and there was a server for each packet in it. -/
structure SessionFed (uHandlerId : UInt32) (p : KNetPackage) (arrived : List UInt8) : Prop where
  idle : Idle p
  held : p.received = (netFrame.feed [] arrived).1
  backend : ∀ packet ∈ (netFrame.feed [] arrived).2,
    HasBackend (gatewayClients connected) parseFromArray uHandlerId packet

/-- The server has been fed the bytes it has taken of the packets written to it, and has called its scripts for the handler
ids of clients as these lead to. -/
structure ServerFed (sent : List (List UInt8)) (taken : Nat) (p : KNetPackage) (calls : List NetEvent) : Prop where
  bound : taken ≤ (linkBytes sent).length
  idle : Idle p
  held : p.received = (netFrame.feed [] ((linkBytes sent).take taken)).1
  called : ∀ uHandlerId, callsOf uHandlerId calls = callsOf uHandlerId
    (eventsOf (GameLogicServer.onPacket parseFromArray serverTypeGateway) [] ((linkBytes sent).take taken))

/-- What is written to the servers are whole packets, and those with the handler id of a session are the packets of
its client. -/
structure Uplink (s : Relay) : Prop where
  sessions : ∀ uHandlerId, SessionFed parseFromArray connected uHandlerId (s.sessions uHandlerId) (s.arrived uHandlerId)
  whole : ∀ server, ∀ packet ∈ s.sent server, netFrame.Complete packet
  own : ∀ server uHandlerId, uHandlerId ≠ 0 →
    (s.sent server).filter (fun packet => getHandlerId packet = uHandlerId) =
      (netFrame.feed [] (s.arrived uHandlerId)).2.filterMap (forwardedTo parseFromArray connected server uHandlerId)
  servers : ∀ server, ServerFed parseFromArray (s.sent server) (s.taken server) (s.servers server) (s.calls server)

variable {parseFromArray connected}

theorem SessionFed.step {uHandlerId : UInt32} {p q : KNetPackage} {arrived chunk : List UInt8} {events : List NetEvent}
    (fed : SessionFed parseFromArray connected uHandlerId p arrived)
    (returns : TCPSession.processNetData parseFromArray uHandlerId p chunk = some (q, events))
    (noNull : ¬ ∃ call ∈ transfers (gatewayClients connected) events, call.1 = none) :
    SessionFed parseFromArray connected uHandlerId q (arrived ++ chunk) ∧
      transfers (gatewayClients connected) events =
        (netFrame.feed (netFrame.feed [] arrived).1 chunk).2.filterMap
          (delivery (gatewayClients connected) parseFromArray uHandlerId) := by
  obtain ⟨handled, idle, held⟩ := processNetData_eq_some _ fed.idle returns
  rw [fed.held] at handled held
  have backend : ∀ packet ∈ (netFrame.feed (netFrame.feed [] arrived).1 chunk).2,
      HasBackend (gatewayClients connected) parseFromArray uHandlerId packet := by
    intro packet member
    by_contra missing
    obtain ⟨pBuffer, called⟩ := null_of_not_hasBackend member missing
    rw [handled] at noNull
    exact noNull ⟨_, called, rfl⟩
  refine ⟨⟨idle, ?_, ?_⟩, ?_⟩
  · rw [held, netFrame.feed_append]
  · intro packet member
    rw [netFrame.feed_append] at member
    cases List.mem_append.mp member with
    | inl before => exact fed.backend packet before
    | inr now => exact backend packet now
  · rw [handled]
    exact transfers_of_hasBackend backend

/-- Packets that are written later do not change what has been taken. -/
theorem ServerFed.more {sent : List (List UInt8)} {taken : Nat} {p : KNetPackage} {calls : List NetEvent}
    (fed : ServerFed parseFromArray sent taken p calls) (later : List (List UInt8)) :
    ServerFed parseFromArray (sent ++ later) taken p calls := by
  have same : (linkBytes (sent ++ later)).take taken = (linkBytes sent).take taken := by
    rw [linkBytes_append, List.take_append_of_le_length fed.bound]
  refine ⟨?_, fed.idle, same ▸ fed.held, fun uHandlerId => ?_⟩
  swap
  · rw [same]
    exact fed.called uHandlerId
  rw [linkBytes_append, List.length_append]
  exact Nat.le_add_right_of_le fed.bound

theorem ServerFed.step {sent : List (List UInt8)} {taken : Nat} {p q : KNetPackage} {calls events : List NetEvent}
    (fed : ServerFed parseFromArray sent taken p calls) {n : Nat}
    (returns : GameLogicServer.processNetData parseFromArray serverTypeGateway p
      (((linkBytes sent).drop taken).take n) = some (q, events)) :
    ServerFed parseFromArray sent (taken + (((linkBytes sent).drop taken).take n).length) q (calls ++ events) := by
  have bound := fed.bound
  obtain ⟨handled, idle, held⟩ := processNetData_eq_some _ fed.idle returns
  have together : (linkBytes sent).take (taken + (((linkBytes sent).drop taken).take n).length) =
      (linkBytes sent).take taken ++ ((linkBytes sent).drop taken).take n := by
    rw [List.take_add, List.length_take, ← List.take_eq_take_min]
  refine ⟨?_, idle, ?_, ?_⟩
  · rw [List.length_take, List.length_drop]
    omega
  · rw [held, fed.held, together, netFrame.feed_append]
  · intro uHandlerId
    rw [callsOf_append, handled, fed.called, fed.held, together, eventsOf_append, callsOf_append]

/-- Whole packets of the center server between the packets of the gateway change nothing for the clients. -/
theorem ServerFed.center {sent : List (List UInt8)} {taken : Nat} {p q : KNetPackage} {calls events : List NetEvent}
    (fed : ServerFed parseFromArray sent taken p calls) {chunk : List UInt8} (between : p.received = [])
    (whole : (netFrame.feed [] chunk).1 = [])
    (returns : GameLogicServer.processNetData parseFromArray serverTypeCenter p chunk = some (q, events)) :
    ServerFed parseFromArray sent taken q (calls ++ events) := by
  obtain ⟨handled, idle, held⟩ := processNetData_eq_some _ fed.idle returns
  rw [between, whole] at held
  refine ⟨fed.bound, idle, ?_, fun uHandlerId => ?_⟩
  · exact (held.trans between.symm).trans fed.held
  · have none : callsOf uHandlerId events = [] := by
      rw [handled]
      exact callsOf_eventsOf_center uHandlerId _ chunk
    rw [callsOf_append, none, List.append_nil]
    exact fed.called uHandlerId

end Parties

/-! ## What is written

Every packet that the gateway writes fits into a buffer of the server, and leads to the call that it was written for.
-/

section Written

variable {parseFromArray : List UInt8 → Option (List UInt8)} {serializeToString : List UInt8 → List UInt8}
variable {connected : GatewayPeer → Bool} {server : GatewayPeer} {uHandlerId : UInt32}

/-- A packet of a client goes to the server whole, with the handler id of the session. -/
theorem forwardedTo_whole (rejects : parseFromArray [] = none) {packet written : List UInt8}
    (whole : netFrame.Complete packet)
    (forwarded : forwardedTo parseFromArray connected server uHandlerId packet = some written) :
    netFrame.Complete written ∧ getHandlerId written = uHandlerId := by
  obtain ⟨checked, rfl, -⟩ := forwardedTo_some forwarded
  have long := length_of_checked rejects checked
  exact ⟨(sameButHandlerId_stamped long).complete_iff.mp whole, getHandlerId_stamped long⟩

/-- A server calls its scripts for a packet that is written to it as the client has asked. -/
theorem onPacket_forwarded (rejects : parseFromArray [] = none) {packet written : List UInt8}
    (forwarded : forwardedTo parseFromArray connected server uHandlerId packet = some written) :
    GameLogicServer.onPacket parseFromArray serverTypeGateway (wholeBuffer written) =
      (request parseFromArray server uHandlerId packet).toList := by
  obtain ⟨checked, rfl, found⟩ := forwardedTo_some forwarded
  have long := length_of_checked rejects checked
  have similar : SameButHandlerId packet (stamped uHandlerId packet) := sameButHandlerId_stamped long
  have serverId : getServerId packet = getServerId (stamped uHandlerId packet) :=
    congrArg UInt16.ofNat (similar.field (Or.inr (by decide)))
  have eventType : getEventType packet = getEventType (stamped uHandlerId packet) :=
    congrArg UInt32.ofNat (similar.field (Or.inl (by decide)))
  have sequenceId : getSequenceId packet = getSequenceId (stamped uHandlerId packet) :=
    congrArg UInt16.ofNat (similar.field (Or.inr (by decide)))
  have handlerId : getHandlerId (stamped uHandlerId packet) = uHandlerId := getHandlerId_stamped long
  rw [onPacket_wholeBuffer, request, serverId, if_pos (getGatewayClient_some found).1, similar.parseBody, eventType,
    sequenceId, handlerId]

/-- A packet that is not written to the server is not for it, or it does not parse. -/
theorem request_of_not_forwarded {packet : List UInt8} (rejects : parseFromArray [] = none)
    (backend : HasBackend (gatewayClients connected) parseFromArray uHandlerId packet)
    (dropped : forwardedTo parseFromArray connected server uHandlerId packet = none) :
    request parseFromArray server uHandlerId packet = none := by
  unfold request
  by_cases checked : checkNetPacket parseFromArray (wholeBuffer packet) = true
  · have long := length_of_checked rejects checked
    have similar : SameButHandlerId packet (stamped uHandlerId packet) := sameButHandlerId_stamped long
    have serverId : getServerId packet = getServerId (stamped uHandlerId packet) :=
      congrArg UInt16.ofNat (similar.field (Or.inr (by decide)))
    obtain ⟨client, found⟩ := Option.isSome_iff_exists.mp (backend checked)
    have other : client ≠ server := by
      intro same
      rw [forwardedTo, delivery, if_pos checked, found, same] at dropped
      simp at dropped
    rw [serverId, (getGatewayClient_some found).1, if_neg (by simpa using other)]
  · have noBody : parseBody parseFromArray (wholeBuffer packet) = none := by
      simpa [checkNetPacket] using checked
    rw [noBody, Option.map_none, ite_self]

/-- The calls for the packets that are written for a client are what it has asked for. -/
theorem calls_of_forwarded (rejects : parseFromArray [] = none) {packets : List (List UInt8)}
    (backend : ∀ packet ∈ packets, HasBackend (gatewayClients connected) parseFromArray uHandlerId packet) :
    ((packets.filterMap (forwardedTo parseFromArray connected server uHandlerId)).flatMap fun packet =>
        GameLogicServer.onPacket parseFromArray serverTypeGateway (wholeBuffer packet)) =
      packets.filterMap (request parseFromArray server uHandlerId) := by
  induction packets with
  | nil => rfl
  | cons packet packets ih =>
      rw [List.forall_mem_cons] at backend
      cases forwarded : forwardedTo parseFromArray connected server uHandlerId packet with
      | none =>
          rw [List.filterMap_cons_none forwarded, ih backend.2,
            List.filterMap_cons_none (request_of_not_forwarded rejects backend.1 forwarded)]
      | some written =>
          rw [List.filterMap_cons_some forwarded, List.flatMap_cons, ih backend.2,
            onPacket_forwarded rejects forwarded]
          cases asked : request parseFromArray server uHandlerId packet with
          | none => rw [List.filterMap_cons_none asked, Option.toList_none, List.nil_append]
          | some call => rw [List.filterMap_cons_some asked, Option.toList_some, List.singleton_append]

/-- The packet of a notice, by its fields. -/
def noticeOf (serializeToString : List UInt8 → List UInt8) (uHandlerId : UInt32) : NetPackage :=
  ⟨uUserDisconnect, 0, 0, 2, 0, serializeToString (noticeText uHandlerId)⟩

theorem length_noticeText_le (uHandlerId : UInt32) : (noticeText uHandlerId).length ≤ 13 := by
  have range := uHandlerId.toNat_lt
  rw [length_noticeText]
  unfold decimal asInt
  by_cases small : uHandlerId.toNat < 2 ^ 31
  · have digits := Nat.length_toDigits_le_iff (b := 10) (n := uHandlerId.toNat) (k := 10) (by decide) (by decide)
    rw [if_pos small, if_neg (by omega)]
    simp only [Int.toNat_natCast, Nat.toList_repr]
    omega
  · have digits := Nat.length_toDigits_le_iff (b := 10) (n := 2 ^ 32 - uHandlerId.toNat) (k := 10) (by decide) (by decide)
    have negated : (-((uHandlerId.toNat : Int) - 2 ^ 32)).toNat = 2 ^ 32 - uHandlerId.toNat := by omega
    rw [if_neg small, if_pos (by omega), negated]
    simp only [Nat.toList_repr, List.length_cons]
    omega

/-- A message is at most a tag and a length longer than its data, so the packet of a notice is small. -/
theorem noticeOf_fits (small : ∀ data, (serializeToString data).length ≤ data.length + 11) (uHandlerId : UInt32) :
    (noticeOf serializeToString uHandlerId).Fits := by
  have text := length_noticeText_le uHandlerId
  have body := small (noticeText uHandlerId)
  change kdPackageHeaderSize + (serializeToString (noticeText uHandlerId)).length < packetSizeLimit
  calc kdPackageHeaderSize + (serializeToString (noticeText uHandlerId)).length ≤ kdPackageHeaderSize + 24 := by omega
    _ < packetSizeLimit := by decide

/-- The notices of the gateway are whole packets with the handler id 0. -/
theorem writesTo_notice (fits : (noticeOf serializeToString uHandlerId).Fits) :
    ∀ packet ∈ writesTo server (notifyUserSocketDisconnect serializeToString (gatewayClients connected) uHandlerId),
      netFrame.Complete packet ∧ getHandlerId packet = 0 := by
  intro packet member
  obtain ⟨call, called, written⟩ := List.mem_filterMap.mp member
  have isNotice : call.2 = (noticeOf serializeToString uHandlerId).encode := by
    unfold notifyUserSocketDisconnect notifyLogicServer at called
    split at called
    · rw [List.mem_singleton.mp called]
      rfl
    · exact absurd called List.not_mem_nil
  obtain ⟨-, isPacket⟩ := Option.ite_none_right_eq_some.mp written
  cases isPacket
  rw [isNotice]
  exact ⟨encode_complete fits, getHandlerId_encode _⟩

end Written

/-! ## Runs

A server has made, for each client, the first of the calls that the client's packets ask for; all of them, once it has
read everything.
-/

section Runs

variable {parseFromArray : List UInt8 → Option (List UInt8)} {serializeToString : List UInt8 → List UInt8}
variable {connected : GatewayPeer → Bool}

theorem uplink_init (isOpen : UInt32 → Bool) : Uplink parseFromArray connected (Relay.init isOpen) where
  sessions _ := ⟨fresh_idle, rfl, fun _ member => absurd member List.not_mem_nil⟩
  whole _ _ member := absurd member List.not_mem_nil
  own _ _ _ := rfl
  servers _ := ⟨Nat.zero_le _, fresh_idle, rfl, fun _ => rfl⟩

/-- A notice is not taken for a packet of a client. -/
theorem Uplink.notice {s : Relay} (up : Uplink parseFromArray connected s) {uHandlerId : UInt32}
    (fits : (noticeOf serializeToString uHandlerId).Fits) :
    Uplink parseFromArray connected
      (s.transfer (notifyUserSocketDisconnect serializeToString (gatewayClients connected) uHandlerId)) where
  sessions := up.sessions
  whole server packet member := by
    cases List.mem_append.mp member with
    | inl before => exact up.whole server packet before
    | inr notice => exact (writesTo_notice fits packet notice).1
  own server id nonzero := by
    have none : (writesTo server (notifyUserSocketDisconnect serializeToString (gatewayClients connected)
        uHandlerId)).filter (fun packet => getHandlerId packet = id) = [] := by
      apply List.filter_eq_nil_iff.mpr
      intro packet member
      rw [(writesTo_notice fits packet member).2, decide_eq_true_eq]
      exact Ne.symm nonzero
    change (s.sent server ++ _).filter _ = _
    rw [List.filter_append, none, List.append_nil]
    exact up.own server id nonzero
  servers server := (up.servers server).more _

theorem Uplink.transferToClient {s : Relay} (up : Uplink parseFromArray connected s)
    (noticeFits : ∀ uHandlerId, (noticeOf serializeToString uHandlerId).Fits) (server : GatewayPeer) (event : NetEvent) :
    Uplink parseFromArray connected (s.transferToClient serializeToString connected server event) := by
  cases event with
  | transferToClient uHandlerId pBuffer =>
      simp only [Relay.transferToClient]
      split
      · exact ⟨up.sessions, up.whole, up.own, up.servers⟩
      · exact up.notice (noticeFits uHandlerId)
  | transferToLogicServer uServerId pBuffer => exact up
  | transferToServer uServerType pBuffer => exact up
  | callLua uHandlerId uEventType uSequenceId pParam => exact up
  | callCenterRequestLua uHandlerId uEventType uSequenceId pParam => exact up

theorem Uplink.transferAll {s : Relay} (up : Uplink parseFromArray connected s)
    (noticeFits : ∀ uHandlerId, (noticeOf serializeToString uHandlerId).Fits) (server : GatewayPeer)
    (events : List NetEvent) :
    Uplink parseFromArray connected
      (events.foldl (fun s event => s.transferToClient serializeToString connected server event) s) := by
  induction events generalizing s with
  | nil => exact up
  | cons event events ih => exact ih (up.transferToClient noticeFits server event)

/-- A read callback of a client. -/
theorem Uplink.clientData (rejects : parseFromArray [] = none) {s : Relay} (up : Uplink parseFromArray connected s)
    {uHandlerId : UInt32} {chunk : List UInt8} {q : KNetPackage} {events : List NetEvent}
    (returns : TCPSession.processNetData parseFromArray uHandlerId (s.sessions uHandlerId) chunk = some (q, events))
    (noNull : ¬ ∃ call ∈ transfers (gatewayClients connected) events, call.1 = none) :
    Uplink parseFromArray connected
      { s.transfer (transfers (gatewayClients connected) events) with
        sessions := Function.update s.sessions uHandlerId q
        arrived := Function.update s.arrived uHandlerId (s.arrived uHandlerId ++ chunk) } := by
  obtain ⟨fed, delivered⟩ := (up.sessions uHandlerId).step returns noNull
  let packets := (netFrame.feed (netFrame.feed [] (s.arrived uHandlerId)).1 chunk).2
  have writes : ∀ server, writesTo server (transfers (gatewayClients connected) events) =
      packets.filterMap (forwardedTo parseFromArray connected server uHandlerId) := by
    intro server
    rw [delivered, writesTo_delivered]
  have whole : ∀ server, ∀ packet ∈ writesTo server (transfers (gatewayClients connected) events),
      netFrame.Complete packet ∧ getHandlerId packet = uHandlerId := by
    intro server packet member
    rw [writes server] at member
    obtain ⟨clientPacket, received, forwarded⟩ := List.mem_filterMap.mp member
    exact forwardedTo_whole rejects (netFrame.feed_snd_complete _ _ clientPacket received) forwarded
  refine ⟨?_, ?_, ?_, ?_⟩
  · intro id
    by_cases same : id = uHandlerId
    · subst same
      simpa using fed
    · simpa [Function.update_of_ne same] using up.sessions id
  · intro server packet member
    cases List.mem_append.mp member with
    | inl before => exact up.whole server packet before
    | inr now => exact (whole server packet now).1
  · intro server id nonzero
    change (s.sent server ++ writesTo server _).filter _ =
      (netFrame.feed [] (Function.update s.arrived uHandlerId (s.arrived uHandlerId ++ chunk) id)).2.filterMap _
    rw [List.filter_append, up.own server id nonzero]
    by_cases same : id = uHandlerId
    · subst same
      have all : (writesTo server (transfers (gatewayClients connected) events)).filter
          (fun packet => getHandlerId packet = id) = writesTo server (transfers (gatewayClients connected) events) := by
        apply List.filter_eq_self.mpr
        intro packet member
        exact decide_eq_true (whole server packet member).2
      rw [all, writes server, Function.update_self, netFrame.feed_append, List.filterMap_append]
    · have none : (writesTo server (transfers (gatewayClients connected) events)).filter
          (fun packet => getHandlerId packet = id) = [] := by
        apply List.filter_eq_nil_iff.mpr
        intro packet member
        rw [(whole server packet member).2, decide_eq_true_eq]
        exact Ne.symm same
      rw [none, List.append_nil, Function.update_of_ne same]
  · intro server
    exact (up.servers server).more _

/-- A server reads from the center server between two packets of the gateway, and whole packets. -/
def WholeFromCenter (s : Relay) : RelayAction → Prop
  | .centerData server chunk => (s.servers server).received = [] ∧ (netFrame.feed [] chunk).1 = []
  | _ => True

instance (s : Relay) (action : RelayAction) : Decidable (WholeFromCenter s action) :=
  match action with
  | .centerData _ _ => inferInstanceAs (Decidable (_ ∧ _))
  | .clientData _ _ => isTrue trivial
  | .clientGone _ => isTrue trivial
  | .serverData _ _ => isTrue trivial
  | .serverSends _ _ => isTrue trivial
  | .gatewayData _ _ => isTrue trivial

/-- Every step keeps the requests in order. -/
theorem Uplink.step (rejects : parseFromArray [] = none)
    (noticeFits : ∀ uHandlerId, (noticeOf serializeToString uHandlerId).Fits) {s s' : Relay} {action : RelayAction}
    (up : Uplink parseFromArray connected s) (center : WholeFromCenter s action)
    (step : relayStep parseFromArray serializeToString connected s action = some s') :
    Uplink parseFromArray connected s' := by
  cases action with
  | clientData uHandlerId chunk =>
      obtain ⟨-, step⟩ := Option.ite_none_right_eq_some.mp step
      obtain ⟨⟨q, events⟩, returns, step⟩ := Option.bind_eq_some_iff.mp step
      obtain ⟨noNull, step⟩ := Option.ite_none_left_eq_some.mp step
      cases step
      exact up.clientData rejects returns noNull
  | clientGone uHandlerId =>
      cases step
      exact ⟨up.sessions, up.whole, up.own, up.servers⟩
  | serverData server n =>
      obtain ⟨⟨q, events⟩, returns, step⟩ := Option.bind_eq_some_iff.mp step
      cases step
      have fed := (up.servers server).step returns
      refine ⟨up.sessions, up.whole, up.own, fun other => ?_⟩
      by_cases same : other = server
      · subst same
        simpa using fed
      · simpa [Function.update_of_ne same] using up.servers other
  | centerData server chunk =>
      obtain ⟨⟨q, events⟩, returns, step⟩ := Option.bind_eq_some_iff.mp step
      cases step
      have fed := (up.servers server).center center.1 center.2 returns
      refine ⟨up.sessions, up.whole, up.own, fun other => ?_⟩
      by_cases same : other = server
      · subst same
        simpa using fed
      · simpa [Function.update_of_ne same] using up.servers other
  | serverSends server packet =>
      cases step
      exact ⟨up.sessions, up.whole, up.own, up.servers⟩
  | gatewayData server n =>
      obtain ⟨⟨q, events⟩, -, step⟩ := Option.bind_eq_some_iff.mp step
      cases step
      have after := up.transferAll noticeFits server events
      exact ⟨after.sessions, after.whole, after.own, after.servers⟩

/-- What a server has been called for is the beginning of what the client has asked for. -/
theorem Uplink.calls_prefix {s : Relay} (rejects : parseFromArray [] = none) (up : Uplink parseFromArray connected s)
    (server : GatewayPeer) {uHandlerId : UInt32} (nonzero : uHandlerId ≠ 0) :
    callsOf uHandlerId (s.calls server) <+:
        (netFrame.feed [] (s.arrived uHandlerId)).2.filterMap (request parseFromArray server uHandlerId) ∧
      (s.taken server = (linkBytes (s.sent server)).length →
        callsOf uHandlerId (s.calls server) =
          (netFrame.feed [] (s.arrived uHandlerId)).2.filterMap (request parseFromArray server uHandlerId)) := by
  have fed := up.servers server
  -- the calls for all that is written, whether or not it is taken already
  have all : callsOf uHandlerId (eventsOf (GameLogicServer.onPacket parseFromArray serverTypeGateway) []
      (linkBytes (s.sent server))) =
      (netFrame.feed [] (s.arrived uHandlerId)).2.filterMap (request parseFromArray server uHandlerId) := by
    unfold eventsOf linkBytes
    rw [netFrame.feed_flatten (up.whole server), callsOf_flatMap, up.own server uHandlerId nonzero,
      calls_of_forwarded rejects (up.sessions uHandlerId).backend]
  constructor
  · rw [← all, fed.called uHandlerId]
    conv_rhs => rw [← List.take_append_drop (s.taken server) (linkBytes (s.sent server)), eventsOf_append,
      callsOf_append]
    exact List.prefix_append _ _
  · intro everything
    rw [← all, fed.called uHandlerId, everything, List.take_length]

variable (serializeToString) in
/-- A server that reads all that is on its way to it returns. -/
theorem Uplink.reads_all {s : Relay} (up : Uplink parseFromArray connected s) (server : GatewayPeer)
    (small : (linkBytes (s.sent server)).length - s.taken server < 2 ^ 32) :
    ∃ t, relayStep parseFromArray serializeToString connected s
        (.serverData server ((linkBytes (s.sent server)).length - s.taken server)) = some t ∧
      t.arrived = s.arrived ∧ t.taken server = (linkBytes (t.sent server)).length := by
  have fed := up.servers server
  have chunk : ((linkBytes (s.sent server)).drop (s.taken server)).take
      ((linkBytes (s.sent server)).length - s.taken server) = (linkBytes (s.sent server)).drop (s.taken server) :=
    List.take_of_length_le (Nat.le_of_eq List.length_drop)
  have cut : (s.sent server).flatten = (linkBytes (s.sent server)).take (s.taken server) ++
      ((linkBytes (s.sent server)).drop (s.taken server) ++ []) := by
    rw [List.append_nil, List.take_append_drop]
    rfl
  have free : ¬ StallsIn (s.servers server).received ((linkBytes (s.sent server)).drop (s.taken server)) := by
    rw [fed.held]
    exact not_stallsIn_of_packets (up.whole server) cut (by rwa [List.length_drop])
  obtain ⟨q, returns, -⟩ :=
    processNetData_of_free (GameLogicServer.onPacket parseFromArray serverTypeGateway) fed.idle free
  have processed : GameLogicServer.processNetData parseFromArray serverTypeGateway (s.servers server)
      ((linkBytes (s.sent server)).drop (s.taken server)) = some (q, _) := returns
  have step : ∃ t, relayStep parseFromArray serializeToString connected s
      (.serverData server ((linkBytes (s.sent server)).length - s.taken server)) = some t ∧ t.arrived = s.arrived ∧
        t.sent = s.sent ∧
        t.taken server = s.taken server + ((linkBytes (s.sent server)).drop (s.taken server)).length := by
    simp only [relayStep, chunk, processed, Option.bind_eq_bind, Option.bind_some]
    exact ⟨_, rfl, rfl, rfl, Function.update_self ..⟩
  obtain ⟨t, step, arrived, sent, taken⟩ := step
  refine ⟨t, step, arrived, ?_⟩
  rw [taken, sent, List.length_drop, Nat.add_sub_cancel' fed.bound]

end Runs

/-- What the client of a session has asked of a server. -/
def Relay.requests (parseFromArray : List UInt8 → Option (List UInt8)) (s : Relay) (server : GatewayPeer)
    (uHandlerId : UInt32) : List NetEvent :=
  (netFrame.feed [] (s.arrived uHandlerId)).2.filterMap (request parseFromArray server uHandlerId)

/-- In every run of the gateway with its clients and servers, however the bytes are cut and the read callbacks follow
one another: a server has been called for the handler id of a client for the first requests of that client to it, in
order, each once; and when it reads what is on its way, it has been called for all of them.  A server has to read the
packets of the center server whole and between those of the gateway, as it receives both in one `m_pRecvPacket`. -/
theorem requests_in_order (parseFromArray : List UInt8 → Option (List UInt8)) (serializeToString : List UInt8 → List UInt8)
    (connected : GatewayPeer → Bool) (isOpen : UInt32 → Bool) (rejects : parseFromArray [] = none)
    (small : ∀ data, (serializeToString data).length ≤ data.length + 11) {actions : List RelayAction} {s : Relay}
    (center : Guarded (relayStep parseFromArray serializeToString connected) WholeFromCenter (Relay.init isOpen) actions)
    (run : runSteps (relayStep parseFromArray serializeToString connected) (Relay.init isOpen) actions = some s)
    (server : GatewayPeer) {uHandlerId : UInt32} (nonzero : uHandlerId ≠ 0) :
    callsOf uHandlerId (s.calls server) <+: s.requests parseFromArray server uHandlerId ∧
      ((linkBytes (s.sent server)).length - s.taken server < 2 ^ 32 →
        ∃ t, relayStep parseFromArray serializeToString connected s
            (.serverData server ((linkBytes (s.sent server)).length - s.taken server)) = some t ∧
          callsOf uHandlerId (t.calls server) = s.requests parseFromArray server uHandlerId) := by
  have up : Uplink parseFromArray connected s :=
    guarded_invariant (fun _ _ _ up center step => up.step rejects (noticeOf_fits small) center step) (uplink_init isOpen)
      center run
  refine ⟨(up.calls_prefix rejects server nonzero).1, fun few => ?_⟩
  obtain ⟨t, step, arrived, everything⟩ := up.reads_all serializeToString server few
  have own : WholeFromCenter s (.serverData server ((linkBytes (s.sent server)).length - s.taken server)) := trivial
  have upNext : Uplink parseFromArray connected t := up.step rejects (noticeOf_fits small) own step
  refine ⟨t, step, ?_⟩
  rw [(upNext.calls_prefix rejects server nonzero).2 everything, arrived]
  rfl

/-- `SerializeToString` of a message whose `data` has less than 128 bytes. -/
def serializeShortData (data : List UInt8) : List UInt8 := 10 :: UInt8.ofNat data.length :: data

/-- A packet to the login server in two chunks, a packet of another client between them, and reads of the server for the
gateway and the center server. -/
def twoClientsTalk : List RelayAction :=
  [.clientData 7 [23, 0, 0, 0, 5, 0, 0, 0, 0, 0, 0, 0, 9, 0],
    .clientData 8 [23, 0, 0, 0, 6, 0, 0, 0, 0, 0, 0, 0, 9, 0, 0, 0, 1, 0, 4, 0, 10, 1, 66],
    .clientData 7 [0, 0, 1, 0, 3, 0, 10, 1, 65],
    .serverData .login 23, .centerData .login [23, 0, 0, 0, 6, 0, 0, 0, 7, 0, 0, 0, 1, 0, 0, 0, 0, 0, 4, 0, 10, 1, 67],
    .serverData .login 7, .clientGone 8, .serverData .login 5]

theorem requests_in_order_twoClientsTalk :
    ∃ s, runSteps (relayStep parseShortData serializeShortData fun _ => true)
        (Relay.init fun id => decide (id = 7 ∨ id = 8)) twoClientsTalk = some s ∧
      callsOf 7 (s.calls .login) <+: s.requests parseShortData .login 7 ∧
      ((linkBytes (s.sent .login)).length - s.taken .login < 2 ^ 32 →
        ∃ t, relayStep parseShortData serializeShortData (fun _ => true) s
            (.serverData .login ((linkBytes (s.sent .login)).length - s.taken .login)) = some t ∧
          callsOf 7 (t.calls .login) = s.requests parseShortData .login 7) := by
  have returns : (runSteps (relayStep parseShortData serializeShortData fun _ => true)
      (Relay.init fun id => decide (id = 7 ∨ id = 8)) twoClientsTalk).isSome = true := by decide +kernel
  obtain ⟨s, run⟩ := Option.isSome_iff_exists.mp returns
  have center : Guarded (relayStep parseShortData serializeShortData fun _ => true) WholeFromCenter
      (Relay.init fun id => decide (id = 7 ∨ id = 8)) twoClientsTalk := by decide +kernel
  have small : ∀ data, (serializeShortData data).length ≤ data.length + 11 := by
    intro data
    change data.length + 1 + 1 ≤ _
    omega
  exact ⟨s, run, requests_in_order parseShortData serializeShortData _ _ rfl small center run .login (by decide)⟩

end GameServer.Net
