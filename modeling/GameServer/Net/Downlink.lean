/-
Module: GameServer.Net.Downlink
Purpose: From the scripts of the servers to the clients: while no packet of a server is cut by a chunk of another one,
  each client is sent what the servers have answered it, in the order of each server.
Trusted boundary: as for the relay
Main exports: OwnAnswers, Downlink, Downlink.step, answers_in_order
-/
import GameServer.Net.Relay

namespace GameServer.Net

open Lib KNetPackage

/-! ## Answers

What a client should get: the packets with its handler id, each server's in their order.
-/

/-- The packet that an event of the gateway is for the client with the handler id. -/
def packetFor (uHandlerId : UInt32) : NetEvent → Option (List UInt8)
  | .transferToClient id pBuffer => if id = uHandlerId then some pBuffer else none
  | _ => none

/-- The same with the server that it comes from. -/
def toClient (uHandlerId : UInt32) (event : GatewayPeer × NetEvent) : Option (GatewayPeer × List UInt8) :=
  (packetFor uHandlerId event.2).map fun pBuffer => (event.1, pBuffer)

/-- The packets from one server. -/
def writtenFrom (server : GatewayPeer) (written : List (GatewayPeer × List UInt8)) : List (List UInt8) :=
  written.filterMap fun packet => if packet.1 = server then some packet.2 else none

/-- The bytes that a server has sent to the gateway. -/
def Relay.answerBytes (s : Relay) (server : GatewayPeer) : List UInt8 :=
  linkBytes ((s.answers server).map NetPackage.encode)

/-- What a server has answered the client with the handler id. -/
def Relay.answersTo (s : Relay) (server : GatewayPeer) (uHandlerId : UInt32) : List (List UInt8) :=
  ((s.answers server).filter fun packet => packet.uHandlerId = uHandlerId).map NetPackage.encode

/-- The bytes that the gateway reads with `n` bytes from a server. -/
def Relay.answerChunk (s : Relay) (server : GatewayPeer) (n : Nat) : List UInt8 :=
  ((s.answerBytes server).drop (s.returned server)).take n

/-- A server sends packets whose buffer can be made, and the gateway does not read from it within a packet of another
one. -/
def OwnAnswers (s : Relay) : RelayAction → Prop
  | .serverSends _ packet => packet.Fits
  | .gatewayData server n => OwnChunk s.gateway (server, s.answerChunk server n)
  | _ => True

instance (s : Relay) (action : RelayAction) : Decidable (OwnAnswers s action) :=
  match action with
  | .serverSends _ packet => inferInstanceAs (Decidable packet.Fits)
  | .gatewayData server n => inferInstanceAs (Decidable (OwnChunk s.gateway (server, s.answerChunk server n)))
  | .clientData _ _ => isTrue trivial
  | .clientGone _ => isTrue trivial
  | .serverData _ _ => isTrue trivial
  | .centerData _ _ => isTrue trivial

/-! ## What the gateway writes

A packet of a server is written to the client whose handler id it has, if the session is there.
-/

section Written

variable {serializeToString : List UInt8 → List UInt8} {connected : GatewayPeer → Bool}

/-- To write changes no session. -/
theorem transferToClient_isOpen (s : Relay) (server : GatewayPeer) (event : NetEvent) :
    (s.transferToClient serializeToString connected server event).isOpen = s.isOpen := by
  cases event with
  | transferToClient id pBuffer =>
      simp only [Relay.transferToClient]
      split <;> rfl
  | transferToLogicServer uServerId pBuffer => rfl
  | transferToServer uServerType pBuffer => rfl
  | callLua id uEventType uSequenceId pParam => rfl
  | callCenterRequestLua id uEventType uSequenceId pParam => rfl

theorem transferToClient_answers (s : Relay) (server : GatewayPeer) (event : NetEvent) :
    (s.transferToClient serializeToString connected server event).answers = s.answers := by
  cases event with
  | transferToClient id pBuffer =>
      simp only [Relay.transferToClient]
      split <;> rfl
  | transferToLogicServer uServerId pBuffer => rfl
  | transferToServer uServerType pBuffer => rfl
  | callLua id uEventType uSequenceId pParam => rfl
  | callCenterRequestLua id uEventType uSequenceId pParam => rfl

/-- One event: the client gets its packet while it is there. -/
theorem transferToClient_written (s : Relay) (server : GatewayPeer) (event : NetEvent) (uHandlerId : UInt32) :
    (s.transferToClient serializeToString connected server event).written uHandlerId =
      s.written uHandlerId ++ if s.isOpen uHandlerId then (toClient uHandlerId (server, event)).toList else [] := by
  cases event with
  | transferToClient id pBuffer =>
      by_cases own : id = uHandlerId
      · subst own
        simp only [Relay.transferToClient, toClient, packetFor, if_true]
        split
        · exact Function.update_self ..
        · exact (List.append_nil _).symm
      · have unchanged : (s.transferToClient serializeToString connected server
            (.transferToClient id pBuffer)).written uHandlerId = s.written uHandlerId := by
          simp only [Relay.transferToClient]
          split
          · exact Function.update_of_ne (Ne.symm own) ..
          · rfl
        simp [unchanged, toClient, packetFor, own]
  | transferToLogicServer uServerId pBuffer => simp [Relay.transferToClient, toClient, packetFor]
  | transferToServer uServerType pBuffer => simp [Relay.transferToClient, toClient, packetFor]
  | callLua id uEventType uSequenceId pParam => simp [Relay.transferToClient, toClient, packetFor]
  | callCenterRequestLua id uEventType uSequenceId pParam => simp [Relay.transferToClient, toClient, packetFor]

theorem transferAll_isOpen (server : GatewayPeer) (events : List NetEvent) (s : Relay) :
    (events.foldl (fun s event => s.transferToClient serializeToString connected server event) s).isOpen =
      s.isOpen := by
  induction events generalizing s with
  | nil => rfl
  | cons event events ih => exact (ih _).trans (transferToClient_isOpen s server event)

theorem transferAll_answers (server : GatewayPeer) (events : List NetEvent) (s : Relay) :
    (events.foldl (fun s event => s.transferToClient serializeToString connected server event) s).answers =
      s.answers := by
  induction events generalizing s with
  | nil => rfl
  | cons event events ih => exact (ih _).trans (transferToClient_answers s server event)

/-- Several packets, one after the other. -/
theorem transferAll_written (server : GatewayPeer) (uHandlerId : UInt32) (events : List NetEvent) (s : Relay) :
    (events.foldl (fun s event => s.transferToClient serializeToString connected server event) s).written uHandlerId =
      s.written uHandlerId ++ if s.isOpen uHandlerId then
        (events.map fun event => (server, event)).filterMap (toClient uHandlerId) else [] := by
  induction events generalizing s with
  | nil => simp
  | cons event events ih =>
      rw [List.foldl_cons, ih, transferToClient_written, transferToClient_isOpen, List.append_assoc]
      cases s.isOpen uHandlerId with
      | false => rfl
      | true =>
          rw [if_pos rfl, if_pos rfl, if_pos rfl, List.map_cons, List.filterMap_cons]
          cases toClient uHandlerId (server, event) <;> rfl

end Written

/-! ## What the gateway makes of the bytes of a server

Whole packets of the server, and those with the handler id of a client go to it.
-/

section Answers

variable {s : Relay} {server : GatewayPeer} {uHandlerId : UInt32}

/-- The packets from a server are those of its events. -/
theorem writtenFrom_dispatched (state : PeerState GatewayPeer) :
    writtenFrom server (state.dispatched.filterMap (toClient uHandlerId)) =
      (state.dispatchedFrom server).filterMap (packetFor uHandlerId) := by
  rw [writtenFrom, PeerState.dispatchedFrom, List.filterMap_filterMap, List.filterMap_filterMap]
  congr 1
  funext event
  by_cases own : event.1 = server
  · cases packet : packetFor uHandlerId event.2 <;> simp [toClient, own, packet]
  · cases packet : packetFor uHandlerId event.2 <;> simp [toClient, own, packet]

theorem packetFor_onPacket (nonzero : uHandlerId ≠ 0) (m : NetPackage) :
    (GatewayClient.onPacket (wholeBuffer m.encode)).filterMap (packetFor uHandlerId) =
      if m.uHandlerId = uHandlerId then [m.encode] else [] := by
  have handler : getHandlerId (wholeBuffer m.encode).pvData = m.uHandlerId := getHandlerId_encode m
  unfold GatewayClient.onPacket
  simp only [handler]
  by_cases positive : m.uHandlerId > 0
  · rw [if_pos positive]
    by_cases own : m.uHandlerId = uHandlerId
    · rw [if_pos own, ← own]
      exact List.filterMap_cons_some (if_pos rfl)
    · rw [if_neg own]
      simp [packetFor, own]
  · have zero : m.uHandlerId = 0 := UInt32.le_zero_iff.mp (UInt32.not_lt.mp positive)
    rw [if_neg positive, zero, if_neg (Ne.symm nonzero)]
    rfl

/-- All bytes of the server lead to what it has answered the client. -/
theorem answers_events (nonzero : uHandlerId ≠ 0) (fits : ∀ packet ∈ s.answers server, packet.Fits) :
    (eventsOf GatewayClient.onPacket [] (s.answerBytes server)).filterMap (packetFor uHandlerId) =
      s.answersTo server uHandlerId := by
  have stream : PeerStream (s.answerBytes server) (s.answers server) [] :=
    ⟨(List.append_nil _).symm, fits, Or.inl rfl⟩
  rw [stream.events, Relay.answersTo]
  induction s.answers server with
  | nil => rfl
  | cons m packets ih =>
      rw [List.flatMap_cons, List.filterMap_append, ih, packetFor_onPacket nonzero]
      by_cases own : m.uHandlerId = uHandlerId
      · rw [if_pos own, List.filter_cons_of_pos (by simpa using own), List.map_cons, List.singleton_append]
      · rw [if_neg own, List.filter_cons_of_neg (by simpa using own), List.nil_append]

end Answers

/-! ## Runs

Every client has been written what the servers answered it and the gateway read while it was there.
-/

section Runs

variable {parseFromArray : List UInt8 → Option (List UInt8)} {serializeToString : List UInt8 → List UInt8}
variable {connected : GatewayPeer → Bool}

/-- The gateway has read a beginning of what each server sent and keeps the servers apart, and each client has been
written what came for it while it was there. -/
structure Downlink (s : Relay) : Prop where
  fits : ∀ server, ∀ packet ∈ s.answers server, packet.Fits
  bound : ∀ server, s.returned server ≤ (s.answerBytes server).length
  read : ∀ server, bytesFrom server s.gateway.arrived = (s.answerBytes server).take (s.returned server)
  isolated : Isolated (fun _ => GatewayClient.onPacket) s.gateway
  written : ∀ uHandlerId, s.written uHandlerId <+: s.gateway.dispatched.filterMap (toClient uHandlerId)
  present : ∀ uHandlerId, s.isOpen uHandlerId = true →
    s.written uHandlerId = s.gateway.dispatched.filterMap (toClient uHandlerId)

theorem downlink_init (isOpen : UInt32 → Bool) : Downlink (Relay.init isOpen) where
  fits _ _ member := absurd member List.not_mem_nil
  bound _ := Nat.zero_le _
  read _ := rfl
  isolated := isolated_init _
  written _ := List.prefix_rfl
  present _ _ := rfl

/-- A packet that is sent later does not change what has been read. -/
theorem Downlink.sends {s : Relay} (down : Downlink s) (server : GatewayPeer) {packet : NetPackage} (fits : packet.Fits) :
    Downlink { s with answers := Function.update s.answers server (s.answers server ++ [packet]) } := by
  have longer : ∀ other, ∃ more,
      Relay.answerBytes { s with answers := Function.update s.answers server (s.answers server ++ [packet]) } other =
        s.answerBytes other ++ more := by
    intro other
    by_cases same : other = server
    · subst same
      refine ⟨packet.encode, ?_⟩
      simp [Relay.answerBytes, linkBytes]
    · refine ⟨[], ?_⟩
      simp [Relay.answerBytes, Function.update_of_ne same]
  refine ⟨?_, ?_, ?_, down.isolated, down.written, down.present⟩
  · intro other m member
    change m ∈ Function.update s.answers server (s.answers server ++ [packet]) other at member
    by_cases same : other = server
    · subst same
      rw [Function.update_self] at member
      cases List.mem_append.mp member with
      | inl before => exact down.fits other m before
      | inr last => exact List.mem_singleton.mp last ▸ fits
    · rw [Function.update_of_ne same] at member
      exact down.fits other m member
  · intro other
    obtain ⟨more, bytes⟩ := longer other
    rw [bytes, List.length_append]
    exact Nat.le_add_right_of_le (down.bound other)
  · intro other
    obtain ⟨more, bytes⟩ := longer other
    rw [bytes, List.take_append_of_le_length (down.bound other)]
    exact down.read other

/-- A read callback of the gateway for a server. -/
theorem Downlink.gatewayData {s t : Relay} (down : Downlink s) {server : GatewayPeer} {n : Nat} {q : KNetPackage}
    {events : List NetEvent} (own : OwnChunk s.gateway (server, s.answerChunk server n))
    (returns : GatewayClient.processNetData s.gateway.m_pRecvPacket (s.answerChunk server n) = some (q, events))
    (isOpen : t.isOpen = s.isOpen) (answers : t.answers = s.answers)
    (gateway : t.gateway =
      { m_pRecvPacket := q
        arrived := s.gateway.arrived ++ [(server, s.answerChunk server n)]
        dispatched := s.gateway.dispatched ++ events.map fun event => (server, event) })
    (returned : t.returned = Function.update s.returned server (s.returned server + (s.answerChunk server n).length))
    (written : ∀ uHandlerId, t.written uHandlerId = s.written uHandlerId ++ if s.isOpen uHandlerId then
      (events.map fun event => (server, event)).filterMap (toClient uHandlerId) else []) : Downlink t := by
  have bytes : ∀ other, t.answerBytes other = s.answerBytes other := by
    intro other
    unfold Relay.answerBytes
    rw [answers]
  have bound := down.bound server
  have taken : (s.answerBytes server).take (s.returned server + (s.answerChunk server n).length) =
      (s.answerBytes server).take (s.returned server) ++ s.answerChunk server n := by
    unfold Relay.answerChunk
    rw [List.take_add, List.length_take, ← List.take_eq_take_min]
  have complete : ∀ f ∈ (s.answers server).map NetPackage.encode, netFrame.Complete f := by
    intro f member
    obtain ⟨m, sent, rfl⟩ := List.mem_map.mp member
    exact encode_complete (down.fits server m sent)
  have cut : ((s.answers server).map NetPackage.encode).flatten = bytesFrom server s.gateway.arrived ++
      (s.answerChunk server n ++ ((s.answerBytes server).drop (s.returned server)).drop n) := by
    rw [down.read server, Relay.answerChunk, List.take_append_drop, List.take_append_drop]
    rfl
  have receives : peerStep (fun _ => GatewayClient.processNetData) s.gateway (server, s.answerChunk server n) =
      some t.gateway := by
    rw [peerStep, returns, gateway]
    rfl
  have apart : ∃ next, peerStep (fun _ => GatewayClient.processNetData) s.gateway (server, s.answerChunk server n) =
      some next ∧ Isolated (fun _ => GatewayClient.onPacket) next ∧
        next.arrived = s.gateway.arrived ++ [(server, s.answerChunk server n)] :=
    isolated_step (fun _ => rfl) down.isolated own complete cut
  obtain ⟨next, stepEq, isolated, -⟩ := apart
  obtain rfl : next = t.gateway := Option.some.inj (stepEq.symm.trans receives)
  refine ⟨answers ▸ down.fits, ?_, ?_, isolated, ?_, ?_⟩
  · intro other
    rw [bytes, returned]
    by_cases same : other = server
    · subst same
      rw [Function.update_self, Relay.answerChunk, List.length_take, List.length_drop]
      omega
    · rw [Function.update_of_ne same]
      exact down.bound other
  · intro other
    rw [bytes, returned, gateway, bytesFrom_append, bytesFrom_single, down.read other]
    by_cases same : other = server
    · subst same
      rw [Function.update_self, if_pos rfl, taken]
    · rw [Function.update_of_ne same, if_neg (Ne.symm same), List.append_nil]
  · intro uHandlerId
    rw [written, gateway, List.filterMap_append]
    cases present : s.isOpen uHandlerId with
    | true =>
        rw [down.present uHandlerId present, if_pos rfl]
    | false =>
        rw [if_neg Bool.false_ne_true, List.append_nil]
        exact (down.written uHandlerId).trans (List.prefix_append _ _)
  · intro uHandlerId present
    rw [isOpen] at present
    rw [written, gateway, List.filterMap_append, if_pos present, down.present uHandlerId present]

/-- Every step in which the servers are kept apart keeps the answers in order. -/
theorem Downlink.step {s s' : Relay} {action : RelayAction} (down : Downlink s) (own : OwnAnswers s action)
    (step : relayStep parseFromArray serializeToString connected s action = some s') : Downlink s' := by
  cases action with
  | clientData uHandlerId chunk =>
      obtain ⟨-, step⟩ := Option.ite_none_right_eq_some.mp step
      obtain ⟨⟨q, events⟩, -, step⟩ := Option.bind_eq_some_iff.mp step
      obtain ⟨-, step⟩ := Option.ite_none_left_eq_some.mp step
      cases step
      exact ⟨down.fits, down.bound, down.read, down.isolated, down.written, down.present⟩
  | clientGone uHandlerId =>
      cases step
      refine ⟨down.fits, down.bound, down.read, down.isolated, down.written, fun other present => ?_⟩
      change Function.update s.isOpen uHandlerId false other = true at present
      by_cases same : other = uHandlerId
      · subst same
        rw [Function.update_self] at present
        exact absurd present Bool.false_ne_true
      · rw [Function.update_of_ne same] at present
        exact down.present other present
  | serverData server n =>
      obtain ⟨⟨q, events⟩, -, step⟩ := Option.bind_eq_some_iff.mp step
      cases step
      exact ⟨down.fits, down.bound, down.read, down.isolated, down.written, down.present⟩
  | centerData server chunk =>
      obtain ⟨⟨q, events⟩, -, step⟩ := Option.bind_eq_some_iff.mp step
      cases step
      exact ⟨down.fits, down.bound, down.read, down.isolated, down.written, down.present⟩
  | serverSends server packet =>
      cases step
      exact down.sends server own
  | gatewayData server n =>
      obtain ⟨⟨q, events⟩, returns, step⟩ := Option.bind_eq_some_iff.mp step
      cases step
      exact down.gatewayData own returns (transferAll_isOpen server events s) (transferAll_answers server events s) rfl rfl
        fun uHandlerId => transferAll_written server uHandlerId events s

/-- What a client was written of a server is the beginning of what the server has answered it. -/
theorem Downlink.written_prefix {s : Relay} (down : Downlink s) (server : GatewayPeer) {uHandlerId : UInt32}
    (nonzero : uHandlerId ≠ 0) :
    writtenFrom server (s.written uHandlerId) <+: s.answersTo server uHandlerId ∧
      (s.isOpen uHandlerId = true → s.returned server = (s.answerBytes server).length →
        writtenFrom server (s.written uHandlerId) = s.answersTo server uHandlerId) := by
  -- what the gateway has made of the bytes it has read from the server
  have dispatched := down.isolated.dispatched server
  rw [down.read server] at dispatched
  have all := answers_events nonzero (down.fits server)
  have sofar : (s.gateway.dispatchedFrom server).filterMap (packetFor uHandlerId) <+: s.answersTo server uHandlerId := by
    rw [← all, dispatched]
    conv_rhs => rw [← List.take_append_drop (s.returned server) (s.answerBytes server), eventsOf_append,
      List.filterMap_append]
    exact List.prefix_append _ _
  constructor
  · have begins : writtenFrom server (s.written uHandlerId) <+:
        writtenFrom server (s.gateway.dispatched.filterMap (toClient uHandlerId)) :=
      (down.written uHandlerId).filterMap _
    rw [writtenFrom_dispatched] at begins
    exact begins.trans sofar
  · intro present everything
    rw [down.present uHandlerId present, writtenFrom_dispatched, dispatched, everything, List.take_length, all]

end Runs

/-- In every run of the gateway with its clients and servers in which it never reads from a server within a packet of
another one: what a client has been written of a server is the beginning of what the server has answered it, in order
and each packet once; and it is all of it while the client is there and the gateway has read what the server sent. -/
theorem answers_in_order (parseFromArray : List UInt8 → Option (List UInt8)) (serializeToString : List UInt8 → List UInt8)
    (connected : GatewayPeer → Bool) (isOpen : UInt32 → Bool) {actions : List RelayAction} {s : Relay}
    (own : Guarded (relayStep parseFromArray serializeToString connected) OwnAnswers (Relay.init isOpen) actions)
    (run : runSteps (relayStep parseFromArray serializeToString connected) (Relay.init isOpen) actions = some s)
    (server : GatewayPeer) {uHandlerId : UInt32} (nonzero : uHandlerId ≠ 0) :
    writtenFrom server (s.written uHandlerId) <+: s.answersTo server uHandlerId ∧
      (s.isOpen uHandlerId = true → s.returned server = (s.answerBytes server).length →
        writtenFrom server (s.written uHandlerId) = s.answersTo server uHandlerId) := by
  have down : Downlink s :=
    guarded_invariant (fun _ _ _ down own step => down.step own step) (downlink_init isOpen) own run
  exact down.written_prefix server nonzero

/-- Answers of two servers to two clients, one of which has left. -/
def serversAnswer : List RelayAction :=
  [.serverSends .logic ⟨5, 0, 7, 2, 3, [65]⟩, .serverSends .login ⟨6, 0, 8, 1, 4, [66, 67]⟩,
    .serverSends .logic ⟨5, 0, 8, 2, 3, [68]⟩, .gatewayData .logic 10, .clientGone 8, .gatewayData .logic 11,
    .gatewayData .login 100, .gatewayData .logic 100]

theorem answers_in_order_serversAnswer :
    ∃ s, runSteps (relayStep (fun _ => none) (fun data => 10 :: UInt8.ofNat data.length :: data) fun _ => true)
        (Relay.init fun id => decide (id = 7 ∨ id = 8)) serversAnswer = some s ∧
      writtenFrom .logic (s.written 7) <+: s.answersTo .logic 7 ∧
      (s.isOpen 7 = true → s.returned .logic = (s.answerBytes .logic).length →
        writtenFrom .logic (s.written 7) = s.answersTo .logic 7) := by
  have returns : (runSteps (relayStep (fun _ => none) (fun data => 10 :: UInt8.ofNat data.length :: data) fun _ => true)
      (Relay.init fun id => decide (id = 7 ∨ id = 8)) serversAnswer).isSome = true := by decide +kernel
  obtain ⟨s, run⟩ := Option.isSome_iff_exists.mp returns
  exact ⟨s, run, answers_in_order _ _ _ _ (by decide +kernel) run .logic (by decide)⟩

end GameServer.Net
