/-
Module: GameServer.Net.PeerStreams
Purpose: The processes that receive from several peers through one `m_pRecvPacket`: the logic and room
  servers (gateway and center server) and the gateway (login, logic and room server).
Trusted boundary: none
Main exports: PeerProcess, PeerState, peerStep, OwnChunk, Isolated, isolated_step,
  peers_isolated, peers_mix
-/
import GameServer.Lib.Runs
import GameServer.Net.Reassembly

namespace GameServer.Net

open Lib KNetPackage

/-! ## Processes and their peers

The connections of a process share one assembler.
-/

/-- The peers of a logic or room server. -/
inductive LogicPeer where
  | gateway
  | center
deriving Repr, DecidableEq

/-- The peers of the gateway behind its clients. -/
inductive GatewayPeer where
  | login
  | logic
  | room
deriving Repr, DecidableEq

inductive PeerProcess where
  | logicServer
  | gateway
deriving Repr, DecidableEq

namespace PeerProcess

abbrev Peer : PeerProcess → Type
  | .logicServer => LogicPeer
  | .gateway => GatewayPeer

instance : (process : PeerProcess) → DecidableEq process.Peer
  | .logicServer => inferInstanceAs (DecidableEq LogicPeer)
  | .gateway => inferInstanceAs (DecidableEq GatewayPeer)

variable (parseFromArray : List UInt8 → Option (List UInt8))

/-- `GameLogicServer::OnMsgRecv` passes `GATEWAY`, `CenterClient::OnMsgRecv` passes `CENTER`. -/
def serverFrom : LogicPeer → Nat
  | .gateway => serverTypeGateway
  | .center => serverTypeCenter

/-- What the process does with a packet on the connection to a peer. -/
def packetHandler : (process : PeerProcess) → process.Peer → KgBuffer → List NetEvent
  | .logicServer, peer => GameLogicServer.onPacket parseFromArray (serverFrom peer)
  | .gateway, _ => GatewayClient.onPacket

/-- The read callback of the connection to a peer.  On the gateway every `GatewayClient` object's
callback goes to `GatewayClient::GetInstance()`, so all of them share its `m_pRecvPacket`. -/
def onMsgRecv : (process : PeerProcess) → process.Peer → KNetPackage → List UInt8 →
    Option (KNetPackage × List NetEvent)
  | .logicServer, peer => GameLogicServer.processNetData parseFromArray (serverFrom peer)
  | .gateway, _ => GatewayClient.processNetData

theorem onMsgRecv_eq (process : PeerProcess) (peer : process.Peer) :
    process.onMsgRecv parseFromArray peer =
      processNetData (process.packetHandler parseFromArray peer) := by
  cases process <;> rfl

end PeerProcess

/-! ## Runs

As long as a chunk of one peer never comes while a packet of another one is arriving, each peer's calls are those of
its own bytes.
-/

section Peers

variable {κ : Type*} [DecidableEq κ]

/-- The bytes that came from peer `c` among chunks of several peers. -/
def bytesFrom (c : κ) : List (κ × List UInt8) → List UInt8
  | [] => []
  | chunk :: chunks => (if chunk.1 = c then chunk.2 else []) ++ bytesFrom c chunks

/-- The chunks of a peer, one after the other. -/
theorem bytesFrom_append (c : κ) (xs ys : List (κ × List UInt8)) :
    bytesFrom c (xs ++ ys) = bytesFrom c xs ++ bytesFrom c ys := by
  induction xs with
  | nil => rfl
  | cons x xs ih => simp [bytesFrom, ih]

theorem bytesFrom_single (c : κ) (chunk : κ × List UInt8) :
    bytesFrom c [chunk] = if chunk.1 = c then chunk.2 else [] := by
  simp [bytesFrom]

/-- The process: the one assembler, the chunks that arrived and the calls made, each with the peer
it came from. -/
structure PeerState (κ : Type*) where
  m_pRecvPacket : KNetPackage
  arrived : List (κ × List UInt8)
  dispatched : List (κ × NetEvent)
deriving Repr, DecidableEq

namespace PeerState

def init : PeerState κ := ⟨fresh, [], []⟩

/-- The calls made for packets of peer `c`, in order. -/
def dispatchedFrom (s : PeerState κ) (c : κ) : List NetEvent :=
  s.dispatched.filterMap fun event => if event.1 = c then some event.2 else none

/-- The peer the latest chunk came from. -/
def lastPeer (s : PeerState κ) : Option κ := s.arrived.getLast?.map Prod.fst

end PeerState

/-- One read callback: a chunk of one peer goes through the shared assembler. -/
def peerStep (receive : κ → KNetPackage → List UInt8 → Option (KNetPackage × List NetEvent))
    (s : PeerState κ) (chunk : κ × List UInt8) : Option (PeerState κ) :=
  (receive chunk.1 s.m_pRecvPacket chunk.2).map fun r =>
    { m_pRecvPacket := r.1
      arrived := s.arrived ++ [chunk]
      dispatched := s.dispatched ++ r.2.map fun event => (chunk.1, event) }

/-- The chunk comes from the same peer as the one before it, or the assembler is between two packets;
and `unsigned int` holds its length. -/
def OwnChunk (s : PeerState κ) (chunk : κ × List UInt8) : Prop :=
  chunk.2.length < 2 ^ 32 ∧ (s.lastPeer = some chunk.1 ∨ s.m_pRecvPacket.uRecvOffset = 0)

instance (s : PeerState κ) (chunk : κ × List UInt8) : Decidable (OwnChunk s chunk) :=
  inferInstanceAs (Decidable (_ ∧ _))

/-- The bytes of a peer: whole packets, and the beginning of the one that is still arriving. -/
structure PeerStream (bytes : List UInt8) (sent : List NetPackage) (rest : List UInt8) : Prop where
  cut : bytes = (sent.map NetPackage.encode).flatten ++ rest
  fits : ∀ m ∈ sent, m.Fits
  unfinished : rest = [] ∨ ∃ m : NetPackage, m.Fits ∧ ∃ n, n < m.encode.length ∧
    rest = m.encode.take n

/-- The bytes of a peer can be completed to whole packets. -/
theorem PeerStream.completion {bytes rest : List UInt8} {sent : List NetPackage}
    (stream : PeerStream bytes sent rest) :
    ∃ (frames : List (List UInt8)) (tail : List UInt8),
      (∀ f ∈ frames, netFrame.Complete f) ∧ frames.flatten = bytes ++ tail := by
  have complete : ∀ f ∈ sent.map NetPackage.encode, netFrame.Complete f := by
    intro f member
    obtain ⟨m, sentM, rfl⟩ := List.mem_map.mp member
    exact encode_complete (stream.fits m sentM)
  rcases stream.unfinished with rfl | ⟨m, fits, n, short, rfl⟩
  · exact ⟨_, [], complete, by simp [stream.cut]⟩
  · refine ⟨sent.map NetPackage.encode ++ [m.encode], m.encode.drop n, ?_, ?_⟩
    · intro f member
      rcases List.mem_append.mp member with early | last
      · exact complete f early
      · rw [List.mem_singleton.mp last]
        exact encode_complete fits
    · rw [stream.cut, List.flatten_append, List.flatten_singleton, List.append_assoc,
        List.take_append_drop]

/-- A peer's bytes on their own lead to the calls for the packets it sent. -/
theorem PeerStream.events {ε : Type*} (onPacket : KgBuffer → List ε) {bytes rest : List UInt8}
    {sent : List NetPackage} (stream : PeerStream bytes sent rest) :
    eventsOf onPacket [] bytes = sent.flatMap fun m => onPacket (wholeBuffer m.encode) := by
  have complete : ∀ f ∈ sent.map NetPackage.encode, netFrame.Complete f := by
    intro f member
    obtain ⟨m, sentM, rfl⟩ := List.mem_map.mp member
    exact encode_complete (stream.fits m sentM)
  have noMore : (netFrame.feed [] rest).2 = [] := by
    rcases stream.unfinished with rfl | ⟨m, fits, n, short, rfl⟩
    · rfl
    · rw [netFrame.feed_of_partial]
      intro i _ le
      rw [List.nil_append, List.take_take]
      exact netFrame.not_complete_take (encode_complete fits) (by omega)
  rw [eventsOf, stream.cut, netFrame.feed_flatten_append complete, noMore, List.append_nil,
    List.flatMap_map]

section Isolation

variable (onPacket : κ → KgBuffer → List NetEvent)

/-- The assembler holds the unfinished packet of the peer heard last, no other peer has an unfinished
packet, and the calls made for a peer are those its own bytes lead to. -/
structure Isolated (s : PeerState κ) : Prop where
  idle : Idle s.m_pRecvPacket
  held : ∀ c, s.lastPeer = some c →
    s.m_pRecvPacket.received = (netFrame.feed [] (bytesFrom c s.arrived)).1
  others : ∀ c, s.lastPeer ≠ some c → (netFrame.feed [] (bytesFrom c s.arrived)).1 = []
  dispatched : ∀ c, s.dispatchedFrom c = eventsOf (onPacket c) [] (bytesFrom c s.arrived)

theorem isolated_init : Isolated onPacket PeerState.init where
  idle := fresh_idle
  held _ last := absurd last (by simp [PeerState.lastPeer, PeerState.init])
  others _ _ := rfl
  dispatched _ := rfl

variable {onPacket}

/-- A chunk that is let through continues the packet of its own peer. -/
theorem Isolated.own_bytes {s : PeerState κ} (isolated : Isolated onPacket s)
    {chunk : κ × List UInt8} (own : OwnChunk s chunk) :
    s.m_pRecvPacket.received = (netFrame.feed [] (bytesFrom chunk.1 s.arrived)).1 := by
  by_cases last : s.lastPeer = some chunk.1
  · exact isolated.held chunk.1 last
  · have between : s.m_pRecvPacket.uRecvOffset = 0 := own.2.resolve_left last
    have empty : s.m_pRecvPacket.received = [] := by
      rw [← List.length_eq_zero_iff, isolated.idle.received_length, between]
    rw [empty, isolated.others chunk.1 last]

/-- The peers without an unfinished packet, after a chunk that is let through. -/
private theorem Isolated.others_quiet {s : PeerState κ} (isolated : Isolated onPacket s)
    {chunk : κ × List UInt8} (own : OwnChunk s chunk) {c : κ} (other : chunk.1 ≠ c) :
    (netFrame.feed [] (bytesFrom c s.arrived)).1 = [] := by
  by_cases last : s.lastPeer = some c
  · -- the peer heard last has finished its packet, since another one is let through
    have between : s.m_pRecvPacket.uRecvOffset = 0 := by
      refine own.2.resolve_left fun same => other ?_
      rw [last] at same
      exact (Option.some.inj same).symm
    rw [← isolated.held c last, ← List.length_eq_zero_iff, isolated.idle.received_length, between]
  · exact isolated.others c last

/-- One chunk that is let through is worked off and keeps the peers apart. -/
theorem isolated_step {receive : κ → KNetPackage → List UInt8 → Option (KNetPackage × List NetEvent)}
    (loop : ∀ c, receive c = processNetData (onPacket c)) {s : PeerState κ}
    (isolated : Isolated onPacket s) {chunk : κ × List UInt8} (own : OwnChunk s chunk)
    {frames : List (List UInt8)} {tail : List UInt8} (complete : ∀ f ∈ frames, netFrame.Complete f)
    (cut : frames.flatten = bytesFrom chunk.1 s.arrived ++ (chunk.2 ++ tail)) :
    ∃ t, peerStep receive s chunk = some t ∧ Isolated onPacket t ∧
      t.arrived = s.arrived ++ [chunk] := by
  have held := isolated.own_bytes own
  have free : ¬ StallsIn s.m_pRecvPacket.received chunk.2 := by
    rw [held]
    exact not_stallsIn_of_packets complete cut own.1
  obtain ⟨q, returns, idle, heldAfter⟩ :=
    processNetData_of_free (onPacket chunk.1) isolated.idle free
  have last : (s.arrived ++ [chunk]).getLast?.map Prod.fst = some chunk.1 := by simp
  refine ⟨_, by rw [peerStep, loop, returns]; rfl, ⟨idle, ?_, ?_, ?_⟩, rfl⟩
  · intro c isLast
    obtain rfl : chunk.1 = c := Option.some.inj (last.symm.trans isLast)
    change q.received = _
    rw [heldAfter, held, bytesFrom_append, bytesFrom_single, if_pos rfl, netFrame.feed_append]
  · intro c notLast
    have other : chunk.1 ≠ c := fun same => notLast (same ▸ last)
    rw [bytesFrom_append, bytesFrom_single, if_neg other, List.append_nil]
    exact isolated.others_quiet own other
  · intro c
    have before := isolated.dispatched c
    rw [PeerState.dispatchedFrom] at before
    rw [PeerState.dispatchedFrom, List.filterMap_append, before, bytesFrom_append, bytesFrom_single,
      List.filterMap_map]
    by_cases same : chunk.1 = c
    · subst same
      rw [if_pos rfl, eventsOf_append, ← held]
      simp
    · rw [if_neg same, List.append_nil]
      simp [same]

/-- A run in which every chunk is let through works off every chunk and keeps the peers apart. -/
theorem isolated_run {receive : κ → KNetPackage → List UInt8 → Option (KNetPackage × List NetEvent)}
    (loop : ∀ c, receive c = processNetData (onPacket c)) {chunks : List (κ × List UInt8)}
    {s : PeerState κ} (isolated : Isolated onPacket s)
    (packets : ∀ c, ∃ (frames : List (List UInt8)) (tail : List UInt8),
      (∀ f ∈ frames, netFrame.Complete f) ∧
        frames.flatten = bytesFrom c (s.arrived ++ chunks) ++ tail)
    (guarded : Guarded (peerStep receive) OwnChunk s chunks) :
    ∃ t, runSteps (peerStep receive) s chunks = some t ∧ Isolated onPacket t ∧
      t.arrived = s.arrived ++ chunks := by
  induction chunks generalizing s with
  | nil => exact ⟨s, rfl, isolated, by simp⟩
  | cons chunk chunks ih =>
      obtain ⟨frames, tail, complete, cut⟩ := packets chunk.1
      have cutHere : frames.flatten = bytesFrom chunk.1 s.arrived ++
          (chunk.2 ++ (bytesFrom chunk.1 chunks ++ tail)) := by
        simpa [bytesFrom_append, bytesFrom] using cut
      obtain ⟨m, stepEq, isolatedNext, arrivedNext⟩ :=
        isolated_step loop isolated guarded.1 complete cutHere
      obtain ⟨t, runEq, isolatedEnd, arrivedEnd⟩ :=
        ih isolatedNext (by simpa [arrivedNext] using packets) (guarded.2 m stepEq)
      exact ⟨t, by simp [stepEq, runEq], isolatedEnd, by simp [arrivedEnd, arrivedNext]⟩

end Isolation

end Peers

/-! ## The two processes

The theorem for both processes, and a run of each kind.
-/

/-- In each of the two processes, for every interleaving of the chunks of its peers in which every
chunk is let through: all chunks are worked off, and the calls made for each peer are those for the
packets it sent, in order. -/
theorem peers_isolated (parseFromArray : List UInt8 → Option (List UInt8)) (process : PeerProcess)
    {chunks : List (process.Peer × List UInt8)} {sent : process.Peer → List NetPackage}
    {rest : process.Peer → List UInt8}
    (streams : ∀ c, PeerStream (bytesFrom c chunks) (sent c) (rest c))
    (guarded : Guarded (peerStep (process.onMsgRecv parseFromArray)) OwnChunk PeerState.init chunks) :
    ∃ s, runSteps (peerStep (process.onMsgRecv parseFromArray)) PeerState.init chunks = some s ∧
      ∀ c, s.dispatchedFrom c =
        (sent c).flatMap fun m => process.packetHandler parseFromArray c (wholeBuffer m.encode) := by
  obtain ⟨s, runEq, isolated, arrived⟩ :=
    isolated_run (process.onMsgRecv_eq parseFromArray)
      (isolated_init (process.packetHandler parseFromArray))
      (fun c => (streams c).completion) guarded
  refine ⟨s, runEq, fun c => ?_⟩
  have own : s.arrived = chunks := arrived
  rw [isolated.dispatched c, own, (streams c).events]

/-- What two peers of a logic server send: one packet each. -/
def examplePackets : LogicPeer → List NetPackage
  | .gateway => [⟨5, 0, 9, 1, 3, [10, 2, 65, 66]⟩]
  | .center => [⟨6, 0, 1, 0, 4, [10, 1, 67]⟩]

/-- The gateway's packet in two chunks, then the center server's. -/
def chunksInTurn : List (LogicPeer × List UInt8) :=
  [(.gateway, [24, 0, 0, 0, 5, 0]), (.gateway, [0, 0, 0, 0, 0, 0, 9, 0, 0, 0, 1, 0, 3, 0, 10, 2, 65, 66]),
    (.center, [23, 0, 0, 0, 6, 0, 0, 0, 0, 0, 0, 0, 1, 0, 0, 0, 0, 0, 4, 0, 10, 1, 67])]

/-- The center server's packet before the last byte of the gateway's. -/
def chunksMixed : List (LogicPeer × List UInt8) :=
  [(.gateway, [24, 0, 0, 0, 5, 0, 0, 0, 0, 0, 0, 0, 9, 0, 0, 0, 1, 0, 3, 0, 10, 2, 65]),
    (.center, [23, 0, 0, 0, 6, 0, 0, 0, 0, 0, 0, 0, 1, 0, 0, 0, 0, 0, 4, 0, 10, 1, 67]),
    (.gateway, [66])]

theorem peers_isolated_in_turn :
    ∃ s, runSteps (peerStep (PeerProcess.onMsgRecv parseShortData .logicServer)) PeerState.init chunksInTurn =
        some s ∧
      ∀ c, s.dispatchedFrom c = (examplePackets c).flatMap fun m =>
        PeerProcess.packetHandler parseShortData .logicServer c (wholeBuffer m.encode) :=
  have streams : ∀ c, PeerStream (bytesFrom c chunksInTurn) (examplePackets c) []
    | .gateway => ⟨by decide, by decide, Or.inl rfl⟩
    | .center => ⟨by decide, by decide, Or.inl rfl⟩
  peers_isolated parseShortData .logicServer streams (by decide)

/-- A chunk of the center server that arrives before the last byte of the gateway's packet completes
that packet with its first byte: the call for the gateway is never made. -/
theorem peers_mix :
    ¬ ∀ (chunks : List (LogicPeer × List UInt8)) (sent : LogicPeer → List NetPackage),
      (∀ chunk ∈ chunks, chunk.2 ≠ [] ∧ chunk.2.length < 2 ^ 32) →
      (∀ c, PeerStream (bytesFrom c chunks) (sent c) []) →
      ∃ s, runSteps (peerStep (PeerProcess.onMsgRecv parseShortData .logicServer)) PeerState.init chunks =
          some s ∧
        ∀ c, s.dispatchedFrom c = (sent c).flatMap fun m =>
          PeerProcess.packetHandler parseShortData .logicServer c (wholeBuffer m.encode) := by
  intro claim
  have streams : ∀ c, PeerStream (bytesFrom c chunksMixed) (examplePackets c) []
    | .gateway => ⟨by decide, by decide, Or.inl rfl⟩
    | .center => ⟨by decide, by decide, Or.inl rfl⟩
  obtain ⟨s, runEq, calls⟩ := claim chunksMixed examplePackets (by decide) streams
  have made : (runSteps (peerStep (PeerProcess.onMsgRecv parseShortData .logicServer)) PeerState.init
      chunksMixed).map (fun t => t.dispatchedFrom .gateway) = some [] := by decide
  rw [runEq, Option.map_some, calls .gateway] at made
  exact absurd made (by decide)

end GameServer.Net
