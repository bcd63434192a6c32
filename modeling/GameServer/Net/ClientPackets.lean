/-
Module: GameServer.Net.ClientPackets
Purpose: What the gateway forwards of a client's stream: whole packets with the handler id of the session in them,
  which do not depend on what the client has put there.
Trusted boundary: a body of no or a negative size has no bytes
Main exports: Stamped, SameButHandlerId, DifferInHandlerIds, handlerId_not_chosen
-/
import GameServer.Net.ReceiveAll

namespace GameServer.Net

open Lib KNetPackage

/-! ## Packets and streams that differ in handler ids

The bytes of a handler id have no influence on where packets end, nor on what the handlers do that do not look at it.
-/

/-- The place of the handler id in a packet. -/
def HandlerIdPlace (i : Nat) : Prop :=
  kdPackageHeaderHandlerIdStart ≤ i ∧ i < kdPackageHeaderHandlerIdStart + kdPackageUintSize

instance (i : Nat) : Decidable (HandlerIdPlace i) := inferInstanceAs (Decidable (_ ∧ _))

/-- Bytes that are the same outside of the handler id. -/
structure SameButHandlerId (bytes other : List UInt8) : Prop where
  length : bytes.length = other.length
  same : ∀ i, HandlerIdPlace i ∨ bytes[i]? = other[i]?

/-- Streams that are the same outside of the handler ids of their packets, behind the bytes `acc` of a packet: where
they differ, the packet that is arriving has as many bytes as there are in front of its handler id. -/
structure DifferInHandlerIds (acc stream other : List UInt8) : Prop where
  length : stream.length = other.length
  same : ∀ i, HandlerIdPlace (netFrame.feed acc (stream.take i)).1.length ∨ stream[i]? = other[i]?

section Similar

variable {acc acc' xs ys : List UInt8}

theorem SameButHandlerId.take (similar : SameButHandlerId acc acc') {n : Nat}
    (front : n ≤ kdPackageHeaderHandlerIdStart) : acc.take n = acc'.take n := by
  apply List.ext_getElem?
  intro i
  rw [List.getElem?_take, List.getElem?_take]
  split
  · rcases similar.same i with ⟨behind, _⟩ | same
    · omega
    · exact same
  · rfl

theorem SameButHandlerId.drop (similar : SameButHandlerId acc acc') {n : Nat}
    (behind : kdPackageHeaderHandlerIdStart + kdPackageUintSize ≤ n) : acc.drop n = acc'.drop n := by
  apply List.ext_getElem?
  intro i
  rw [List.getElem?_drop, List.getElem?_drop]
  rcases similar.same (n + i) with ⟨_, front⟩ | same
  · omega
  · exact same

theorem SameButHandlerId.append (similar : SameButHandlerId acc acc') {b b' : UInt8}
    (byte : HandlerIdPlace acc.length ∨ b = b') : SameButHandlerId (acc ++ [b]) (acc' ++ [b']) where
  length := by
    rw [List.length_append, List.length_append, similar.length]
    rfl
  same i := by
    rcases Nat.lt_trichotomy i acc.length with before | rfl | after
    · rw [List.getElem?_append_left before, List.getElem?_append_left (similar.length ▸ before)]
      exact similar.same i
    · rcases byte with place | rfl
      · exact Or.inl place
      · right
        rw [List.getElem?_concat_length, similar.length, List.getElem?_concat_length]
    · right
      have end' := similar.length
      rw [List.getElem?_eq_none (by simp; omega), List.getElem?_eq_none (by simp; omega)]

theorem SameButHandlerId.complete_iff (similar : SameButHandlerId acc acc') :
    netFrame.Complete acc ↔ netFrame.Complete acc' := by
  rw [netFrame_complete_iff, netFrame_complete_iff, similar.length, similar.take (by decide)]

theorem SameButHandlerId.stalled_iff (similar : SameButHandlerId acc acc') (n : Nat) :
    Stalled acc n ↔ Stalled acc' n := by
  unfold Stalled
  rw [similar.length, similar.take (by decide)]

theorem DifferInHandlerIds.cons {b b' : UInt8} (differ : DifferInHandlerIds acc (b :: xs) (b' :: ys)) :
    (HandlerIdPlace acc.length ∨ b = b') ∧ DifferInHandlerIds (netFrame.feed acc [b]).1 xs ys := by
  refine ⟨?_, ⟨?_, ?_⟩⟩
  · simpa using differ.same 0
  · simpa using differ.length
  · intro i
    have same := differ.same (i + 1)
    rwa [List.take_succ_cons, ← List.singleton_append, netFrame.feed_append, List.getElem?_cons_succ,
      List.getElem?_cons_succ] at same

/-- Streams that differ in handler ids have packets that differ in handler ids. -/
theorem feed_similar (similar : SameButHandlerId acc acc') (differ : DifferInHandlerIds acc xs ys) :
    SameButHandlerId (netFrame.feed acc xs).1 (netFrame.feed acc' ys).1 ∧
      List.Forall₂ SameButHandlerId (netFrame.feed acc xs).2 (netFrame.feed acc' ys).2 := by
  induction xs generalizing acc acc' ys with
  | nil =>
      have none : ys = [] := List.length_eq_zero_iff.mp differ.length.symm
      subst none
      exact ⟨similar, List.Forall₂.nil⟩
  | cons b xs ih =>
      cases ys with
      | nil => exact absurd differ.length (by simp)
      | cons b' ys =>
          obtain ⟨byte, rest⟩ := differ.cons
          have next := similar.append byte
          by_cases complete : netFrame.Complete (acc ++ [b])
          · have complete' := next.complete_iff.mp complete
            rw [netFrame.feed_cons_of_complete _ complete] at rest
            rw [netFrame.feed_cons_of_complete xs complete, netFrame.feed_cons_of_complete ys complete']
            obtain ⟨held, frames⟩ := ih ⟨rfl, fun _ => Or.inr rfl⟩ rest
            exact ⟨held, List.Forall₂.cons next frames⟩
          · have complete' := mt next.complete_iff.mpr complete
            rw [netFrame.feed_cons_of_not_complete _ complete] at rest
            rw [netFrame.feed_cons_of_not_complete xs complete, netFrame.feed_cons_of_not_complete ys complete']
            exact ih next rest

theorem DifferInHandlerIds.split {zs zs' : List UInt8} (length : xs.length = ys.length)
    (differ : DifferInHandlerIds acc (xs ++ zs) (ys ++ zs')) :
    DifferInHandlerIds acc xs ys ∧ DifferInHandlerIds (netFrame.feed acc xs).1 zs zs' := by
  have lengths := differ.length
  rw [List.length_append, List.length_append] at lengths
  refine ⟨⟨length, ?_⟩, ⟨by omega, ?_⟩⟩
  · intro i
    by_cases inside : i < xs.length
    · have same := differ.same i
      rwa [List.take_append_of_le_length (Nat.le_of_lt inside), List.getElem?_append_left inside,
        List.getElem?_append_left (length ▸ inside)] at same
    · right
      rw [List.getElem?_eq_none (by omega), List.getElem?_eq_none (by omega)]
  · intro i
    have same := differ.same (xs.length + i)
    rwa [List.take_length_add_append, netFrame.feed_append, List.getElem?_append_right (Nat.le_add_right _ _),
      length, List.getElem?_append_right (Nat.le_add_right _ _), Nat.add_sub_cancel_left] at same

theorem DifferInHandlerIds.take (differ : DifferInHandlerIds acc xs ys) (n : Nat) :
    DifferInHandlerIds acc (xs.take n) (ys.take n) := by
  rw [← List.take_append_drop n xs, ← List.take_append_drop n ys] at differ
  refine (differ.split ?_).1
  have lengths := differ.length
  simp only [List.length_take, List.take_append_drop] at lengths ⊢
  rw [lengths]

theorem stalled_similar_iff (similar : SameButHandlerId acc acc') (differ : DifferInHandlerIds acc xs ys) (n k : Nat) :
    Stalled (netFrame.feed acc (xs.take n)).1 k ↔ Stalled (netFrame.feed acc' (ys.take n)).1 k :=
  (feed_similar similar (differ.take n)).1.stalled_iff k

theorem stallsIn_similar_iff (similar : SameButHandlerId acc acc') (differ : DifferInHandlerIds acc xs ys) :
    StallsIn acc xs ↔ StallsIn acc' ys := by
  unfold StallsIn
  rw [differ.length]
  exact exists_congr fun j => and_congr_right fun _ => stalled_similar_iff similar differ j _

theorem StopsAt.similar (similar : SameButHandlerId acc acc') (differ : DifferInHandlerIds acc xs ys) {n : Nat}
    (stops : StopsAt acc xs n) : StopsAt acc' ys n where
  bound := differ.length ▸ stops.bound
  free j before := by
    rw [← stalled_similar_iff similar differ, ← differ.length]
    exact stops.free j before
  stop short := by
    rw [← stalled_similar_iff similar differ, ← differ.length]
    exact stops.stop (differ.length ▸ short)

end Similar

section Handler

variable {ε : Type*} {onPacket : KgBuffer → List ε} {acc acc' xs ys : List UInt8}

/-- The handler does not look at the handler id of a packet. -/
def IgnoresHandlerId (onPacket : KgBuffer → List ε) : Prop :=
  ∀ packet other, SameButHandlerId packet other → onPacket (wholeBuffer packet) = onPacket (wholeBuffer other)

/-- The same calls are made for a stretch of data. -/
theorem eventsOf_similar (ignores : IgnoresHandlerId onPacket) (similar : SameButHandlerId acc acc')
    (differ : DifferInHandlerIds acc xs ys) : eventsOf onPacket acc xs = eventsOf onPacket acc' ys := by
  have packets := (feed_similar similar differ).2
  unfold eventsOf
  generalize (netFrame.feed acc xs).2 = frames at packets
  generalize (netFrame.feed acc' ys).2 = frames' at packets
  induction packets with
  | nil => rfl
  | cons first _ ih => rw [List.flatMap_cons, List.flatMap_cons, ignores _ _ first, ih]

/-- Streams that differ in handler ids and are cut alike lead to the same calls. -/
theorem receiveAll_similar (ignores : IgnoresHandlerId onPacket) {p p' : KNetPackage} (idle : Idle p) (idle' : Idle p')
    (similar : SameButHandlerId p.received p'.received) {chunks chunks' : List (List UInt8)}
    (cut : chunks.map List.length = chunks'.map List.length)
    (differ : DifferInHandlerIds p.received chunks.flatten chunks'.flatten) :
    (receiveAll onPacket p chunks).2 = (receiveAll onPacket p' chunks').2 := by
  induction chunks generalizing p p' chunks' with
  | nil =>
      have none : chunks' = [] := List.map_eq_nil_iff.mp cut.symm
      subst none
      rfl
  | cons chunk chunks ih =>
      cases chunks' with
      | nil => exact absurd cut (by simp)
      | cons chunk' chunks' =>
          obtain ⟨length, lengths⟩ := List.cons_eq_cons.mp cut
          obtain ⟨here, rest⟩ := DifferInHandlerIds.split length differ
          by_cases stalls : StallsIn p.received chunk
          · have stalls' := (stallsIn_similar_iff similar here).mp stalls
            obtain ⟨n, stops, took⟩ := receiveAll_of_stalls onPacket idle stalls chunks
            obtain ⟨m, stops', took'⟩ := receiveAll_of_stalls onPacket idle' stalls' chunks'
            have same := (stops.similar similar here).unique stops'
            subst same
            rw [took.calls, took'.calls]
            exact eventsOf_similar ignores similar (here.take n)
          · have free' := mt (stallsIn_similar_iff similar here).mpr stalls
            obtain ⟨q, took, result⟩ := receiveAll_of_free onPacket idle stalls chunks
            obtain ⟨q', took', result'⟩ := receiveAll_of_free onPacket idle' free' chunks'
            have next := (feed_similar similar here).1
            rw [← took.held, ← took'.held] at next
            rw [← took.held] at rest
            rw [result, result', eventsOf_similar ignores similar here]
            exact congrArg (eventsOf onPacket p'.received chunk' ++ ·) (ih took.idle took'.idle next lengths rest)

end Handler

/-! ## The session of a client

Whatever handler id a client writes into a packet, it is replaced by that of its session.
-/

section Session

variable (parseFromArray : List UInt8 → Option (List UInt8)) (uHandlerId : UInt32)

/-- The packets that `TCPSession::ProcessNetData` forwards for chunks of the client. -/
def TCPSession.forwarded (chunks : List (List UInt8)) : List NetEvent :=
  (receiveAll (TCPSession.onPacket parseFromArray uHandlerId) fresh chunks).2

/-- The packet goes to a backend with the handler id in it, and otherwise as it is. -/
inductive Stamped (packet : List UInt8) : NetEvent → Prop
  | forward (uServerId : UInt16) (pBuffer : List UInt8) (stamp : getHandlerId pBuffer = uHandlerId)
      (others : SameButHandlerId packet pBuffer) : Stamped packet (.transferToLogicServer uServerId pBuffer)

variable {parseFromArray uHandlerId}

theorem parseBody_wholeBuffer (packet : List UInt8) :
    parseBody parseFromArray (wholeBuffer packet) =
      parseFromArray ((packet.drop kdPackageHeaderSize).take (uintSub packet.length kdPackageHeaderSize)) := by
  simp only [parseBody, readPackage, getNetPackageBody, wholeBuffer, filledBuffer_pvData, filledBuffer_uSize]

/-- A packet that is checked and forwarded has more than the header. -/
theorem length_of_checked (rejects : parseFromArray [] = none) {packet : List UInt8}
    (checked : checkNetPacket parseFromArray (wholeBuffer packet) = true) : kdPackageHeaderSize < packet.length := by
  by_contra short
  unfold checkNetPacket at checked
  rw [parseBody_wholeBuffer, List.drop_eq_nil_of_le (Nat.le_of_not_lt short), List.take_nil, rejects] at checked
  exact absurd checked (by simp)

theorem addHanderIdToBuffer_of_lt {packet : List UInt8} (long : kdPackageHeaderSize < packet.length) :
    addHanderIdToBuffer uHandlerId packet packet.length =
      packet.take 12 ++ leBytes 4 uHandlerId.toNat ++ packet.drop 16 := if_pos long

/-- The backend reads the id of the session. -/
theorem getHandlerId_stamped {packet : List UInt8} (long : kdPackageHeaderSize < packet.length) :
    getHandlerId (addHanderIdToBuffer uHandlerId packet packet.length) = uHandlerId := by
  have start : (packet.take 12).length = 12 := by
    rw [List.length_take]
    exact Nat.min_eq_left (Nat.le_of_lt (Nat.lt_of_lt_of_le (by decide) long))
  have field : ((packet.take 12 ++ leBytes 4 uHandlerId.toNat ++ packet.drop 16).drop 12).take 4 =
      leBytes 4 uHandlerId.toNat := by
    rw [List.append_assoc, List.drop_left' start, List.take_left' (leBytes_length 4 _)]
  have value : leValue (leBytes 4 uHandlerId.toNat) = uHandlerId.toNat :=
    leValue_leBytes_of_lt uHandlerId.toNat_lt
  rw [addHanderIdToBuffer_of_lt long]
  unfold getHandlerId readUint
  exact (congrArg (fun bytes => UInt32.ofNat (leValue bytes)) field).trans
    ((congrArg UInt32.ofNat value).trans UInt32.ofNat_toNat)

theorem sameButHandlerId_stamped {packet : List UInt8} (long : kdPackageHeaderSize < packet.length) :
    SameButHandlerId packet (addHanderIdToBuffer uHandlerId packet packet.length) := by
  have header : 20 < packet.length := long
  rw [addHanderIdToBuffer_of_lt long]
  constructor
  · simp
    omega
  · intro i
    by_cases before : i < 12
    · right
      rw [List.append_assoc, List.getElem?_append_left (by simp; omega), List.getElem?_take_of_lt before]
    · by_cases inside : i < 16
      · exact Or.inl ⟨Nat.le_of_not_lt before, inside⟩
      · right
        rw [List.getElem?_append_right (by simp; omega), List.getElem?_drop]
        congr 1
        simp
        omega

theorem onPacket_stamped (rejects : parseFromArray [] = none) (packet : List UInt8) :
    TCPSession.onPacket parseFromArray uHandlerId (wholeBuffer packet) = [] ∨
      ∃ call, TCPSession.onPacket parseFromArray uHandlerId (wholeBuffer packet) = [call] ∧
        Stamped uHandlerId packet call := by
  by_cases checked : checkNetPacket parseFromArray (wholeBuffer packet) = true
  · have long := length_of_checked rejects checked
    right
    refine ⟨_, if_pos checked, Stamped.forward _ _ (getHandlerId_stamped long) (sameButHandlerId_stamped long)⟩
  · exact Or.inl (if_neg checked)

theorem onPacket_ignores (rejects : parseFromArray [] = none) :
    IgnoresHandlerId (TCPSession.onPacket parseFromArray uHandlerId) := by
  intro packet other similar
  have check : checkNetPacket parseFromArray (wholeBuffer packet) =
      checkNetPacket parseFromArray (wholeBuffer other) := by
    unfold checkNetPacket
    rw [parseBody_wholeBuffer, parseBody_wholeBuffer, similar.drop (by decide), similar.length]
  by_cases checked : checkNetPacket parseFromArray (wholeBuffer packet) = true
  · have long := length_of_checked rejects checked
    have buffer : addHanderIdToBuffer uHandlerId packet packet.length =
        addHanderIdToBuffer uHandlerId other other.length := by
      rw [addHanderIdToBuffer_of_lt long, addHanderIdToBuffer_of_lt (similar.length ▸ long),
        similar.take (Nat.le_refl 12), similar.drop (Nat.le_refl 16)]
    have call : TCPSession.onPacket parseFromArray uHandlerId (wholeBuffer packet) =
        [.transferToLogicServer (getServerId (addHanderIdToBuffer uHandlerId packet packet.length))
          (addHanderIdToBuffer uHandlerId packet packet.length)] := if_pos checked
    rw [call, buffer]
    exact (if_pos (check ▸ checked)).symm
  · exact (if_neg checked).trans (if_neg (check ▸ checked)).symm

/-- The handler of a session on the packets of a stream. -/
theorem flatMap_stamped (rejects : parseFromArray [] = none) (frames : List (List UInt8)) :
    ∃ packets, packets.Sublist frames ∧
      List.Forall₂ (Stamped uHandlerId) packets
        (frames.flatMap fun frame => TCPSession.onPacket parseFromArray uHandlerId (wholeBuffer frame)) := by
  induction frames with
  | nil => exact ⟨[], List.Sublist.refl _, List.Forall₂.nil⟩
  | cons frame frames ih =>
      obtain ⟨packets, sub, stamped⟩ := ih
      rw [List.flatMap_cons]
      rcases onPacket_stamped rejects frame with none | ⟨call, one, first⟩
      · rw [none]
        exact ⟨packets, sub.cons _, stamped⟩
      · rw [one]
        exact ⟨frame :: packets, sub.cons_cons _, List.Forall₂.cons first stamped⟩

end Session

/-- For every session, stream and way to cut it: what is forwarded are packets of the client, each with the session's
handler id in it and otherwise as it is; and streams of the client that differ in the handler ids of their packets
lead to the same, if they are cut alike, or anyhow into chunks whose lengths an `unsigned int` holds. -/
theorem handlerId_not_chosen (parseFromArray : List UInt8 → Option (List UInt8)) (uHandlerId : UInt32)
    (rejects : parseFromArray [] = none) (chunks : List (List UInt8)) :
    (∃ packets, packets.Sublist (netFrame.feed [] chunks.flatten).2 ∧
      List.Forall₂ (Stamped uHandlerId) packets (TCPSession.forwarded parseFromArray uHandlerId chunks)) ∧
    ∀ chunks', DifferInHandlerIds [] chunks.flatten chunks'.flatten →
      (chunks.map List.length = chunks'.map List.length ∨ ∀ c ∈ chunks ++ chunks', c.length < 2 ^ 32) →
      TCPSession.forwarded parseFromArray uHandlerId chunks = TCPSession.forwarded parseFromArray uHandlerId chunks' := by
  constructor
  · obtain ⟨n, took⟩ := receiveAll_take (TCPSession.onPacket parseFromArray uHandlerId) fresh_idle chunks
    let frames := (netFrame.feed [] (chunks.flatten.take n)).2
    have all_stamped : ∃ packets, packets.Sublist frames ∧ List.Forall₂ (Stamped uHandlerId) packets
        (frames.flatMap fun frame => TCPSession.onPacket parseFromArray uHandlerId (wholeBuffer frame)) :=
      flatMap_stamped rejects frames
    obtain ⟨packets, sub, stamped⟩ := all_stamped
    refine ⟨packets, sub.trans ?_, ?_⟩
    · conv_rhs => rw [← List.take_append_drop n chunks.flatten, netFrame.feed_append]
      exact List.sublist_append_left _ _
    · unfold TCPSession.forwarded
      rw [took.calls]
      exact stamped
  · intro chunks' differ cut
    have start : SameButHandlerId fresh.received fresh.received := ⟨rfl, fun _ => Or.inr rfl⟩
    have ignores : IgnoresHandlerId (TCPSession.onPacket parseFromArray uHandlerId) := onPacket_ignores rejects
    unfold TCPSession.forwarded
    rcases cut with alike | small
    · exact receiveAll_similar ignores fresh_idle fresh_idle start alike differ
    · rw [(receiveAll_eq _ fresh_idle fun c member => small c (List.mem_append_left _ member)).1,
        (receiveAll_eq _ fresh_idle fun c member => small c (List.mem_append_right _ member)).1]
      exact eventsOf_similar ignores start differ

/-- A packet that comes in two chunks with the handler id 9 in it, or in one with another handler id. -/
theorem handlerId_not_chosen_example :
    (∃ packets, packets.Sublist
        (netFrame.feed [] [[23, 0, 0, 0, 5, 0, 0, 0, 0, 0, 0, 0, 9, 0], [0, 0, 1, 0, 3, 0, 10, 1, 65]].flatten).2 ∧
      List.Forall₂ (Stamped 7) packets (TCPSession.forwarded parseShortData 7
        [[23, 0, 0, 0, 5, 0, 0, 0, 0, 0, 0, 0, 9, 0], [0, 0, 1, 0, 3, 0, 10, 1, 65]])) ∧
    TCPSession.forwarded parseShortData 7
        [[23, 0, 0, 0, 5, 0, 0, 0, 0, 0, 0, 0, 9, 0], [0, 0, 1, 0, 3, 0, 10, 1, 65]] =
      TCPSession.forwarded parseShortData 7
        [[23, 0, 0, 0, 5, 0, 0, 0, 0, 0, 0, 0, 1, 2, 3, 4, 1, 0, 3, 0, 10, 1, 65]] := by
  have both := handlerId_not_chosen parseShortData 7 rfl
    [[23, 0, 0, 0, 5, 0, 0, 0, 0, 0, 0, 0, 9, 0], [0, 0, 1, 0, 3, 0, 10, 1, 65]]
  refine ⟨both.1, both.2 _ ⟨rfl, fun i => ?_⟩ (Or.inr (by decide))⟩
  by_cases inside : i < 23
  · revert i
    decide
  · right
    rw [List.getElem?_eq_none (Nat.le_of_not_lt inside), List.getElem?_eq_none (Nat.le_of_not_lt inside)]

end GameServer.Net
