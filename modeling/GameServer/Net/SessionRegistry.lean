/-
Module: GameServer.Net.SessionRegistry
Purpose: The sessions of `GatewayServer`, `CenterServer` and `GameLogicServer`: when their maps say which
  connections are up.
Trusted boundary: libuv reads nothing more from a stream after its end or an error, and calls back once for every
  `uv_close`; a session is never freed, so no two connections have one address; `m_nSessionId` wraps around;
  what is read through an erased iterator is a parameter
Main exports: ServerClass, Registry, SessionEvent, sessionStep, RegistryOk, SessionGuard, registry_iff
-/
import Mathlib.Logic.Function.Basic
import Mathlib.Order.Basic
import GameServer.Lib.Runs

namespace GameServer.Net

open Lib

/-! ## Maps

The two maps of a server, with the operations of `std::map`.
-/

section Maps

variable {κ β : Type*} [DecidableEq κ]

/-- `std::map::insert` keeps a value that is there. -/
def mapInsert (m : κ → Option β) (key : κ) (value : β) : κ → Option β :=
  if (m key).isSome then m else Function.update m key (some value)

/-- `std::map::erase`. -/
def mapErase (m : κ → Option β) (key : κ) : κ → Option β := Function.update m key none

theorem mapInsert_of_none {m : κ → Option β} {key : κ} (absent : m key = none) (value : β) :
    mapInsert m key value = Function.update m key (some value) := by
  rw [mapInsert, absent]
  rfl

theorem mapErase_of_ne {m : κ → Option β} {key other : κ} (differs : other ≠ key) :
    mapErase m key other = m other := Function.update_of_ne differs ..

@[simp] theorem mapErase_self (m : κ → Option β) (key : κ) : mapErase m key key = none :=
  Function.update_self ..

/-- What is found after an erasure was there before. -/
theorem of_mapErase {m : κ → Option β} {key other : κ} {value : β} (found : mapErase m key other = some value) :
    other ≠ key ∧ m other = some value := by
  by_cases same : other = key
  · rw [same, mapErase_self] at found
    exact absurd found (by simp)
  · rw [mapErase_of_ne same] at found
    exact ⟨same, found⟩

end Maps

/-! ## The servers

The classes differ in what they do when a client leaves.
-/

/-- The classes that derive from `TCPBaseServer`. -/
inductive ServerClass where
  | gateway
  | center
  | gameLogic
deriving Repr, DecidableEq

/-- The maps of `TCPBaseServer`; streams are numbered in the order of their making.  Behind the maps stand what
libuv knows of the streams, and the ids that were given, which no function reads. -/
structure Registry where
  sessionId : UInt32
  openSessions : Nat → Option UInt32
  idToHandlerMap : UInt32 → Option Nat
  handlerToIdMap : Nat → Option UInt32
  streams : Nat
  up : Nat → Bool
  closing : Nat → Bool
  added : List (UInt32 × Nat)

/-- A server that has just been started. -/
def Registry.init : Registry where
  sessionId := 0
  openSessions _ := none
  idToHandlerMap _ := none
  handlerToIdMap _ := none
  streams := 0
  up _ := false
  closing _ := false
  added := []

namespace Registry

variable (r : Registry)

/-- `GetHandlerById`. -/
def getHandlerById (uHandlerId : UInt32) : Option Nat := r.idToHandlerMap uHandlerId

/-- `GetHandlerIdByHandler`. -/
def getHandlerIdByHandler (pKey : Nat) : UInt32 := (r.handlerToIdMap pKey).getD 0

/-- `AddSession`. -/
def addSession (key : Nat) : Registry :=
  let sessionId := r.sessionId + 1
  { r with
    sessionId := sessionId
    openSessions := mapInsert r.openSessions key sessionId
    idToHandlerMap := mapInsert r.idToHandlerMap sessionId key
    handlerToIdMap := mapInsert r.handlerToIdMap key sessionId
    added := r.added ++ [(sessionId, key)] }

/-- `OnNewConnection`; `uv_accept` may fail. -/
def onNewConnection (accepted : Bool) : Registry :=
  let made : Registry := { r with streams := r.streams + 1 }
  if accepted then { made.addSession r.streams with up := Function.update r.up r.streams true } else made

/-- `GatewayServer::RemoveClient` and `CenterServer::RemoveClient` after `uv_close`: the entry of the stream is
erased, and `erased` is what is read through its iterator then. -/
def eraseMaps (client : Nat) (erased : UInt32) : Registry :=
  match r.handlerToIdMap client with
  | some _ =>
      { r with
        handlerToIdMap := mapErase r.handlerToIdMap client
        idToHandlerMap := mapErase r.idToHandlerMap erased }
  | none => r

/-- `RemoveClient`. -/
def removeClient (server : ServerClass) (client : Nat) (erased : UInt32) : Registry :=
  match r.openSessions client with
  | some _ =>
      let closed : Registry := { r with closing := Function.update r.closing client true }
      match server with
      | .gateway => closed.eraseMaps client erased
      | .center => closed.eraseMaps client erased
      | .gameLogic => closed
  | none => r

/-- `OnConnectionClose`. -/
def onConnectionClose (handle : Nat) : Registry :=
  { r with openSessions := mapErase r.openSessions handle, closing := Function.update r.closing handle false }

end Registry

/-- What libuv reports: a new connection, the end of one, another read error, and that a stream was closed. -/
inductive SessionEvent where
  | accept (accepted : Bool)
  | eof (client : Nat) (erased : UInt32)
  | readError (client : Nat)
  | closed (handle : Nat)
deriving Repr, DecidableEq

/-- A callback of libuv; `OnMsgRecv` does nothing about a negative length other than `UV_EOF`. -/
def sessionStep (server : ServerClass) (r : Registry) : SessionEvent → Registry
  | .accept accepted => r.onNewConnection accepted
  | .eof client erased =>
      if r.up client then
        { r with up := Function.update r.up client false }.removeClient server client erased
      else
        r
  | .readError client => if r.up client then { r with up := Function.update r.up client false } else r
  | .closed handle => if r.closing handle then r.onConnectionClose handle else r

/-! ## The property and its condition

The two maps hold the same pairs: each connection that is up under its handler id.
-/

/-- The maps are inverse to each other, they have the connections that are up, and an id finds nothing or the stream
that it was given to. -/
structure RegistryOk (r : Registry) : Prop where
  inverse : ∀ uHandlerId client, r.idToHandlerMap uHandlerId = some client ↔
    r.handlerToIdMap client = some uHandlerId
  upIff : ∀ client, (r.handlerToIdMap client).isSome ↔ r.up client = true
  own : ∀ entry ∈ r.added, r.getHandlerById entry.1 = none ∨ r.getHandlerById entry.1 = some entry.2

/-- A connection that goes takes no entry but its own along. -/
def OthersKept (r r' : Registry) : SessionEvent → Prop
  | .accept _ => True
  | .eof client _ | .readError client | .closed client =>
      (∀ other, other ≠ client → r'.handlerToIdMap other = r.handlerToIdMap other) ∧
        ∀ uHandlerId, r.getHandlerById uHandlerId ≠ some client →
          r'.getHandlerById uHandlerId = r.getHandlerById uHandlerId

/-- The events after which all is well: a connection is given an id that none had before; one that ends is not
the logic server's, and its id is what is read through the erased iterator; and no connection breaks off. -/
def SessionGuard (server : ServerClass) (r : Registry) : SessionEvent → Prop
  | .accept accepted => accepted = true → ∀ client, (r.sessionId + 1, client) ∉ r.added
  | .eof client erased =>
      r.up client = true → server ≠ .gameLogic ∧ r.handlerToIdMap client = some erased
  | .readError client => r.up client = false
  | .closed _ => True

/-! ## The invariant

What holds whether or not the condition is met: entries are those that were made, for streams that are there.
-/

/-- What holds after every event: entries are those that were made, of streams there are, a connection that is up
has a session, and one that is being closed is not up. -/
structure RegistryMade (r : Registry) : Prop where
  entries : ∀ client uHandlerId, r.handlerToIdMap client = some uHandlerId → (uHandlerId, client) ∈ r.added
  made : ∀ entry ∈ r.added, entry.2 < r.streams
  upMade : ∀ client, r.up client = true → client < r.streams
  sessions : ∀ client, r.up client = true → (r.openSessions client).isSome
  closingDown : ∀ client, r.closing client = true → client < r.streams ∧ r.up client = false

theorem registryMade_init : RegistryMade .init := by
  constructor
  · intro client uHandlerId found
    exact absurd found (by simp [Registry.init])
  · intro entry member
    exact absurd member (by simp [Registry.init])
  · intro client up
    exact absurd up (by simp [Registry.init])
  · intro client up
    exact absurd up (by simp [Registry.init])
  · intro client closing
    exact absurd closing (by simp [Registry.init])

theorem registryOk_init : RegistryOk .init := by
  constructor
  · intro uHandlerId client
    simp [Registry.init]
  · intro client
    simp [Registry.init]
  · intro entry _
    exact Or.inl rfl

section Steps

variable {server : ServerClass} {r : Registry}

/-- A stream that is not made yet has no entry. -/
theorem RegistryMade.absent (made : RegistryMade r) : r.handlerToIdMap r.streams = none := by
  cases found : r.handlerToIdMap r.streams with
  | none => rfl
  | some uHandlerId => exact absurd (made.made _ (made.entries _ _ found)) (Nat.lt_irrefl _)

/-- `RemoveClient` of a stream with a session and an entry. -/
theorem removeClient_eq {client : Nat} {uHandlerId id : UInt32} (session : r.openSessions client = some id)
    (entry : r.handlerToIdMap client = some uHandlerId) (erased : UInt32) :
    r.removeClient server client erased =
      { r with
        closing := Function.update r.closing client true
        handlerToIdMap := if server = .gameLogic then r.handlerToIdMap else mapErase r.handlerToIdMap client
        idToHandlerMap := if server = .gameLogic then r.idToHandlerMap else mapErase r.idToHandlerMap erased } := by
  unfold Registry.removeClient Registry.eraseMaps
  rw [session]
  cases server with
  | gateway => simp [entry]
  | center => simp [entry]
  | gameLogic => simp

theorem removeClient_frame (r : Registry) (server : ServerClass) (client : Nat) (erased : UInt32) :
    (r.removeClient server client erased).added = r.added ∧
      (r.removeClient server client erased).streams = r.streams ∧
      (r.removeClient server client erased).up = r.up ∧
      (r.removeClient server client erased).openSessions = r.openSessions ∧
      (∀ other uHandlerId, (r.removeClient server client erased).handlerToIdMap other = some uHandlerId →
        r.handlerToIdMap other = some uHandlerId) ∧
      ∀ other, (r.removeClient server client erased).closing other = true →
        other = client ∨ r.closing other = true := by
  have marked : ∀ other, Function.update r.closing client true other = true →
      other = client ∨ r.closing other = true := by
    intro other closing
    by_cases same : other = client
    · exact Or.inl same
    · rw [Function.update_of_ne same] at closing
      exact Or.inr closing
  cases session : r.openSessions client with
  | none =>
      have nothing : r.removeClient server client erased = r := by
        rw [Registry.removeClient, session]
      rw [nothing]
      exact ⟨rfl, rfl, rfl, rfl, fun _ _ found => found, fun _ closing => Or.inr closing⟩
  | some id =>
      cases entry : r.handlerToIdMap client with
      | none =>
          have kept : r.removeClient server client erased =
              { r with closing := Function.update r.closing client true } := by
            unfold Registry.removeClient Registry.eraseMaps
            rw [session]
            cases server <;> simp [entry]
          rw [kept]
          exact ⟨rfl, rfl, rfl, rfl, fun _ _ found => found, marked⟩
      | some uHandlerId =>
          rw [removeClient_eq session entry]
          refine ⟨rfl, rfl, rfl, rfl, fun other uHandlerId found => ?_, marked⟩
          dsimp only at found
          split at found
          · exact found
          · exact (of_mapErase found).2

/-- A new session gets a new stream. -/
theorem accept_made (made : RegistryMade r) (accepted : Bool) :
    RegistryMade (r.onNewConnection accepted) := by
  cases accepted with
  | false =>
      refine ⟨made.entries, fun entry member => ?_, fun client up => ?_, made.sessions, fun client closing => ?_⟩
      · exact Nat.lt_succ_of_lt (made.made entry member)
      · exact Nat.lt_succ_of_lt (made.upMade client up)
      · exact ⟨Nat.lt_succ_of_lt (made.closingDown client closing).1, (made.closingDown client closing).2⟩
  | true =>
      have inserted : (r.onNewConnection true).handlerToIdMap =
          Function.update r.handlerToIdMap r.streams (some (r.sessionId + 1)) :=
        mapInsert_of_none made.absent _
      have up : (r.onNewConnection true).up = Function.update r.up r.streams true := rfl
      have added : (r.onNewConnection true).added = r.added ++ [(r.sessionId + 1, r.streams)] := rfl
      constructor
      · intro client uHandlerId found
        rw [inserted] at found
        rw [added]
        by_cases same : client = r.streams
        · rw [same, Function.update_self] at found
          cases found
          rw [same]
          exact List.mem_append_right _ List.mem_cons_self
        · rw [Function.update_of_ne same] at found
          exact List.mem_append_left _ (made.entries client uHandlerId found)
      · intro entry member
        rw [added] at member
        rcases List.mem_append.mp member with before | new
        · exact Nat.lt_succ_of_lt (made.made entry before)
        · rw [List.mem_singleton.mp new]
          exact Nat.lt_succ_self _
      · intro client isUp
        rw [up] at isUp
        by_cases same : client = r.streams
        · rw [same]
          exact Nat.lt_succ_self _
        · rw [Function.update_of_ne same] at isUp
          exact Nat.lt_succ_of_lt (made.upMade client isUp)
      · intro client isUp
        rw [up] at isUp
        change (mapInsert r.openSessions r.streams (r.sessionId + 1) client).isSome
        unfold mapInsert
        by_cases same : client = r.streams
        · rw [same]
          split
          next there => exact there
          next => simp
        · rw [Function.update_of_ne same] at isUp
          have there := made.sessions client isUp
          split
          · exact there
          · rw [Function.update_of_ne same]
            exact there
      · intro client closing
        obtain ⟨old, down⟩ := made.closingDown client closing
        refine ⟨Nat.lt_succ_of_lt old, ?_⟩
        rw [up, Function.update_of_ne (Nat.ne_of_lt old)]
        exact down

theorem of_wentDown {up : Nat → Bool} {client other : Nat}
    (isUp : Function.update up client false other = true) : up other = true := by
  by_cases same : other = client
  · rw [same, Function.update_self] at isUp
    exact absurd isUp (by simp)
  · rw [Function.update_of_ne same] at isUp
    exact isUp

theorem wentDown_made (made : RegistryMade r) (client : Nat) :
    RegistryMade { r with up := Function.update r.up client false } := by
  refine ⟨made.entries, made.made, fun other up => made.upMade other (of_wentDown up),
    fun other up => made.sessions other (of_wentDown up), fun other closing => ?_⟩
  obtain ⟨old, down⟩ := made.closingDown other closing
  refine ⟨old, ?_⟩
  cases up : Function.update r.up client false other with
  | false => exact up
  | true => exact absurd (of_wentDown up) (by rw [down]; simp)

theorem removeClient_made (made : RegistryMade r) {client : Nat} (old : client < r.streams)
    (down : r.up client = false) (erased : UInt32) : RegistryMade (r.removeClient server client erased) := by
  obtain ⟨added, streams, up, sessions, fewer, marked⟩ := removeClient_frame r server client erased
  constructor
  · intro other uHandlerId found
    rw [added]
    exact made.entries other uHandlerId (fewer other uHandlerId found)
  · rw [added, streams]
    exact made.made
  · rw [up, streams]
    exact made.upMade
  · rw [up, sessions]
    exact made.sessions
  · intro other closing
    rw [up, streams]
    rcases marked other closing with same | before
    · rw [same]
      exact ⟨old, down⟩
    · exact made.closingDown other before

/-- One case for each event. -/
theorem sessionStep_made (made : RegistryMade r) (a : SessionEvent) : RegistryMade (sessionStep server r a) := by
  cases a with
  | accept accepted => exact accept_made made accepted
  | eof client erased =>
      simp only [sessionStep]
      split
      next up =>
        have down : Function.update r.up client false client = false := Function.update_self ..
        exact removeClient_made (wentDown_made made client) (made.upMade client up) down erased
      next => exact made
  | readError client =>
      simp only [sessionStep]
      split
      · exact wentDown_made made client
      · exact made
  | closed handle =>
      simp only [sessionStep]
      split
      next closing =>
        have notHandle : ∀ client, r.up client = true → client ≠ handle := by
          rintro client up rfl
          exact absurd up (by rw [(made.closingDown client closing).2]; simp)
        refine ⟨made.entries, made.made, made.upMade, fun client up => ?_, fun client still => ?_⟩
        · change (mapErase r.openSessions handle client).isSome
          rw [mapErase_of_ne (notHandle client up)]
          exact made.sessions client up
        · apply made.closingDown client
          change Function.update r.closing handle false client = true at still
          exact of_wentDown still
      next => exact made

/-! ## Each event

For each event the condition under which the maps stay right.
-/

/-- A new connection is entered under an id that no other had. -/
theorem accept_ok_iff (made : RegistryMade r) (ok : RegistryOk r) :
    RegistryOk (r.onNewConnection true) ↔ ∀ client, (r.sessionId + 1, client) ∉ r.added := by
  have inserted : (r.onNewConnection true).handlerToIdMap =
      Function.update r.handlerToIdMap r.streams (some (r.sessionId + 1)) :=
    mapInsert_of_none made.absent _
  have byId : (r.onNewConnection true).idToHandlerMap =
      mapInsert r.idToHandlerMap (r.sessionId + 1) r.streams := rfl
  have up : (r.onNewConnection true).up = Function.update r.up r.streams true := rfl
  have added : (r.onNewConnection true).added = r.added ++ [(r.sessionId + 1, r.streams)] := rfl
  constructor
  · intro okAfter client before
    have entry : (r.onNewConnection true).handlerToIdMap r.streams = some (r.sessionId + 1) := by
      rw [inserted, Function.update_self]
    have found := (okAfter.inverse _ _).mpr entry
    have member : (r.sessionId + 1, client) ∈ (r.onNewConnection true).added := by
      rw [added]
      exact List.mem_append_left _ before
    have old := made.made _ before
    rcases okAfter.own _ member with none | own
    · exact absurd (found.symm.trans none) (by simp)
    · have same : r.streams = client := Option.some.inj (found.symm.trans own)
      exact absurd old (by simp [same])
  · intro newId
    have absentId : r.idToHandlerMap (r.sessionId + 1) = none := by
      cases found : r.idToHandlerMap (r.sessionId + 1) with
      | none => rfl
      | some client => exact absurd (made.entries _ _ ((ok.inverse _ _).mp found)) (newId client)
    rw [mapInsert_of_none absentId] at byId
    constructor
    · intro uHandlerId client
      rw [byId, inserted]
      by_cases sameId : uHandlerId = r.sessionId + 1
      · by_cases same : client = r.streams
        · simp [sameId, same]
        · rw [sameId, Function.update_self, Function.update_of_ne same]
          constructor
          · intro here
            exact absurd (Option.some.inj here).symm same
          · intro entry
            exact absurd (made.entries _ _ entry) (newId client)
      · by_cases same : client = r.streams
        · rw [Function.update_of_ne sameId, same, Function.update_self]
          constructor
          · intro found
            have entry := (ok.inverse _ _).mp found
            rw [made.absent] at entry
            exact absurd entry (by simp)
          · intro entry
            exact absurd (Option.some.inj entry).symm sameId
        · rw [Function.update_of_ne sameId, Function.update_of_ne same]
          exact ok.inverse uHandlerId client
    · intro client
      rw [inserted, up]
      by_cases same : client = r.streams
      · simp [same]
      · rw [Function.update_of_ne same, Function.update_of_ne same]
        exact ok.upIff client
    · intro entry member
      rw [added] at member
      rw [Registry.getHandlerById, byId]
      rcases List.mem_append.mp member with before | new
      · have differs : entry.1 ≠ r.sessionId + 1 := by
          intro same
          exact newId entry.2 (same ▸ before)
        rw [Function.update_of_ne differs]
        exact ok.own entry before
      · rw [List.mem_singleton.mp new, Function.update_self]
        exact Or.inr rfl

/-- A connection that ends is taken from the maps when its id is read. -/
theorem eof_ok_iff (made : RegistryMade r) (ok : RegistryOk r) {client : Nat} (isUp : r.up client = true)
    (erased : UInt32) :
    RegistryOk ({ r with up := Function.update r.up client false }.removeClient server client erased) ↔
      server ≠ .gameLogic ∧ r.handlerToIdMap client = some erased := by
  obtain ⟨id, session⟩ := Option.isSome_iff_exists.mp (made.sessions client isUp)
  obtain ⟨uHandlerId, entry⟩ := Option.isSome_iff_exists.mp ((ok.upIff client).mpr isUp)
  rw [removeClient_eq (r := { r with up := Function.update r.up client false }) session entry]
  constructor
  · intro okAfter
    have gone : (if server = .gameLogic then r.handlerToIdMap else mapErase r.handlerToIdMap client) client =
        none := by
      have iff := okAfter.upIff client
      dsimp only at iff
      rw [Function.update_self] at iff
      simpa using iff
    have notLogic : server ≠ .gameLogic := by
      rintro rfl
      rw [if_pos rfl, entry] at gone
      exact absurd gone (by simp)
    refine ⟨notLogic, ?_⟩
    have both := okAfter.inverse uHandlerId client
    dsimp only at both
    rw [if_neg notLogic, if_neg notLogic, mapErase_self] at both
    have here := (ok.inverse _ _).mpr entry
    by_cases same : uHandlerId = erased
    · rw [← same]
      exact entry
    · rw [mapErase_of_ne same, here] at both
      exact absurd (both.mp rfl) (by simp)
  · rintro ⟨notLogic, read⟩
    rw [if_neg notLogic, if_neg notLogic]
    constructor
    · intro other stream
      dsimp only
      by_cases same : stream = client
      · rw [same, mapErase_self]
        constructor
        · intro found
          obtain ⟨differs, before⟩ := of_mapErase found
          have entry := (ok.inverse _ _).mp before
          rw [read] at entry
          exact absurd (Option.some.inj entry).symm differs
        · intro none
          exact absurd none (by simp)
      · rw [mapErase_of_ne same, ← ok.inverse]
        constructor
        · intro found
          exact (of_mapErase found).2
        · intro found
          have differs : other ≠ erased := by
            rintro rfl
            have here := (ok.inverse _ _).mpr read
            exact same (Option.some.inj (found.symm.trans here))
          rw [mapErase_of_ne differs]
          exact found
    · intro other
      dsimp only
      by_cases same : other = client
      · rw [same, mapErase_self, Function.update_self]
        simp
      · rw [mapErase_of_ne same, Function.update_of_ne same]
        exact ok.upIff other
    · intro given member
      dsimp only [Registry.getHandlerById]
      by_cases same : given.1 = erased
      · rw [same, mapErase_self]
        exact Or.inl rfl
      · rw [mapErase_of_ne same]
        exact ok.own given member

theorem sessionStep_ok_iff (made : RegistryMade r) (ok : RegistryOk r) (a : SessionEvent) :
    RegistryOk (sessionStep server r a) ↔ SessionGuard server r a := by
  cases a with
  | accept accepted =>
      cases accepted with
      | false =>
          have kept : RegistryOk (r.onNewConnection false) := ⟨ok.inverse, ok.upIff, ok.own⟩
          exact ⟨fun _ no => absurd no (by simp), fun _ => kept⟩
      | true =>
          rw [sessionStep, accept_ok_iff made ok]
          exact ⟨fun newId _ => newId, fun guard => guard rfl⟩
  | eof client erased =>
      cases isUp : r.up client with
      | false =>
          have nothing : sessionStep server r (.eof client erased) = r := by
            rw [sessionStep, isUp]
            rfl
          rw [nothing]
          exact ⟨fun _ up => absurd (isUp.symm.trans up) (by simp), fun _ => ok⟩
      | true =>
          rw [sessionStep, if_pos isUp, eof_ok_iff made ok isUp]
          exact ⟨fun read _ => read, fun guard => guard isUp⟩
  | readError client =>
      cases isUp : r.up client with
      | false =>
          have nothing : sessionStep server r (.readError client) = r := by
            rw [sessionStep, isUp]
            rfl
          rw [nothing]
          exact ⟨fun _ => isUp, fun _ => ok⟩
      | true =>
          rw [sessionStep, if_pos isUp]
          constructor
          · intro okAfter
            have iff := okAfter.upIff client
            dsimp only at iff
            rw [Function.update_self] at iff
            exact absurd (iff.mp ((ok.upIff client).mpr isUp)) (by simp)
          · intro down
            exact absurd (isUp.symm.trans down) (by simp)
  | closed handle =>
      simp only [sessionStep]
      refine ⟨fun _ => trivial, fun _ => ?_⟩
      split
      · exact ⟨ok.inverse, ok.upIff, ok.own⟩
      · exact ok

/-- An event that leaves all well leaves the entries of others alone. -/
theorem sessionStep_othersKept (made : RegistryMade r) (ok : RegistryOk r) {a : SessionEvent}
    (guard : SessionGuard server r a) : OthersKept r (sessionStep server r a) a := by
  cases a with
  | accept accepted => trivial
  | eof client erased =>
      simp only [sessionStep]
      split
      next isUp =>
        obtain ⟨notLogic, read⟩ := guard isUp
        obtain ⟨id, session⟩ := Option.isSome_iff_exists.mp (made.sessions client isUp)
        rw [removeClient_eq (r := { r with up := Function.update r.up client false }) session read,
          if_neg notLogic, if_neg notLogic]
        refine ⟨fun other differs => mapErase_of_ne differs, fun uHandlerId elsewhere => ?_⟩
        apply mapErase_of_ne
        rintro rfl
        exact elsewhere ((ok.inverse _ _).mpr read)
      next => exact ⟨fun _ _ => rfl, fun _ _ => rfl⟩
  | readError client =>
      simp only [sessionStep]
      split <;> exact ⟨fun _ _ => rfl, fun _ _ => rfl⟩
  | closed handle =>
      simp only [sessionStep]
      split <;> exact ⟨fun _ _ => rfl, fun _ _ => rfl⟩

end Steps

/-! ## Runs

The condition on each event of a run, from the start.
-/

theorem registryMade (server : ServerClass) (events : List SessionEvent) :
    RegistryMade (events.foldl (sessionStep server) .init) := by
  have run := runSteps_always (sessionStep server) .init events
  apply runSteps_invariant _ registryMade_init run
  intro s a s' made step
  cases step
  exact sessionStep_made made a

/-- The maps are right after every event exactly when every event is guarded. -/
theorem registryOk_iff (server : ServerClass) (events : List SessionEvent) :
    (∀ past, past <+: events → RegistryOk (past.foldl (sessionStep server) .init)) ↔
      Guarded (always (sessionStep server)) (SessionGuard server) .init events := by
  have both := forall_prefix_iff_guarded (f := sessionStep server) (G := SessionGuard server)
    (fun r a (inv : RegistryMade r ∧ RegistryOk r) =>
      (and_iff_right (sessionStep_made inv.1 a)).trans (sessionStep_ok_iff inv.1 inv.2 a))
    ⟨registryMade_init, registryOk_init⟩ events
  rw [← both]
  constructor
  · intro holds past isPrefix
    exact ⟨registryMade server past, holds past isPrefix⟩
  · intro holds past isPrefix
    exact (holds past isPrefix).2

/-- **Session registry.** The maps are right after every event, and no connection takes another's entries along,
exactly when every event is guarded. -/
theorem registry_iff (server : ServerClass) (events : List SessionEvent) :
    ((∀ past, past <+: events → RegistryOk (past.foldl (sessionStep server) .init)) ∧
      ∀ past a, past ++ [a] <+: events →
        OthersKept (past.foldl (sessionStep server) .init) ((past ++ [a]).foldl (sessionStep server) .init) a) ↔
    Guarded (always (sessionStep server)) (SessionGuard server) .init events := by
  rw [← registryOk_iff]
  refine ⟨And.left, fun holds => ⟨holds, fun past a isPrefix => ?_⟩⟩
  have guarded := (registryOk_iff server (past ++ [a])).mp fun first isFirst => holds first (isFirst.trans isPrefix)
  have guard := guarded.last (runSteps_always (sessionStep server) .init past)
  have ok := holds past ((List.prefix_append past [a]).trans isPrefix)
  rw [List.foldl_append]
  exact sessionStep_othersKept (registryMade server past) ok guard

/-- A client of the gateway is reset: his stream stays under his id. -/
theorem entry_stays_after_reset :
    ¬ ∀ server events,
      (∀ past, past <+: events → RegistryOk (past.foldl (sessionStep server) .init)) ∧
        ∀ past a, past ++ [a] <+: events →
          OthersKept (past.foldl (sessionStep server) .init) ((past ++ [a]).foldl (sessionStep server) .init) a := by
  intro always
  have ok := (always .gateway [.accept true, .readError 0]).1 _ List.prefix_rfl
  exact absurd ((ok.upIff 0).mp rfl) (by decide)

end GameServer.Net
