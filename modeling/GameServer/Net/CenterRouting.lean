/-
Module: GameServer.Net.CenterRouting
Purpose: The center server's map from server types to connections: when packets for a server type find the server
  that registered for it last.
Trusted boundary: that of `SessionRegistry`; the server type of a request to register is a whole number that fits,
  and its other parameters have the types that `RegisterProtocol` asks for
Main exports: CenterServer, RoutingEvent, routingStep, RoutingOk, RoutingGuard, routing_of_guarded
-/
import Mathlib.Data.List.Basic
import GameServer.Net.SessionRegistry

namespace GameServer.Net

open Lib

/-- A request to register that was served: the server type, the connection and its handler id. -/
structure Registration where
  uServerType : UInt32
  client : Nat
  uHandlerId : UInt32
deriving Repr, DecidableEq

/-- `CenterServer`, with the registrations, the last one first, which no function reads. -/
structure CenterServer where
  registry : Registry
  mapServerTypeToHandler : UInt32 → Option UInt32
  registrations : List Registration

namespace CenterServer

/-- A center server that has just been started. -/
def init : CenterServer where
  registry := .init
  mapServerTypeToHandler _ := none
  registrations := []

variable (w : CenterServer)

/-- `SetServerTypeToHandler`. -/
def setServerTypeToHandler (uServerType uHandlerId : UInt32) : CenterServer :=
  { w with mapServerTypeToHandler := mapInsert w.mapServerTypeToHandler uServerType uHandlerId }

/-- `GetServerTypeToHandler`. -/
def getServerTypeToHandler (uServerType : UInt32) : UInt32 := (w.mapServerTypeToHandler uServerType).getD 0

/-- The connection that `TransferToClient` writes a packet for the server type to; none when it finds none. -/
def transferTo (uServerType : UInt32) : Option Nat := w.registry.getHandlerById (w.getServerTypeToHandler uServerType)

/-- `RegisterProtocol` and `RegisterServer`, for the session that a packet was read from. -/
def registerProtocol (client : Nat) (uServerType : UInt32) : CenterServer :=
  match w.registry.openSessions client with
  | some uHandlerId =>
      { w.setServerTypeToHandler uServerType uHandlerId with
        registrations := ⟨uServerType, client, uHandlerId⟩ :: w.registrations }
  | none => w

/-- The last registration for the server type whose connection is still up. -/
def latest (uServerType : UInt32) : Option Registration :=
  w.registrations.find? fun reg => reg.uServerType = uServerType && w.registry.up reg.client

end CenterServer

inductive RoutingEvent where
  | session (event : SessionEvent)
  | register (client : Nat) (uServerType : UInt32)
deriving Repr, DecidableEq

def routingStep (w : CenterServer) : RoutingEvent → CenterServer
  | .session event => { w with registry := sessionStep .center w.registry event }
  | .register client uServerType =>
      if w.registry.up client then w.registerProtocol client uServerType else w

/-! ## The property and its condition

A packet for a server type goes to the server of this type that registered last, as long as its connection is up.
-/

/-- A server type leads to the handler id and to the connection of the last registration that is up, and to 0 if
there is none. -/
def RoutingOk (w : CenterServer) : Prop :=
  ∀ uServerType,
    match w.latest uServerType with
    | some reg =>
        w.getServerTypeToHandler uServerType = reg.uHandlerId ∧ w.transferTo uServerType = some reg.client
    | none => w.getServerTypeToHandler uServerType = 0

/-- The events after which packets are routed as they should: no server that has registered goes, no other
connection that ends takes the entry of one along, and a server registers for a type that has no entry, or its own,
while it is found under its id. -/
def RoutingGuard (w : CenterServer) : RoutingEvent → Prop
  | .session (.eof client erased) => w.registry.up client = true →
      ∀ reg ∈ w.registrations, reg.client ≠ client ∧ (w.registry.up reg.client = true → reg.uHandlerId ≠ erased)
  | .session (.readError client) => w.registry.up client = true → ∀ reg ∈ w.registrations, reg.client ≠ client
  | .session _ => True
  | .register client uServerType => w.registry.up client = true →
      ∀ uHandlerId ∈ w.registry.openSessions client,
        (w.mapServerTypeToHandler uServerType = none ∨ w.mapServerTypeToHandler uServerType = some uHandlerId) ∧
          w.registry.getHandlerById uHandlerId = some client

/-! ## The invariant

The maps say what the registrations that are up say, which every event keeps.
-/

/-- Every registration that is up has its entries, and there are no others. -/
structure RoutingKept (w : CenterServer) : Prop where
  made : ∀ reg ∈ w.registrations, reg.client < w.registry.streams
  entries : ∀ reg ∈ w.registrations, w.registry.up reg.client = true →
    w.mapServerTypeToHandler reg.uServerType = some reg.uHandlerId ∧
      w.registry.getHandlerById reg.uHandlerId = some reg.client
  live : ∀ uServerType uHandlerId, w.mapServerTypeToHandler uServerType = some uHandlerId →
    ∃ reg ∈ w.registrations, reg.uServerType = uServerType ∧ w.registry.up reg.client = true

theorem routingKept_init : RoutingKept .init := by
  constructor
  · intro reg member
    exact absurd member (by simp [CenterServer.init])
  · intro reg member
    exact absurd member (by simp [CenterServer.init])
  · intro uServerType uHandlerId found
    exact absurd found (by simp [CenterServer.init])

section Steps

variable {w : CenterServer}

/-- Entries of registrations are the ones that are looked for. -/
theorem RoutingKept.routingOk (kept : RoutingKept w) : RoutingOk w := by
  intro uServerType
  cases found : w.latest uServerType with
  | some reg =>
      have member : reg ∈ w.registrations := List.mem_of_find?_eq_some found
      have meets := List.find?_some found
      rw [Bool.and_eq_true, decide_eq_true_eq] at meets
      obtain ⟨entry, stream⟩ := kept.entries reg member meets.2
      rw [meets.1] at entry
      have handler : w.getServerTypeToHandler uServerType = reg.uHandlerId := by
        rw [CenterServer.getServerTypeToHandler, entry]
        rfl
      refine ⟨handler, ?_⟩
      rw [CenterServer.transferTo, handler]
      exact stream
  | none =>
      have none : w.mapServerTypeToHandler uServerType = none := by
        cases entry : w.mapServerTypeToHandler uServerType with
        | none => rfl
        | some uHandlerId =>
            obtain ⟨reg, member, his, up⟩ := kept.live uServerType uHandlerId entry
            have missed := List.find?_eq_none.mp found reg member
            exact absurd missed (by simp [his, up])
      change w.getServerTypeToHandler uServerType = 0
      rw [CenterServer.getServerTypeToHandler, none]
      rfl

/-- What a session event must leave as it is. -/
theorem RoutingKept.session (kept : RoutingKept w) {r' : Registry} (streams : w.registry.streams ≤ r'.streams)
    (up : ∀ reg ∈ w.registrations, r'.up reg.client = w.registry.up reg.client)
    (found : ∀ reg ∈ w.registrations, w.registry.up reg.client = true →
      r'.getHandlerById reg.uHandlerId = w.registry.getHandlerById reg.uHandlerId) :
    RoutingKept { w with registry := r' } := by
  constructor
  · intro reg member
    exact Nat.lt_of_lt_of_le (kept.made reg member) streams
  · intro reg member isUp
    have wasUp : w.registry.up reg.client = true := (up reg member).symm.trans isUp
    obtain ⟨entry, stream⟩ := kept.entries reg member wasUp
    exact ⟨entry, (found reg member wasUp).trans stream⟩
  · intro uServerType uHandlerId entry
    obtain ⟨reg, member, his, wasUp⟩ := kept.live uServerType uHandlerId entry
    exact ⟨reg, member, his, (up reg member).trans wasUp⟩

theorem accept_routing (kept : RoutingKept w) (accepted : Bool) :
    RoutingKept { w with registry := w.registry.onNewConnection accepted } := by
  cases accepted with
  | false => exact kept.session (Nat.le_succ _) (fun _ _ => rfl) fun _ _ _ => rfl
  | true =>
      apply kept.session (Nat.le_succ _)
      · intro reg member
        exact Function.update_of_ne (Nat.ne_of_lt (kept.made reg member)) ..
      · intro reg member isUp
        obtain ⟨_, stream⟩ := kept.entries reg member isUp
        have there : w.registry.idToHandlerMap reg.uHandlerId = some reg.client := stream
        change mapInsert w.registry.idToHandlerMap (w.registry.sessionId + 1) w.registry.streams reg.uHandlerId = _
        unfold mapInsert
        split
        · rfl
        next free =>
          apply Function.update_of_ne
          rintro same
          rw [← same, there] at free
          exact free rfl

theorem eof_routing (kept : RoutingKept w) {client : Nat} {erased : UInt32}
    (guard : RoutingGuard w (.session (.eof client erased))) :
    RoutingKept { w with registry := sessionStep .center w.registry (.eof client erased) } := by
  simp only [sessionStep]
  split
  next isUp =>
    have others := guard isUp
    let down : Registry := { w.registry with up := Function.update w.registry.up client false }
    obtain ⟨_, streams, up, _⟩ := removeClient_frame down .center client erased
    apply kept.session
    · exact Nat.le_of_eq streams.symm
    · intro reg member
      rw [up]
      exact Function.update_of_ne (others reg member).1 ..
    · intro reg member wasUp
      have differs : reg.uHandlerId ≠ erased := (others reg member).2 wasUp
      have erasedMap : (down.removeClient .center client erased).idToHandlerMap = down.idToHandlerMap ∨
          (down.removeClient .center client erased).idToHandlerMap = mapErase down.idToHandlerMap erased := by
        unfold Registry.removeClient Registry.eraseMaps
        cases session : down.openSessions client with
        | none => exact Or.inl rfl
        | some id =>
            dsimp only
            cases down.handlerToIdMap client with
            | none => exact Or.inl rfl
            | some uHandlerId => exact Or.inr rfl
      rcases erasedMap with same | erasedOne
      · exact congrFun same reg.uHandlerId
      · exact (congrFun erasedOne reg.uHandlerId).trans (mapErase_of_ne differs)
  next => exact kept

theorem register_routing (kept : RoutingKept w) (made : RegistryMade w.registry) {client : Nat} {uServerType : UInt32}
    (guard : RoutingGuard w (.register client uServerType)) :
    RoutingKept (routingStep w (.register client uServerType)) := by
  simp only [routingStep]
  split
  next isUp =>
    unfold CenterServer.registerProtocol
    cases session : w.registry.openSessions client with
    | none => exact kept
    | some uHandlerId =>
        obtain ⟨free, stream⟩ := guard isUp uHandlerId (by rw [session]; rfl)
        -- the entry is the server's, whether it was there or not
        have entry : mapInsert w.mapServerTypeToHandler uServerType uHandlerId uServerType = some uHandlerId := by
          rcases free with none | own
          · rw [mapInsert_of_none none, Function.update_self]
          · rw [mapInsert, own]
            exact own
        have others : ∀ other, other ≠ uServerType →
            mapInsert w.mapServerTypeToHandler uServerType uHandlerId other = w.mapServerTypeToHandler other := by
          intro other differs
          unfold mapInsert
          split
          · rfl
          · exact Function.update_of_ne differs ..
        constructor
        · intro reg member
          rcases List.mem_cons.mp member with new | before
          · rw [new]
            exact made.upMade client isUp
          · exact kept.made reg before
        · intro reg member up
          change mapInsert w.mapServerTypeToHandler uServerType uHandlerId reg.uServerType = some reg.uHandlerId ∧ _
          rcases List.mem_cons.mp member with new | before
          · rw [new]
            exact ⟨entry, stream⟩
          · obtain ⟨before, there⟩ := kept.entries reg before up
            refine ⟨?_, there⟩
            by_cases same : reg.uServerType = uServerType
            · rw [same] at before ⊢
              rcases free with none | own
              · exact absurd (none.symm.trans before) (by simp)
              · rw [entry, ← own, before]
            · rw [others _ same]
              exact before
        · intro other id found
          change mapInsert w.mapServerTypeToHandler uServerType uHandlerId other = some id at found
          by_cases same : other = uServerType
          · exact ⟨⟨uServerType, client, uHandlerId⟩, List.mem_cons_self, same.symm, isUp⟩
          · rw [others other same] at found
            obtain ⟨reg, member, his, up⟩ := kept.live other id found
            exact ⟨reg, List.mem_cons_of_mem _ member, his, up⟩
  next => exact kept

/-- One case for each event. -/
theorem routingStep_kept (kept : RoutingKept w) (made : RegistryMade w.registry) {a : RoutingEvent}
    (guard : RoutingGuard w a) : RoutingKept (routingStep w a) := by
  cases a with
  | session event =>
      cases event with
      | accept accepted => exact accept_routing kept accepted
      | eof client erased => exact eof_routing kept guard
      | readError client =>
          simp only [routingStep, sessionStep]
          split
          next isUp =>
            refine kept.session (Nat.le_refl _) ?_ ?_
            · intro reg member
              exact Function.update_of_ne (guard isUp reg member) ..
            · intro _ _ _
              rfl
          next => exact kept
      | closed handle =>
          simp only [routingStep, sessionStep]
          split
          · exact kept.session (Nat.le_refl _) (fun _ _ => rfl) fun _ _ _ => rfl
          · exact kept
  | register client uServerType => exact register_routing kept made guard

/-- The events of the registry come from sessions alone. -/
theorem routingStep_made (made : RegistryMade w.registry) (a : RoutingEvent) :
    RegistryMade (routingStep w a).registry := by
  cases a with
  | session event => exact sessionStep_made made event
  | register client uServerType =>
      simp only [routingStep]
      split
      · unfold CenterServer.registerProtocol
        split <;> exact made
      · exact made

end Steps

/-- **Center routing.** After a run whose events all are guarded, every server type leads to the server that
registered for it last. -/
theorem routing_of_guarded (events : List RoutingEvent)
    (guarded : Guarded (always routingStep) RoutingGuard .init events) :
    RoutingOk (events.foldl routingStep .init) := by
  have run := runSteps_always routingStep .init events
  let Inv : CenterServer → Prop := fun w => RegistryMade w.registry ∧ RoutingKept w
  have keep : ∀ s a s', Inv s → RoutingGuard s a → always routingStep s a = some s' → Inv s' := by
    intro s a s' inv guard step
    cases step
    exact ⟨routingStep_made inv.1 a, routingStep_kept inv.2 inv.1 guard⟩
  have start : Inv .init := ⟨registryMade_init, routingKept_init⟩
  exact (guarded_invariant keep start guarded run).2.routingOk

/-- The logic server (type 2) and the room server (type 3) register; a third connection comes and ends. -/
theorem routing_of_guarded_twoServers :
    RoutingOk ([.session (.accept true), .register 0 2, .session (.accept true), .register 1 3,
      .session (.accept true), .session (.eof 2 3)].foldl routingStep .init) := by
  apply routing_of_guarded
  apply Guarded.always_cons trivial
  apply Guarded.always_cons
  · intro _ uHandlerId session
    cases session
    exact ⟨Or.inl rfl, rfl⟩
  apply Guarded.always_cons trivial
  apply Guarded.always_cons
  · intro _ uHandlerId session
    cases session
    exact ⟨Or.inl rfl, rfl⟩
  apply Guarded.always_cons trivial
  apply Guarded.always_cons
  · intro _ reg member
    have two : reg ∈ [(⟨3, 1, 2⟩ : Registration), ⟨2, 0, 1⟩] := member
    rcases List.mem_cons.mp two with first | second
    · rw [first]
      exact ⟨by decide, fun _ => by decide⟩
    · rw [List.mem_singleton.mp second]
      exact ⟨by decide, fun _ => by decide⟩
  exact trivial

/-- The logic server goes, comes again and registers again: packets for it go to its first connection. -/
theorem old_connection_after_reconnect :
    ¬ RoutingOk ([.session (.accept true), .register 0 2, .session (.eof 0 1), .session (.closed 0),
      .session (.accept true), .register 1 2].foldl routingStep .init) := by
  intro ok
  have routed := (ok 2).1
  exact absurd routed (by decide)

end GameServer.Net
