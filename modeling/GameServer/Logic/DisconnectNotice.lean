/-
Module: GameServer.Logic.DisconnectNotice
Purpose: A notice of a lost connection on the logic server: whom it releases, and the entry it leaves in the queue of
  requests.
Trusted boundary: `json.decode` is a parameter, and so is what `ClientRequest` does for other events; the event of the
  notice is `USER_DISCONNECT`
Main exports: onClientRequest, Released, NoticeRight, released_of_number, entries_of_notices,
  notice_released, noticeRight_never
-/
import GameServer.Lib.LuaM
import GameServer.Logic.FriendLogic
import GameServer.Net.ClientPackets
import GameServer.Net.DisconnectNotice

namespace GameServer.Logic

open Lib Lib.LuaM Script Net

/-! ## The scripts

The path of a notice from the packet to the handler.
-/

/-- `PopRequestFromSquence`. -/
def popRequestFromSquence (nHandlerId : Int) : LuaM LogicWorld Unit := do
  let w ← get
  match w.net.popRequestFromSquence nHandlerId with
  | .ok net => modify fun w => { w with net := net }
  | .error net => do
      modify fun w => { w with net := net }
      raise

section Scripts

-- `json.decode`, which raises, or returns a table or something else
variable (jsonDecode : List UInt8 → Except Unit (Option (List LuaValue)))
-- what `ClientRequest` does for other events
variable (otherEvent : Int → Int → Int → List LuaValue → LuaM LogicWorld Unit)

/-- `ClientRequest`.  The event of a lost connection goes to `OnUserDisconnect`, and its request stays in the queue. -/
def dispatchRequest (nHandlerId nEventId nSequenceId : Int) (tbParam : List LuaValue) : LuaM LogicWorld Unit :=
  if nEventId = uUserDisconnect.toNat then modify fun w => w.userDisconnect (tbParam.headD .nil)
  else otherEvent nHandlerId nEventId nSequenceId tbParam

/-- `OnClientRequest`. -/
def onClientRequest (nHandlerId nEventId nSequenceId : Int) (strJson : List UInt8) : LuaM LogicWorld Unit := do
  let bRet ← pcall do
    match jsonDecode strJson with
    | .error _ => raise
    | .ok none => pure ()
    | .ok (some tbParam) => do
        modify fun w => { w with net := w.net.pushRequestToSquence nHandlerId ⟨nSequenceId, tbParam, 0⟩ }
        dispatchRequest otherEvent nHandlerId nEventId nSequenceId tbParam
  if bRet.isNone then popRequestFromSquence nHandlerId else pure ()

/-- The call that `callLua` makes. -/
def callOf : NetEvent → LuaM LogicWorld Unit
  | .callLua uHandlerId uEventType uSequenceId pParam =>
      onClientRequest jsonDecode otherEvent uHandlerId.toNat uEventType.toNat uSequenceId.toNat pParam
  | _ => pure ()

/-- The logic server after the calls for a packet of the gateway. -/
def afterPacket (parseFromArray : List UInt8 → Option (List UInt8)) (packet : List UInt8) (w : LogicWorld) : LogicWorld :=
  (GameLogicServer.onPacket parseFromArray serverTypeGateway (wholeBuffer packet)).foldl
    (fun w call => (exec (callOf jsonDecode otherEvent call) w).2) w

/-! ## What a notice should do

`Released` is about the maps and the pool, `NoticeRight` also about the queue of requests.
-/

/-- The connection has no user any more, its user has neither connection nor object, and for everybody else all is as it
was. -/
structure Released (nHandlerId : Int) (w w' : LogicWorld) : Prop where
  handler : w'.net.getUserId nHandlerId = .nil
  user : w.net.getUserId nHandlerId ≠ .nil → w'.net.getHandlerId (w.net.getUserId nHandlerId) = none ∧
    w'.users.userDataPool (w.net.getUserId nHandlerId).tostring = none
  otherHandlers : ∀ k, k ≠ nHandlerId → w'.net.getUserId k = w.net.getUserId k
  otherUsers : ∀ key, w.net.getUserId nHandlerId = .nil ∨ key ≠ (w.net.getUserId nHandlerId).tostring →
    w'.net.userHanderIdMap key = w.net.userHanderIdMap key ∧ w'.users.userDataPool key = w.users.userDataPool key

/-- The text is in its array, the packet is decoded to the event and the handler id, the connection is released, and the
queues of requests are as before. -/
structure NoticeRight (serializeToString : List UInt8 → List UInt8) (parseFromArray : List UInt8 → Option (List UInt8))
    (uHandlerId : UInt32) (w : LogicWorld) : Prop where
  fits : FitsArray uHandlerId
  decoded : ∃ text, GameLogicServer.onPacket parseFromArray serverTypeGateway
      (wholeBuffer (noticePacket serializeToString uHandlerId)) = [.callLua 0 uUserDisconnect 0 text] ∧
    jsonDecode text = .ok (some [.number uHandlerId.toNat])
  released : Released uHandlerId.toNat w
    (afterPacket jsonDecode otherEvent parseFromArray (noticePacket serializeToString uHandlerId) w)
  noEntry : (afterPacket jsonDecode otherEvent parseFromArray (noticePacket serializeToString uHandlerId) w
    ).net.requestSquence = w.net.requestSquence

/-! ## What it does

A notice that is decoded releases the user, but the request that it has put into the queue of connection 0 stays
there, so no notice is right.
-/

@[simp] theorem requestSquence_userDisconnect (w : LogicWorld) (nHandlerId : LuaValue) :
    (w.userDisconnect nHandlerId).net.requestSquence = w.net.requestSquence := by
  unfold LogicWorld.userDisconnect NetManager.onUserDisconnect
  cases w.net.userOfDisconnect nHandlerId with
  | none => rfl
  | some found =>
      simp only [NetManager.releaseUserId, NetManager.setUserId, NetManager.releaseHandler]
      repeat' split
      all_goals rfl

/-- A notice with a list of one value pushes it under connection 0, and the user is released. -/
theorem onClientRequest_notice {text : List UInt8} {nHandlerId : LuaValue}
    (json : jsonDecode text = .ok (some [nHandlerId])) (w : LogicWorld) :
    exec (onClientRequest jsonDecode otherEvent 0 uUserDisconnect.toNat 0 text) w =
      (.ok (), { w with net := w.net.pushRequestToSquence 0 ⟨0, [nHandlerId], 0⟩ }.userDisconnect nHandlerId) := by
  simp only [onClientRequest, exec_bind, exec_pcall, json, exec_modify, dispatchRequest, if_true]
  rfl

/-- The request of the notice stays at the end of the queue of connection 0. -/
theorem requestSquence_notice {text : List UInt8} {nHandlerId : LuaValue}
    (json : jsonDecode text = .ok (some [nHandlerId])) (w : LogicWorld) :
    (exec (onClientRequest jsonDecode otherEvent 0 uUserDisconnect.toNat 0 text) w).2.net.requestSquence =
      Function.update w.net.requestSquence 0 (some ((w.net.requestSquence 0).getD [] ++ [⟨0, [nHandlerId], 0⟩])) := by
  rw [onClientRequest_notice jsonDecode otherEvent json, requestSquence_userDisconnect]
  rfl

/-- Every notice adds an entry, and none is ever removed by them. -/
theorem entries_of_notices (notices : List (List UInt8 × LuaValue))
    (json : ∀ notice ∈ notices, jsonDecode notice.1 = .ok (some [notice.2])) (w : LogicWorld) :
    ((notices.foldl (fun w notice => (exec (onClientRequest jsonDecode otherEvent 0 uUserDisconnect.toNat 0 notice.1) w).2)
      w).net.requestSquence 0).getD [] =
      (w.net.requestSquence 0).getD [] ++ notices.map fun notice => ⟨0, [notice.2], 0⟩ := by
  induction notices generalizing w with
  | nil => simp
  | cons notice notices ih =>
      rw [List.foldl_cons, ih (fun other member => json other (List.mem_cons_of_mem _ member)),
        requestSquence_notice jsonDecode otherEvent (json notice List.mem_cons_self)]
      simp

/-- The user of a positive connection, when it is a number, is released. -/
theorem released_of_number {w : LogicWorld} {nHandlerId nUserId : Int} (positive : 0 < nHandlerId)
    (onIt : w.net.getUserId nHandlerId = .number nUserId) : Released nHandlerId w (w.userDisconnect (.number nHandlerId)) := by
  have found : w.net.userOfDisconnect (.number nHandlerId) = some (nHandlerId, .number nUserId) := by
    simp [NetManager.userOfDisconnect, onIt, LuaValue.isNumber]
  have net : (w.userDisconnect (.number nHandlerId)).net =
      (w.net.releaseUserId nHandlerId).releaseHandler (.number nUserId) := by
    simp only [LogicWorld.userDisconnect, NetManager.onUserDisconnect, found]
  have users : (w.userDisconnect (.number nHandlerId)).users =
      w.users.releaseUserObject (LuaValue.number nUserId).tostring := by
    simp only [LogicWorld.userDisconnect, found]
  have released : w.net.releaseUserId nHandlerId =
      { w.net with handerIdUserMap := Function.update w.net.handerIdUserMap nHandlerId .nil } := by
    rw [NetManager.releaseUserId, NetManager.setUserId, if_pos positive]
  have handlers : ∀ k, (w.userDisconnect (.number nHandlerId)).net.getUserId k =
      if k = nHandlerId then .nil else w.net.getUserId k := by
    intro k
    rw [net, released, NetManager.releaseHandler]
    split
    · exact Function.update_apply _ _ _ _
    · exact Function.update_apply _ _ _ _
  have names : ∀ key, (w.userDisconnect (.number nHandlerId)).net.userHanderIdMap key =
      if key = (LuaValue.number nUserId).tostring then none else w.net.userHanderIdMap key := by
    intro key
    rw [net, released, NetManager.releaseHandler]
    split
    · exact Function.update_apply _ _ _ _
    next missing =>
      by_cases same : key = (LuaValue.number nUserId).tostring
      · rw [if_pos same, same]
        exact missing
      · rw [if_neg same]
  constructor
  · rw [handlers, if_pos rfl]
  · intro _
    rw [onIt, NetManager.getHandlerId, names, if_pos rfl, users]
    exact ⟨rfl, Function.update_self _ _ _⟩
  · intro k other
    rw [handlers, if_neg other]
  · rintro key (nobody | other)
    · rw [onIt] at nobody
      cases nobody
    · rw [onIt] at other
      rw [names, if_neg other, users]
      exact ⟨rfl, Function.update_of_ne other _ _⟩

/-- A connection without a user is as it should be, and nothing is done. -/
theorem released_of_nobody {w : LogicWorld} {nHandlerId : Int} (nobody : w.net.getUserId nHandlerId = .nil) :
    Released nHandlerId w (w.userDisconnect (.number nHandlerId)) := by
  have nothing : w.userDisconnect (.number nHandlerId) = w := by
    simp [LogicWorld.userDisconnect, NetManager.userOfDisconnect, nobody, LuaValue.isNumber]
  rw [nothing]
  exact ⟨nobody, fun someone => absurd nobody someone, fun _ _ => rfl, fun _ _ => ⟨rfl, rfl⟩⟩

section Packet

variable {serializeToString : List UInt8 → List UInt8} {parseFromArray : List UInt8 → Option (List UInt8)}
variable {jsonDecode} {otherEvent}

/-- What the logic server does for the packet of a notice, when it is decoded. -/
theorem afterPacket_eq {packet text : List UInt8} {nHandlerId : LuaValue}
    (call : GameLogicServer.onPacket parseFromArray serverTypeGateway (wholeBuffer packet) =
      [.callLua 0 uUserDisconnect 0 text])
    (json : jsonDecode text = .ok (some [nHandlerId])) (w : LogicWorld) :
    afterPacket jsonDecode otherEvent parseFromArray packet w =
      { w with net := w.net.pushRequestToSquence 0 ⟨0, [nHandlerId], 0⟩ }.userDisconnect nHandlerId := by
  rw [afterPacket, call]
  exact congrArg Prod.snd (onClientRequest_notice jsonDecode otherEvent json w)

/-- A notice that is decoded leaves its request behind. -/
theorem requestSquence_afterPacket_ne {packet text : List UInt8} {nHandlerId : LuaValue}
    (call : GameLogicServer.onPacket parseFromArray serverTypeGateway (wholeBuffer packet) =
      [.callLua 0 uUserDisconnect 0 text])
    (json : jsonDecode text = .ok (some [nHandlerId])) (w : LogicWorld) :
    (afterPacket jsonDecode otherEvent parseFromArray packet w).net.requestSquence ≠ w.net.requestSquence := by
  rw [afterPacket_eq call json, requestSquence_userDisconnect]
  intro same
  have queue := congrFun same 0
  simp only [NetManager.pushRequestToSquence, Function.update_self] at queue
  have lengths := congrArg (fun queue : Option (List Request) => (queue.getD []).length) queue
  simp at lengths

/-- For a handler id from 1 to 99 that has no user, or one whose id is a number, all but the queue is right. -/
theorem notice_released (roundTrip : ∀ data, parseFromArray (serializeToString data) = some data)
    (readsNumber : ∀ n, jsonDecode (oneElement n) = .ok (some [.number n])) {uHandlerId : UInt32}
    (fits : kdPackageHeaderSize + (serializeToString (noticeText uHandlerId)).length < 2 ^ 32)
    (positive : 0 < uHandlerId.toNat) (short : uHandlerId.toNat ≤ 99) {w : LogicWorld}
    (user : w.net.getUserId uHandlerId.toNat = .nil ∨ ∃ nUserId, w.net.getUserId uHandlerId.toNat = .number nUserId) :
    FitsArray uHandlerId ∧
      Released uHandlerId.toNat w
        (afterPacket jsonDecode otherEvent parseFromArray (noticePacket serializeToString uHandlerId) w) := by
  refine ⟨(noticeText_fits_iff uHandlerId).mpr (Or.inl short), ?_⟩
  have same : asInt uHandlerId = uHandlerId.toNat := by
    rw [asInt, if_pos (by omega)]
  have json : jsonDecode (noticeText uHandlerId) = .ok (some [.number uHandlerId.toNat]) := by
    rw [noticeText, same]
    exact readsNumber _
  rw [afterPacket_eq (onPacket_notice roundTrip uHandlerId fits) json]
  -- the request that was pushed is in none of the maps
  rcases user with nobody | ⟨nUserId, onIt⟩
  · have pushed : ({ w with net := w.net.pushRequestToSquence 0 ⟨0, [.number uHandlerId.toNat], 0⟩ } : LogicWorld
        ).net.getUserId uHandlerId.toNat = .nil := nobody
    have released := released_of_nobody pushed
    exact ⟨released.handler, released.user, released.otherHandlers, released.otherUsers⟩
  · have pushed : ({ w with net := w.net.pushRequestToSquence 0 ⟨0, [.number uHandlerId.toNat], 0⟩ } : LogicWorld
        ).net.getUserId uHandlerId.toNat = .number nUserId := onIt
    have released := released_of_number (Int.natCast_pos.mpr positive) pushed
    exact ⟨released.handler, released.user, released.otherHandlers, released.otherUsers⟩

end Packet

end Scripts

/-- **Notices.** For no handler id and no state of the logic server does a notice do all it should: whenever it is
decoded to its event and list, its request stays in the queue of connection 0. -/
theorem noticeRight_never (jsonDecode : List UInt8 → Except Unit (Option (List LuaValue)))
    (otherEvent : Int → Int → Int → List LuaValue → LuaM LogicWorld Unit)
    (serializeToString : List UInt8 → List UInt8) (parseFromArray : List UInt8 → Option (List UInt8))
    (uHandlerId : UInt32) (w : LogicWorld) :
    ¬ NoticeRight jsonDecode otherEvent serializeToString parseFromArray uHandlerId w := by
  rintro ⟨-, ⟨text, call, json⟩, -, noEntry⟩
  exact requestSquence_afterPacket_ne call json w noEntry

/-- Handler id 7, in a message of one field, on a server that was just started. -/
theorem not_noticeRight_seven :
    ¬ NoticeRight (fun text => if text = oneElement 7 then .ok (some [.number 7]) else .error ()) (fun _ _ _ _ => pure ())
      (fun data => 0x0A :: UInt8.ofNat data.length :: data) parseShortData 7 (.init 100001 fun _ => none) := by
  rintro ⟨-, ⟨text, call, json⟩, -, noEntry⟩
  exact requestSquence_afterPacket_ne call json _ noEntry

end GameServer.Logic
