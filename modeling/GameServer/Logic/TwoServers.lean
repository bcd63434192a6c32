/-
Module: GameServer.Logic.TwoServers
Purpose: The logic and the room server, which both write the records of users as a whole: which runs store the
  last change of every field.
Trusted boundary: messages between two servers arrive in their order, and so do the commands of one server at
  Redis; `AddGold` and `CostGold` of the class that is not in the repository add and subtract; how records are read
  back is that of `RecordText`, and user ids are read back as they are
Main exports: TwoServers, serverStep, ServerGuard, LastChangesStored, ServersAgree, lastChangesStored_of_guarded
-/
import GameServer.Lib.Runs
import GameServer.Logic.UserInfoLogic
import GameServer.Script.RecordText

namespace GameServer.Logic

open Lib Script

/-! ## The servers

Each of the two servers has its own pool and its own queue of commands; they write to one database and exchange
messages.
-/

/-- A row of a settlement record: the user and what he wins or loses. -/
abbrev GoldRow := String × ℚ

/-- The two servers, the messages between them, and the stored records.  `changed` has the changes that were
acknowledged, in their order; no function reads it. -/
structure TwoServers where
  logic : UserManager
  room : UserManager
  toRoom : List (String × UserRecord)
  toLogic : List (List GoldRow)
  store : String → Option UserRecord
  changed : List (String × Change)

/-- The logic server has cached some of the users. -/
def TwoServers.init (stored : String → Option UserRecord) (cached : String → Bool) : TwoServers where
  logic :=
    { userDataPool := fun strUserId => if cached strUserId then (stored strUserId).map .new else none
      commands := [] }
  room := .ctor
  toRoom := []
  toLogic := []
  store := stored
  changed := []

namespace TwoServers

variable (wire : Wire) (w : TwoServers)

/-- A profile or store request on the logic server, and its `Commit`. -/
def logicRequest (strUserId : String) (handler : ProfileHandler) : TwoServers :=
  match w.logic.userDataPool strUserId with
  | none => w
  | some objUser =>
      match handler objUser.gameData with
      | .error _ => { w with logic := w.logic.commit strUserId }
      | .ok cs =>
          { w with
            logic := (w.logic.putUserObject strUserId (objUser.changes cs)).commit strUserId
            changed := w.changed ++ cs.map fun c => (strUserId, c) }

/-- A request to enter a room that the logic server passes on, with `GetPacketOfRoomNeed`, and its `Commit`. -/
def enterRoom (strUserId : String) : TwoServers :=
  match w.logic.userDataPool strUserId with
  | none => w
  | some objUser =>
      { w with
        toRoom := w.toRoom ++ [(strUserId, objUser.gameData)]
        logic := w.logic.commit strUserId }

/-- The room server's `ClientEnterRoom`; a text that is not read raises before it. -/
def deliverEnterRoom : TwoServers :=
  match w.toRoom with
  | [] => w
  | (strUserId, tbGameData) :: rest =>
      match wire.record tbGameData with
      | none => { w with toRoom := rest }
      | some tbGameData => { w with toRoom := rest, room := w.room.cacheUserObject strUserId tbGameData }

/-- A client's request on the room server, which ends with `Commit`. -/
def roomRequest (strUserId : String) : TwoServers := { w with room := w.room.commit strUserId }

/-- `AddGold` or `CostGold`. -/
def goldChange (objUser : UserObject) (nCount : ℚ) : Change := .setGold (wire.add objUser.gameData.gold nCount)

/-- A row of the table's `Settlement`; it raises for a user without an object. -/
def settleAtTable (row : GoldRow) : Option TwoServers :=
  match w.room.userDataPool row.1 with
  | none => none
  | some objUser =>
      some { w with
        room := w.room.putUserObject row.1 (objUser.change (goldChange wire objUser row.2))
        changed := w.changed ++ [(row.1, goldChange wire objUser row.2)] }

/-- The loop of the table's `Settlement`, and the message behind it. -/
def settlement (w : TwoServers) (tbSettlementRecord : List GoldRow) : List GoldRow → TwoServers
  | [] =>
      if tbSettlementRecord.isEmpty then w
      else { w with toLogic := w.toLogic ++ [tbSettlementRecord] }
  | row :: rows =>
      if row.2 = 0 then w.settlement tbSettlementRecord rows
      else
        match w.settleAtTable wire row with
        | none => w
        | some settled => settled.settlement (tbSettlementRecord ++ [row]) rows

/-- A row of `GameSettlement`, whose amount was read from a text; it raises for a user without an object. -/
def settleAtLogic (row : GoldRow) : Option TwoServers :=
  match w.logic.userDataPool row.1 with
  | none => none
  | some objUser =>
      let c := goldChange wire objUser (wire.text row.2)
      some { w with
        logic := (w.logic.putUserObject row.1 (objUser.change c)).saveUserData row.1 (objUser.change c)
        changed := w.changed ++ [(row.1, c)] }

/-- `GameSettlement`. -/
def gameSettlement (w : TwoServers) : List GoldRow → TwoServers
  | [] => w
  | row :: rows =>
      match w.settleAtLogic wire row with
      | none => w
      | some settled => settled.gameSettlement rows

/-- The next settlement record reaches the logic server. -/
def deliverSettlement : TwoServers :=
  match w.toLogic with
  | [] => w
  | rows :: rest => { w with toLogic := rest }.gameSettlement wire rows

/-- Redis executes the next command of the logic server. -/
def executeLogic : TwoServers :=
  match w.logic.commands with
  | [] => w
  | command :: rest => { w with logic := { w.logic with commands := rest }, store := command.runText wire w.store }

/-- Redis executes the next command of the room server. -/
def executeRoom : TwoServers :=
  match w.room.commands with
  | [] => w
  | command :: rest => { w with room := { w.room with commands := rest }, store := command.runText wire w.store }

end TwoServers

inductive ServerAction where
  | logicRequest (strUserId : String) (handler : ProfileHandler)
  | enterRoom (strUserId : String)
  | deliverEnterRoom
  | roomRequest (strUserId : String)
  | settlement (rows : List GoldRow)
  | deliverSettlement
  | executeLogic
  | executeRoom

def serverStep (wire : Wire) (w : TwoServers) : ServerAction → TwoServers
  | .logicRequest strUserId handler => w.logicRequest strUserId handler
  | .enterRoom strUserId => w.enterRoom strUserId
  | .deliverEnterRoom => w.deliverEnterRoom wire
  | .roomRequest strUserId => w.roomRequest strUserId
  | .settlement rows => w.settlement wire [] rows
  | .deliverSettlement => w.deliverSettlement wire
  | .executeLogic => w.executeLogic wire
  | .executeRoom => w.executeRoom wire

/-! ## The property and its condition

The room server stores its copies whole, and they may be older than the records of the logic server.
-/

/-- When nothing is under way, every stored record is what it was, with all acknowledged changes, so every field
has the value that was given to it last. -/
def LastChangesStored (stored : String → Option UserRecord) (w : TwoServers) : Prop :=
  w.logic.commands = [] → w.room.commands = [] → w.toLogic = [] → ∀ strUserId,
    w.store strUserId = (stored strUserId).map (replay UserRecord.apply · (entriesOf strUserId w.changed))

/-- What the logic server has is what is written: the record is the one of its object, or it will write the user's
record again, because a settlement is on its way or a write is queued. -/
def WillStand (w : TwoServers) (strUserId : String) (gameData : UserRecord) : Prop :=
  (∃ objUser, w.logic.userDataPool strUserId = some objUser ∧ objUser.gameData = gameData) ∨
    (∃ row ∈ w.toLogic.flatten, row.1 = strUserId) ∨
    ∃ later, DbCommand.setValue strUserId later ∈ w.logic.commands

/-- The steps that overwrite nothing: a settlement finds the objects of its users; what Redis is given has a key
without NUL, and a record that is read back; and a write of the room server is what the logic server has or will write
over. -/
def ServerGuard (wire : Wire) (w : TwoServers) : ServerAction → Prop
  | .settlement rows => ∀ row ∈ rows, row.2 ≠ 0 → (w.room.userDataPool row.1).isSome
  | .executeLogic => ∀ command ∈ w.logic.commands.head?, command.ReadBack wire
  | .executeRoom => ∀ command ∈ w.room.commands.head?, command.ReadBack wire ∧
      ∀ strUserId gameData, command = .setValue strUserId gameData → WillStand w strUserId gameData
  | _ => True

/-! ## The invariant

Whoever is known to the room server has an object at the logic server, and this object has all changes of its user but
for the gold that is on its way to it.
-/

/-- Equal but for the gold. -/
def SameButGold (first second : UserRecord) : Prop := { first with gold := second.gold } = second

/-- What is stored when the logic server's commands are executed. -/
def TwoServers.written (w : TwoServers) : String → Option UserRecord :=
  w.logic.commands.foldl DbCommand.run w.store

/-- Whoever is known to the room server has an object at the logic server. -/
structure RoomKnown (inFlight : List GoldRow) (w : TwoServers) : Prop where
  packets : ∀ packet ∈ w.toRoom, (w.logic.userDataPool packet.1).isSome
  objects : ∀ strUserId, (w.room.userDataPool strUserId).isSome → (w.logic.userDataPool strUserId).isSome
  writes : ∀ strUserId gameData, DbCommand.setValue strUserId gameData ∈ w.room.commands →
    (w.logic.userDataPool strUserId).isSome
  rows : ∀ row ∈ inFlight, (w.logic.userDataPool row.1).isSome

/-- The logic server's record of a user has all his changes, but for gold that is on its way to it; and if none is,
it is written. -/
structure ServersAgree (stored : String → Option UserRecord) (inFlight : List GoldRow) (w : TwoServers) :
    Prop where
  known : RoomKnown inFlight w
  untouched : ∀ strUserId, w.logic.userDataPool strUserId = none →
    entriesOf strUserId w.changed = [] ∧ w.written strUserId = stored strUserId
  replayed : ∀ strUserId objUser, w.logic.userDataPool strUserId = some objUser →
    ∃ gameData, (stored strUserId).map (replay UserRecord.apply · (entriesOf strUserId w.changed)) = some gameData ∧
      SameButGold gameData objUser.gameData ∧
      (strUserId ∉ inFlight.map Prod.fst → gameData = objUser.gameData)
  written : ∀ strUserId objUser, w.logic.userDataPool strUserId = some objUser →
    strUserId ∉ inFlight.map Prod.fst → w.written strUserId = some objUser.gameData

theorem SameButGold.apply {first second : UserRecord} (same : SameButGold first second) (c : Change) :
    SameButGold (first.apply c) (second.apply c) := by
  unfold SameButGold at same ⊢
  rw [← same]
  cases c <;> rfl

/-- The same changes on both sides. -/
theorem SameButGold.replay {first second : UserRecord} (same : SameButGold first second) (cs : List Change) :
    SameButGold (replay UserRecord.apply first cs) (replay UserRecord.apply second cs) := by
  induction cs generalizing first second with
  | nil => exact same
  | cons c cs ih => exact ih (same.apply c)

/-- New gold makes up for the difference. -/
theorem SameButGold.setGold {first second : UserRecord} (same : SameButGold first second) (nVal : ℚ) :
    first.apply (.setGold nVal) = second.apply (.setGold nVal) := by
  unfold SameButGold at same
  rw [← same]
  rfl

theorem SameButGold.setGold_left {first second : UserRecord} (same : SameButGold first second) (nVal : ℚ) :
    SameButGold (first.apply (.setGold nVal)) second := by
  unfold SameButGold at same ⊢
  exact same

section Steps

variable {wire : Wire} {stored : String → Option UserRecord} {inFlight inFlight' : List GoldRow} {w w' : TwoServers}
  {strUserId : String}

/-- The logic server changes an object and writes it. -/
theorem ServersAgree.logicWrites (agree : ServersAgree stored inFlight w) {objUser objUser' : UserObject}
    (found : w.logic.userDataPool strUserId = some objUser) (cs : List Change)
    (record : objUser'.gameData = replay UserRecord.apply objUser.gameData cs)
    (pool : w'.logic.userDataPool = Function.update w.logic.userDataPool strUserId (some objUser'))
    (written : w'.written = Function.update w.written strUserId (some objUser'.gameData))
    (changed : w'.changed = w.changed ++ cs.map fun c => (strUserId, c))
    (known : RoomKnown inFlight' w')
    (others : ∀ other, other ≠ strUserId → other ∉ inFlight'.map Prod.fst → other ∉ inFlight.map Prod.fst)
    (equal : strUserId ∉ inFlight'.map Prod.fst → ∀ gameData, SameButGold gameData objUser.gameData →
      (strUserId ∉ inFlight.map Prod.fst → gameData = objUser.gameData) →
      replay UserRecord.apply gameData cs = replay UserRecord.apply objUser.gameData cs) :
    ServersAgree stored inFlight' w' := by
  have entries : ∀ other, other ≠ strUserId → entriesOf other w'.changed = entriesOf other w.changed := by
    intro other differs
    rw [changed, entriesOf_append, entriesOf_map_ne (Ne.symm differs), List.append_nil]
  constructor
  · exact known
  · intro other missing
    rw [pool] at missing
    by_cases same : other = strUserId
    · rw [same, Function.update_self] at missing
      exact absurd missing (by simp)
    · rw [Function.update_of_ne same] at missing
      rw [entries other same, written, Function.update_of_ne same]
      exact agree.untouched other missing
  · intro other objOther inPool
    rw [pool] at inPool
    by_cases same : other = strUserId
    · subst same
      rw [Function.update_self] at inPool
      cases inPool
      obtain ⟨gameData, replayed, butGold, upToDate⟩ := agree.replayed other objUser found
      refine ⟨replay UserRecord.apply gameData cs, ?_, ?_, ?_⟩
      · rw [changed, entriesOf_append, entriesOf_map_self]
        calc (stored other).map (replay UserRecord.apply · (entriesOf other w.changed ++ cs))
            = ((stored other).map (replay UserRecord.apply · (entriesOf other w.changed))).map
                (replay UserRecord.apply · cs) := by simp [replay_append, Function.comp_def]
          _ = some (replay UserRecord.apply gameData cs) := by rw [replayed, Option.map_some]
      · rw [record]
        exact butGold.replay cs
      · intro settled
        rw [record]
        exact equal settled gameData butGold upToDate
    · rw [Function.update_of_ne same] at inPool
      obtain ⟨gameData, replayed, butGold, upToDate⟩ := agree.replayed other objOther inPool
      rw [entries other same]
      exact ⟨gameData, replayed, butGold, fun settled => upToDate (others other same settled)⟩
  · intro other objOther inPool settled
    rw [pool] at inPool
    rw [written]
    by_cases same : other = strUserId
    · rw [same, Function.update_self] at inPool
      cases inPool
      rw [same, Function.update_self]
    · rw [Function.update_of_ne same] at inPool
      rw [Function.update_of_ne same]
      exact agree.written other objOther inPool (others other same settled)

/-- The room server's knowledge stays good when the logic server keeps its objects. -/
theorem RoomKnown.mono (known : RoomKnown inFlight w)
    (objects : ∀ strUserId, (w.logic.userDataPool strUserId).isSome → (w'.logic.userDataPool strUserId).isSome)
    (room : w'.room = w.room) (toRoom : w'.toRoom = w.toRoom) (rows : ∀ row ∈ inFlight', row ∈ inFlight) :
    RoomKnown inFlight' w' := by
  constructor
  · intro packet member
    rw [toRoom] at member
    exact objects _ (known.packets packet member)
  · intro strUserId found
    rw [room] at found
    exact objects _ (known.objects strUserId found)
  · intro strUserId gameData member
    rw [room] at member
    exact objects _ (known.writes strUserId gameData member)
  · intro row member
    exact objects _ (known.rows row (rows row member))

theorem isSome_update {pool : String → Option UserObject} (objUser : UserObject) (other : String)
    (found : (pool other).isSome) : (Function.update pool strUserId (some objUser) other).isSome := by
  by_cases same : other = strUserId
  · rw [same, Function.update_self]
    rfl
  · rw [Function.update_of_ne same]
    exact found

theorem putUserObject_self {users : UserManager} {objUser : UserObject}
    (found : users.userDataPool strUserId = some objUser) :
    users.putUserObject strUserId objUser = users := by
  rw [UserManager.putUserObject, ← found, Function.update_eq_self]

/-- A request on the logic server that changes the user's object, and `Commit`. -/
theorem ServersAgree.requestCommit (agree : ServersAgree stored inFlight w) {objUser : UserObject}
    (found : w.logic.userDataPool strUserId = some objUser) (cs : List Change) :
    ServersAgree stored inFlight
      { w with
        logic := (w.logic.putUserObject strUserId (objUser.changes cs)).commit strUserId
        changed := w.changed ++ cs.map fun c => (strUserId, c) } := by
  have here : (w.logic.putUserObject strUserId (objUser.changes cs)).userDataPool strUserId =
      some (objUser.changes cs) := Function.update_self ..
  rcases (w.logic.putUserObject strUserId (objUser.changes cs)).commit_cases strUserId with
    ⟨object, inPool, done⟩ | ⟨done, clean⟩
  · cases here.symm.trans inPool
    let committed : UserObject := { objUser.changes cs with bIsDirty := false }
    have record : committed.gameData = replay UserRecord.apply objUser.gameData cs := objUser.gameData_changes cs
    have pool : ((w.logic.putUserObject strUserId (objUser.changes cs)).commit strUserId).userDataPool =
        Function.update w.logic.userDataPool strUserId (some committed) := by
      rw [done]
      exact Function.update_idem ..
    have commands : ((w.logic.putUserObject strUserId (objUser.changes cs)).commit strUserId).commands =
        w.logic.commands ++ [.setValue strUserId (objUser.changes cs).gameData] := by
      rw [done]
      rfl
    apply agree.logicWrites found cs record pool
    · unfold TwoServers.written
      rw [commands, List.foldl_append]
      rfl
    · rfl
    · apply agree.known.mono
      · intro other isSome
        rw [pool]
        exact isSome_update _ other isSome
      · rfl
      · rfl
      · exact fun _ member => member
    · exact fun _ _ settled => settled
    · intro settled gameData _ upToDate
      rw [upToDate settled]
  · rcases objUser.bIsDirty_changes cs with unchanged | dirty
    · subst unchanged
      have nothing : (w.logic.putUserObject strUserId (objUser.changes [])).commit strUserId = w.logic := by
        rw [done]
        exact putUserObject_self found
      rw [nothing, List.map_nil, List.append_nil]
      exact agree
    · exact absurd dirty (by rw [clean _ here]; simp)

theorem ServersAgree.commitLogic (agree : ServersAgree stored inFlight w) (strUserId : String) :
    ServersAgree stored inFlight { w with logic := w.logic.commit strUserId } := by
  cases found : w.logic.userDataPool strUserId with
  | none =>
      have nothing : w.logic.commit strUserId = w.logic := by
        rw [UserManager.commit, found]
      rw [nothing]
      exact agree
  | some objUser =>
      have committed := agree.requestCommit found []
      have same : w.logic.putUserObject strUserId (objUser.changes []) = w.logic := putUserObject_self found
      rw [same, List.map_nil, List.append_nil] at committed
      exact committed

/-- What only the room server and the messages to it are concerned with. -/
theorem ServersAgree.frame (agree : ServersAgree stored inFlight w) (logic : w'.logic = w.logic)
    (store : w'.store = w.store) (changed : w'.changed = w.changed) (known : RoomKnown inFlight w') :
    ServersAgree stored inFlight w' := by
  have written : w'.written = w.written := by
    rw [TwoServers.written, TwoServers.written, logic, store]
  constructor
  · exact known
  · rw [logic, written, changed]
    exact agree.untouched
  · rw [logic, changed]
    exact agree.replayed
  · rw [logic, written]
    exact agree.written

/-- To enter a room changes no record, and the packet is about a user who has an object. -/
theorem enterRoom_agree (agree : ServersAgree stored inFlight w) (strUserId : String) :
    ServersAgree stored inFlight (w.enterRoom strUserId) := by
  unfold TwoServers.enterRoom
  cases found : w.logic.userDataPool strUserId with
  | none => exact agree
  | some objUser =>
      have sent : ServersAgree stored inFlight { w with toRoom := w.toRoom ++ [(strUserId, objUser.gameData)] } := by
        refine agree.frame rfl rfl rfl ?_
        refine ⟨?_, agree.known.objects, agree.known.writes, agree.known.rows⟩
        intro packet member
        rcases List.mem_append.mp member with before | new
        · exact agree.known.packets packet before
        · rw [List.mem_singleton.mp new]
          exact Option.isSome_iff_exists.mpr ⟨objUser, found⟩
      exact sent.commitLogic strUserId

theorem deliverEnterRoom_agree (agree : ServersAgree stored inFlight w) :
    ServersAgree stored inFlight (w.deliverEnterRoom wire) := by
  unfold TwoServers.deliverEnterRoom
  cases packets : w.toRoom with
  | nil => exact agree
  | cons packet rest =>
      obtain ⟨strUserId, tbGameData⟩ := packet
      have known := agree.known.packets
      rw [packets] at known
      have still : ∀ other ∈ rest, (w.logic.userDataPool other.1).isSome :=
        fun other member => known other (List.mem_cons_of_mem _ member)
      dsimp only
      cases wire.record tbGameData with
      | none =>
          refine agree.frame rfl rfl rfl ?_
          exact ⟨still, agree.known.objects, agree.known.writes, agree.known.rows⟩
      | some tbGameData =>
          refine agree.frame rfl rfl rfl ?_
          refine ⟨still, fun other found => ?_, agree.known.writes, agree.known.rows⟩
          by_cases same : other = strUserId
          · rw [same]
            exact known _ List.mem_cons_self
          · change (Function.update w.room.userDataPool strUserId (some (.new tbGameData)) other).isSome at found
            rw [Function.update_of_ne same] at found
            exact agree.known.objects other found

theorem roomRequest_agree (agree : ServersAgree stored inFlight w) (strUserId : String) :
    ServersAgree stored inFlight (w.roomRequest strUserId) := by
  unfold TwoServers.roomRequest
  refine agree.frame rfl rfl rfl ?_
  rcases w.room.commit_cases strUserId with ⟨objUser, found, done⟩ | ⟨done, _⟩
  · have hasObject : (w.logic.userDataPool strUserId).isSome :=
      agree.known.objects strUserId (Option.isSome_iff_exists.mpr ⟨objUser, found⟩)
    rw [done]
    constructor
    · exact agree.known.packets
    · intro other inPool
      by_cases same : other = strUserId
      · rw [same]
        exact hasObject
      · change (Function.update w.room.userDataPool strUserId _ other).isSome at inPool
        rw [Function.update_of_ne same] at inPool
        exact agree.known.objects other inPool
    · intro other gameData member
      rcases List.mem_append.mp member with before | new
      · exact agree.known.writes other gameData before
      · cases List.mem_singleton.mp new
        exact hasObject
    · exact agree.known.rows
  · rw [done]
    exact agree.known

/-! ## Settlements

A settlement changes the gold on both servers, first at the table and then where its message arrives.
-/

/-- A row that the table has settled is on its way to the logic server. -/
theorem settleAtTable_agree (agree : ServersAgree stored inFlight w) {row : GoldRow}
    (settled : w.settleAtTable wire row = some w') : ServersAgree stored (inFlight ++ [row]) w' := by
  unfold TwoServers.settleAtTable at settled
  cases found : w.room.userDataPool row.1 with
  | none =>
      rw [found] at settled
      exact absurd settled (by simp)
  | some objUser =>
      rw [found] at settled
      cases settled
      have hasObject : (w.logic.userDataPool row.1).isSome :=
        agree.known.objects row.1 (Option.isSome_iff_exists.mpr ⟨objUser, found⟩)
      have entries : ∀ other, other ≠ row.1 →
          entriesOf other (w.changed ++ [(row.1, TwoServers.goldChange wire objUser row.2)]) =
            entriesOf other w.changed := by
        intro other differs
        rw [entriesOf_append, entriesOf_cons, if_neg (Ne.symm differs), entriesOf_nil, List.append_nil]
      have fewer : ∀ other, other ∉ (inFlight ++ [row]).map Prod.fst →
          other ≠ row.1 ∧ other ∉ inFlight.map Prod.fst := by
        intro other out
        rw [List.map_append, List.mem_append, not_or] at out
        exact ⟨fun same => out.2 (by simp [same]), out.1⟩
      constructor
      · constructor
        · exact agree.known.packets
        · intro other inPool
          by_cases same : other = row.1
          · rw [same]
            exact hasObject
          · change (Function.update w.room.userDataPool row.1 _ other).isSome at inPool
            rw [Function.update_of_ne same] at inPool
            exact agree.known.objects other inPool
        · exact agree.known.writes
        · intro other member
          rcases List.mem_append.mp member with before | new
          · exact agree.known.rows other before
          · rw [List.mem_singleton.mp new]
            exact hasObject
      · intro other missing
        have differs : other ≠ row.1 := by
          rintro rfl
          exact absurd hasObject (by rw [missing]; simp)
        rw [entries other differs]
        exact agree.untouched other missing
      · intro other objOther inPool
        obtain ⟨gameData, replayed, butGold, upToDate⟩ := agree.replayed other objOther inPool
        by_cases same : other = row.1
        · refine ⟨gameData.apply (TwoServers.goldChange wire objUser row.2), ?_, butGold.setGold_left _, ?_⟩
          · rw [entriesOf_append, entriesOf_cons, if_pos same.symm, entriesOf_nil]
            calc (stored other).map (replay UserRecord.apply · (entriesOf other w.changed ++
                    [TwoServers.goldChange wire objUser row.2]))
                = ((stored other).map (replay UserRecord.apply · (entriesOf other w.changed))).map
                    (UserRecord.apply · (TwoServers.goldChange wire objUser row.2)) := by
                  simp [replay_append, Function.comp_def]
              _ = some (gameData.apply (TwoServers.goldChange wire objUser row.2)) := by
                  rw [replayed, Option.map_some]
          · intro out
            exact absurd same (fewer other out).1
        · rw [entries other same]
          exact ⟨gameData, replayed, butGold, fun out => upToDate (fewer other out).2⟩
      · intro other objOther inPool out
        exact agree.written other objOther inPool (fewer other out).2

/-- The whole record is on its way when the table has settled. -/
theorem settlement_agree {rows record : List GoldRow}
    (agree : ServersAgree stored (w.toLogic.flatten ++ record) w)
    (objects : ∀ row ∈ rows, row.2 ≠ 0 → (w.room.userDataPool row.1).isSome) :
    ServersAgree stored (w.settlement wire record rows).toLogic.flatten (w.settlement wire record rows) := by
  induction rows generalizing w record with
  | nil =>
      unfold TwoServers.settlement
      split
      next empty =>
        rw [List.isEmpty_iff.mp empty, List.append_nil] at agree
        exact agree
      next =>
        have sent : (w.toLogic ++ [record]).flatten = w.toLogic.flatten ++ record := by simp
        change ServersAgree stored (w.toLogic ++ [record]).flatten _
        rw [sent]
        refine agree.frame rfl rfl rfl ?_
        exact ⟨agree.known.packets, agree.known.objects, agree.known.writes, agree.known.rows⟩
  | cons row rows ih =>
      have later : ∀ other ∈ rows, other.2 ≠ 0 → (w.room.userDataPool other.1).isSome :=
        fun other member => objects other (List.mem_cons_of_mem row member)
      unfold TwoServers.settlement
      split
      next => exact ih agree later
      next changes =>
        obtain ⟨objUser, found⟩ := Option.isSome_iff_exists.mp (objects row List.mem_cons_self changes)
        have settled : w.settleAtTable wire row = some { w with
            room := w.room.putUserObject row.1 (objUser.change (TwoServers.goldChange wire objUser row.2))
            changed := w.changed ++ [(row.1, TwoServers.goldChange wire objUser row.2)] } := by
          rw [TwoServers.settleAtTable, found]
        rw [settled]
        apply ih
        · have next := settleAtTable_agree agree settled
          rw [List.append_assoc] at next
          exact next
        · intro other member nonzero
          exact isSome_update _ other.1 (later other member nonzero)

/-- A row that reaches the logic server is not on its way any more. -/
theorem settleAtLogic_agree {row : GoldRow} (agree : ServersAgree stored (row :: inFlight) w) :
    ∃ settled, w.settleAtLogic wire row = some settled ∧ settled.toLogic = w.toLogic ∧
      ServersAgree stored inFlight settled := by
  obtain ⟨objUser, found⟩ := Option.isSome_iff_exists.mp (agree.known.rows row List.mem_cons_self)
  unfold TwoServers.settleAtLogic
  rw [found]
  refine ⟨_, rfl, rfl, ?_⟩
  let c : Change := TwoServers.goldChange wire objUser (wire.text row.2)
  have saved := (w.logic.putUserObject row.1 (objUser.change c)).saveUserData_of_dirty row.1
    (show (objUser.change c).bIsDirty = true from rfl)
  have record : (objUser.change c).gameData = replay UserRecord.apply objUser.gameData [c] := rfl
  apply agree.logicWrites found [c] record
  · rw [saved]
    rfl
  · unfold TwoServers.written
    rw [saved]
    change (w.logic.commands ++ [_]).foldl _ _ = _
    rw [List.foldl_append]
    rfl
  · rfl
  · apply agree.known.mono
    · intro other isSome
      rw [saved]
      exact isSome_update _ other isSome
    · rfl
    · rfl
    · exact fun other member => List.mem_cons_of_mem row member
  · intro other differs out
    simp only [List.map_cons, List.mem_cons, not_or]
    exact ⟨differs, out⟩
  · intro _ gameData butGold _
    exact butGold.setGold _

/-- All rows of the message, one after the other. -/
theorem gameSettlement_agree {rows : List GoldRow} (agree : ServersAgree stored (rows ++ w.toLogic.flatten) w) :
    ServersAgree stored (w.gameSettlement wire rows).toLogic.flatten (w.gameSettlement wire rows) := by
  induction rows generalizing w with
  | nil => exact agree
  | cons row rows ih =>
      obtain ⟨settled, done, messages, next⟩ := settleAtLogic_agree agree
      unfold TwoServers.gameSettlement
      rw [done]
      apply ih
      rw [messages]
      exact next

end Steps

/-! ## Runs

The steps that meet the condition keep the servers in agreement, and at rest the database has what was acknowledged.
-/

section Runs

variable {wire : Wire} {stored : String → Option UserRecord} {w : TwoServers}

theorem logicRequest_agree {inFlight : List GoldRow} (agree : ServersAgree stored inFlight w)
    (strUserId : String) (handler : ProfileHandler) :
    ServersAgree stored inFlight (w.logicRequest strUserId handler) := by
  unfold TwoServers.logicRequest
  cases found : w.logic.userDataPool strUserId with
  | none => exact agree
  | some objUser =>
      dsimp only
      cases handler objUser.gameData with
      | error nErrorCode => exact agree.commitLogic strUserId
      | ok cs => exact agree.requestCommit found cs

theorem executeLogic_agree {inFlight : List GoldRow} (agree : ServersAgree stored inFlight w)
    (guard : ServerGuard wire w .executeLogic) : ServersAgree stored inFlight (w.executeLogic wire) := by
  have written : (w.executeLogic wire).written = w.written := by
    unfold TwoServers.executeLogic TwoServers.written
    cases commands : w.logic.commands with
    | nil => rw [commands]
    | cons command rest =>
        have readBack : command.ReadBack wire := guard command (by rw [commands]; rfl)
        dsimp only
        rw [readBack.runText_eq, List.foldl_cons]
  have same : (w.executeLogic wire).logic.userDataPool = w.logic.userDataPool ∧
      (w.executeLogic wire).room = w.room ∧ (w.executeLogic wire).toRoom = w.toRoom ∧
      (w.executeLogic wire).changed = w.changed := by
    unfold TwoServers.executeLogic
    cases w.logic.commands with
    | nil => exact ⟨rfl, rfl, rfl, rfl⟩
    | cons command rest => exact ⟨rfl, rfl, rfl, rfl⟩
  obtain ⟨pool, room, toRoom, changed⟩ := same
  constructor
  · apply agree.known.mono
    · intro other found
      rw [pool]
      exact found
    · exact room
    · exact toRoom
    · exact fun _ member => member
  · rw [pool, changed, written]
    exact agree.untouched
  · rw [pool, changed]
    exact agree.replayed
  · rw [pool, written]
    exact agree.written

/-- A write of the room server that stands, or is written over, does no harm. -/
theorem executeRoom_agree (agree : ServersAgree stored w.toLogic.flatten w)
    (guard : ServerGuard wire w .executeRoom) : ServersAgree stored w.toLogic.flatten (w.executeRoom wire) := by
  unfold TwoServers.executeRoom
  cases commands : w.room.commands with
  | nil => exact agree
  | cons command rest =>
      obtain ⟨readBack, willStand⟩ := guard command (by rw [commands]; rfl)
      dsimp only
      rw [readBack.runText_eq]
      have known : RoomKnown w.toLogic.flatten
          { w with room := { w.room with commands := rest }, store := command.run w.store } := by
        refine ⟨agree.known.packets, agree.known.objects, fun other gameData member => ?_, agree.known.rows⟩
        apply agree.known.writes other gameData
        rw [commands]
        exact List.mem_cons_of_mem command member
      cases command with
      | getValue get => exact agree.frame rfl rfl rfl known
      | setValue strUserId gameData =>
          have stands := willStand strUserId gameData rfl
          have hasObject : (w.logic.userDataPool strUserId).isSome := by
            apply agree.known.writes strUserId gameData
            rw [commands]
            exact List.mem_cons_self
          have elsewhere : ∀ other, other ≠ strUserId →
              w.logic.commands.foldl DbCommand.run (Function.update w.store strUserId (some gameData)) other =
                w.written other := by
            intro other differs
            exact foldl_run_congr (Function.update_of_ne differs ..) w.logic.commands
          constructor
          · exact known
          · intro other missing
            have differs : other ≠ strUserId := by
              rintro rfl
              exact absurd hasObject (by rw [missing]; simp)
            have before := agree.untouched other missing
            exact ⟨before.1, (elsewhere other differs).trans before.2⟩
          · exact agree.replayed
          · intro other objUser found settled
            by_cases same : other = strUserId
            · subst same
              have before := agree.written other objUser found settled
              rcases stands with ⟨object, inPool, current⟩ | ⟨row, member, his⟩ | queued
              · cases found.symm.trans inPool
                rw [current] at before
                rw [current]
                by_cases queued : ∃ later, DbCommand.setValue other later ∈ w.logic.commands
                · exact (foldl_run_of_mem queued _ w.store).trans before
                · rw [TwoServers.written, foldl_run_of_not_mem queued]
                  exact Function.update_self ..
              · exact absurd (List.mem_map.mpr ⟨row, member, his⟩) settled
              · exact (foldl_run_of_mem queued _ w.store).trans before
            · exact (elsewhere other same).trans (agree.written other objUser found settled)

/-- One case for each action, by the lemmas above. -/
theorem serverStep_agree {a : ServerAction} (agree : ServersAgree stored w.toLogic.flatten w)
    (guard : ServerGuard wire w a) :
    ServersAgree stored (serverStep wire w a).toLogic.flatten (serverStep wire w a) := by
  cases a with
  | logicRequest strUserId handler =>
      have messages : (w.logicRequest strUserId handler).toLogic = w.toLogic := by
        unfold TwoServers.logicRequest
        repeat' split
        all_goals rfl
      change ServersAgree stored (w.logicRequest strUserId handler).toLogic.flatten _
      rw [messages]
      exact logicRequest_agree agree strUserId handler
  | enterRoom strUserId =>
      have messages : (w.enterRoom strUserId).toLogic = w.toLogic := by
        unfold TwoServers.enterRoom
        split <;> rfl
      change ServersAgree stored (w.enterRoom strUserId).toLogic.flatten _
      rw [messages]
      exact enterRoom_agree agree strUserId
  | deliverEnterRoom =>
      have messages : (w.deliverEnterRoom wire).toLogic = w.toLogic := by
        unfold TwoServers.deliverEnterRoom
        repeat' split
        all_goals rfl
      change ServersAgree stored (w.deliverEnterRoom wire).toLogic.flatten _
      rw [messages]
      exact deliverEnterRoom_agree agree
  | roomRequest strUserId => exact roomRequest_agree agree strUserId
  | settlement rows =>
      apply settlement_agree
      · rw [List.append_nil]
        exact agree
      · exact guard
  | deliverSettlement =>
      simp only [serverStep, TwoServers.deliverSettlement]
      cases messages : w.toLogic with
      | nil =>
          rw [messages] at agree
          simpa only [messages] using agree
      | cons rows rest =>
          rw [messages, List.flatten_cons] at agree
          apply gameSettlement_agree
          refine agree.frame rfl rfl rfl ?_
          exact ⟨agree.known.packets, agree.known.objects, agree.known.writes, agree.known.rows⟩
  | executeLogic =>
      have messages : (w.executeLogic wire).toLogic = w.toLogic := by
        unfold TwoServers.executeLogic
        split <;> rfl
      change ServersAgree stored (w.executeLogic wire).toLogic.flatten _
      rw [messages]
      exact executeLogic_agree agree guard
  | executeRoom =>
      have messages : (w.executeRoom wire).toLogic = w.toLogic := by
        unfold TwoServers.executeRoom
        split <;> rfl
      change ServersAgree stored (w.executeRoom wire).toLogic.flatten _
      rw [messages]
      exact executeRoom_agree agree guard

theorem serversAgree_init (stored : String → Option UserRecord) (cached : String → Bool) :
    ServersAgree stored [] (.init stored cached) := by
  have object : ∀ strUserId objUser, (TwoServers.init stored cached).logic.userDataPool strUserId = some objUser →
      stored strUserId = some objUser.gameData := by
    intro strUserId objUser found
    change (if cached strUserId then (stored strUserId).map UserObject.new else none) = some objUser at found
    split at found
    · obtain ⟨gameData, there, rfl⟩ := Option.map_eq_some_iff.mp found
      exact there
    · exact absurd found (by simp)
  constructor
  · constructor
    · intro packet member
      exact absurd member (by simp [TwoServers.init])
    · intro strUserId found
      exact absurd found (by simp [TwoServers.init, UserManager.ctor])
    · intro strUserId gameData member
      exact absurd member (by simp [TwoServers.init, UserManager.ctor])
    · intro row member
      exact absurd member (by simp)
  · intro strUserId _
    exact ⟨rfl, rfl⟩
  · intro strUserId objUser found
    refine ⟨objUser.gameData, ?_, rfl, fun _ => rfl⟩
    rw [object strUserId objUser found]
    rfl
  · intro strUserId objUser found _
    exact object strUserId objUser found

/-- When nothing is under way, servers that agree have stored the last changes. -/
theorem ServersAgree.lastChangesStored (agree : ServersAgree stored w.toLogic.flatten w) :
    LastChangesStored stored w := by
  intro noCommands _ noMessages strUserId
  have written : w.written strUserId = w.store strUserId := by
    rw [TwoServers.written, noCommands]
    rfl
  have settled : strUserId ∉ w.toLogic.flatten.map Prod.fst := by
    rw [noMessages]
    simp
  cases found : w.logic.userDataPool strUserId with
  | none =>
      obtain ⟨unchanged, asBefore⟩ := agree.untouched strUserId found
      rw [← written, asBefore, unchanged]
      simp
  | some objUser =>
      obtain ⟨gameData, replayed, _, upToDate⟩ := agree.replayed strUserId objUser found
      rw [← written, agree.written strUserId objUser found settled, replayed, upToDate settled]

/-- **Two writers.** In every run whose steps meet the condition, the last change of every field is stored. -/
theorem lastChangesStored_of_guarded (wire : Wire) (stored : String → Option UserRecord) (cached : String → Bool)
    (actions : List ServerAction)
    (guarded : Guarded (always (serverStep wire)) (ServerGuard wire) (.init stored cached) actions) :
    LastChangesStored stored (actions.foldl (serverStep wire) (.init stored cached)) := by
  have run := runSteps_always (serverStep wire) (.init stored cached) actions
  let Inv : TwoServers → Prop := fun w => ServersAgree stored w.toLogic.flatten w
  have keep : ∀ s a s', Inv s → ServerGuard wire s a → always (serverStep wire) s a = some s' → Inv s' := by
    intro s a s' inv guard step
    cases step
    exact serverStep_agree inv guard
  have start : Inv (.init stored cached) := serversAgree_init stored cached
  exact (guarded_invariant keep start guarded run).lastChangesStored

/-- User 7 is registered. -/
def oneUser (strUserId : String) : Option UserRecord := if strUserId = "7" then some .initial else none

/-- User 7 enters a room and wins 5; the settlement reaches the logic server before his next request at the room. -/
def settledFirst : List ServerAction :=
  [.enterRoom "7", .deliverEnterRoom, .settlement [("7", 5)], .deliverSettlement, .roomRequest "7",
    .executeLogic, .executeRoom]

theorem lastChangesStored_of_guarded_settledFirst :
    LastChangesStored oneUser (settledFirst.foldl (serverStep .plain) (.init oneUser fun _ => true)) := by
  apply lastChangesStored_of_guarded
  apply Guarded.always_cons trivial
  apply Guarded.always_cons trivial
  apply Guarded.always_cons
  · intro row member _
    rw [List.mem_singleton.mp member]
    rfl
  apply Guarded.always_cons trivial
  apply Guarded.always_cons trivial
  apply Guarded.always_cons
  · intro command next
    cases next
    exact ⟨by decide, rfl⟩
  refine Guarded.always_cons ?_ trivial
  intro command next
  cases next
  refine ⟨⟨by decide, rfl⟩, fun strUserId gameData write => ?_⟩
  cases write
  have read : Wire.plain.text ("7", (5 : ℚ)).2 = 5 := Wire.plain.text_intCast 5 (by decide)
  refine Or.inl ⟨_, rfl, ?_⟩
  rw [read]
  rfl

/-- User 7 enters a room, wins 5 there, changes his avatar on the logic server, and makes a request at the room. -/
def roomWritesLate : List ServerAction :=
  [.enterRoom "7", .deliverEnterRoom, .settlement [("7", 5)], .deliverSettlement,
    .logicRequest "7" (updateAvatar (.number 3)), .executeLogic, .executeLogic, .roomRequest "7", .executeRoom]

/-- His avatar is the old one. -/
theorem avatar_overwritten_by_room :
    ¬ LastChangesStored oneUser (roomWritesLate.foldl (serverStep .plain) (.init oneUser fun _ => true)) := by
  intro stored
  have loaded := stored rfl rfl rfl "7"
  have field := congrArg (Option.map (·.baseInfo "Avatar")) loaded
  exact absurd field (by decide +kernel)

end Runs

end GameServer.Logic
