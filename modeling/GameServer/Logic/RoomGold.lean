/-
Module: GameServer.Logic.RoomGold
Purpose: The two values of a user's gold, at the room server and at the logic server, under requests to enter a
  room and settlements: which runs leave them equal.
Trusted boundary: that of `TwoServers`; a table settles for users who have entered the room, and nobody disconnects
Main exports: GoldAction, goldStep, GoldAgrees, goldWith, GoldGuard, GoldKept, goldAgrees_of_guarded
-/
import GameServer.Logic.TwoServers

namespace GameServer.Logic

open Lib Script

/-! ## Snapshots and settlements

A request to enter a room carries a snapshot of the gold, and a settlement carries what was won or lost.
-/

/-- Requests to enter a room, settlements, and the deliveries of their messages. -/
inductive GoldAction where
  | enterRoom (strUserId : String)
  | deliverEnterRoom
  | settlement (rows : List GoldRow)
  | deliverSettlement

section Definitions

variable (wire : Wire)

/-- The users of a settlement have entered the room. -/
def goldStep (w : TwoServers) : GoldAction → Option TwoServers
  | .enterRoom strUserId => some (serverStep wire w (.enterRoom strUserId))
  | .deliverEnterRoom => some (serverStep wire w .deliverEnterRoom)
  | .settlement rows =>
      if ∀ row ∈ rows, row.2 ≠ 0 → (w.room.userDataPool row.1).isSome then
        some (serverStep wire w (.settlement rows))
      else
        none
  | .deliverSettlement => some (serverStep wire w .deliverSettlement)

/-- When no message is in flight, both servers have the same gold for every user of the room. -/
def GoldAgrees (w : TwoServers) : Prop :=
  w.toRoom = [] → w.toLogic = [] → ∀ strUserId objRoom, w.room.userDataPool strUserId = some objRoom →
    ∃ objLogic, w.logic.userDataPool strUserId = some objLogic ∧
      objRoom.gameData.gold = objLogic.gameData.gold

/-- The gold, when the user's rows are added to it in turn. -/
def goldWith (strUserId : String) (gold : ℚ) (rows : List GoldRow) : ℚ :=
  (entriesOf strUserId rows).foldl wire.add gold

/-- The amounts of a settlement are numbers that a text gives back; where the last snapshot of a user is delivered, it
can be read, and its gold is what the logic server's will be with the settlements on their way. -/
def GoldGuard (w : TwoServers) : GoldAction → Prop
  | .settlement rows => ∀ row ∈ rows, wire.text row.2 = row.2
  | .deliverEnterRoom => ∀ strUserId tbGameData rest objLogic, w.toRoom = (strUserId, tbGameData) :: rest →
      strUserId ∉ rest.map Prod.fst → w.logic.userDataPool strUserId = some objLogic →
      ∃ gameData, wire.record tbGameData = some gameData ∧
        gameData.gold = goldWith wire strUserId objLogic.gameData.gold w.toLogic.flatten
  | _ => True

/-- Rows are added one after the other. -/
theorem goldWith_append (strUserId : String) (gold : ℚ) (first second : List GoldRow) :
    goldWith wire strUserId gold (first ++ second) =
      goldWith wire strUserId (goldWith wire strUserId gold first) second := by
  rw [goldWith, entriesOf_append, List.foldl_append]
  rfl

theorem goldWith_row (row : GoldRow) (gold : ℚ) (rows : List GoldRow) :
    goldWith wire row.1 gold (row :: rows) = goldWith wire row.1 (wire.add gold row.2) rows := by
  rw [goldWith, entriesOf_cons, if_pos rfl]
  rfl

/-- Rows of other users change nothing. -/
theorem goldWith_other {strUserId : String} {row : GoldRow} (differs : row.1 ≠ strUserId) (gold : ℚ)
    (rows : List GoldRow) : goldWith wire strUserId gold (row :: rows) = goldWith wire strUserId gold rows := by
  rw [goldWith, entriesOf_cons, if_neg differs]
  rfl

end Definitions

/-! ## The invariant

The gold of the room is the gold of the logic server when the rows in flight are added to it.
-/

/-- Where no snapshot is on its way to overwrite it, the room's gold is what that of the logic server will be with the
rows in flight. -/
def GoldKept (wire : Wire) (inFlight : List GoldRow) (w : TwoServers) : Prop :=
  ∀ strUserId objRoom objLogic, w.room.userDataPool strUserId = some objRoom →
    w.logic.userDataPool strUserId = some objLogic → strUserId ∉ w.toRoom.map Prod.fst →
    objRoom.gameData.gold = goldWith wire strUserId objLogic.gameData.gold inFlight

/-- The rows on their way are read as they were written. -/
def RowsRead (wire : Wire) (inFlight : List GoldRow) : Prop := ∀ row ∈ inFlight, wire.text row.2 = row.2

section Steps

variable {wire : Wire} {inFlight record rows : List GoldRow} {w w' : TwoServers}

/-- `Commit` changes no gold. -/
theorem commit_gold {users : UserManager} {strUserId other : String} {objUser : UserObject}
    (found : (users.commit strUserId).userDataPool other = some objUser) :
    ∃ before, users.userDataPool other = some before ∧ before.gameData.gold = objUser.gameData.gold := by
  rcases users.commit_cases strUserId with ⟨object, inPool, done⟩ | ⟨done, _⟩
  · rw [done] at found
    change Function.update users.userDataPool strUserId _ other = some objUser at found
    by_cases same : other = strUserId
    · subst same
      rw [Function.update_self] at found
      cases found
      exact ⟨object, inPool, rfl⟩
    · rw [Function.update_of_ne same] at found
      exact ⟨objUser, found, rfl⟩
  · rw [done] at found
    exact ⟨objUser, found, rfl⟩

theorem enterRoom_gold (kept : GoldKept wire inFlight w) (strUserId : String) :
    GoldKept wire inFlight (w.enterRoom strUserId) := by
  unfold TwoServers.enterRoom
  cases w.logic.userDataPool strUserId with
  | none => exact kept
  | some objUser =>
      intro other objRoom objLogic inRoom inLogic noSnapshot
      obtain ⟨before, found, gold⟩ := commit_gold inLogic
      rw [← gold]
      apply kept other objRoom before inRoom found
      intro member
      apply noSnapshot
      rw [List.map_append]
      exact List.mem_append_left _ member

/-- The last snapshot of a user must fit what the logic server has and will get. -/
theorem deliverEnterRoom_gold (kept : GoldKept wire w.toLogic.flatten w) (guard : GoldGuard wire w .deliverEnterRoom) :
    GoldKept wire w.toLogic.flatten (w.deliverEnterRoom wire) := by
  unfold TwoServers.deliverEnterRoom
  cases packets : w.toRoom with
  | nil => exact kept
  | cons packet rest =>
      obtain ⟨strUserId, tbGameData⟩ := packet
      have last := fun objLogic => guard strUserId tbGameData rest objLogic packets
      have others : ∀ other objRoom objLogic, other ≠ strUserId → w.room.userDataPool other = some objRoom →
          w.logic.userDataPool other = some objLogic → other ∉ rest.map Prod.fst →
          objRoom.gameData.gold = goldWith wire other objLogic.gameData.gold w.toLogic.flatten := by
        intro other objRoom objLogic differs inRoom inLogic noSnapshot
        apply kept other objRoom objLogic inRoom inLogic
        rw [packets, List.map_cons, List.mem_cons, not_or]
        exact ⟨differs, noSnapshot⟩
      dsimp only
      cases read : wire.record tbGameData with
      | none =>
          intro other objRoom objLogic inRoom inLogic noSnapshot
          by_cases same : other = strUserId
          · subst same
            obtain ⟨gameData, isRead, -⟩ := last objLogic noSnapshot inLogic
            exact absurd isRead (by rw [read]; simp)
          · exact others other objRoom objLogic same inRoom inLogic noSnapshot
      | some gameData =>
          intro other objRoom objLogic inRoom inLogic noSnapshot
          change Function.update w.room.userDataPool strUserId (some (.new gameData)) other = some objRoom at inRoom
          by_cases same : other = strUserId
          · subst same
            rw [Function.update_self] at inRoom
            cases inRoom
            obtain ⟨gameData', isRead, gold⟩ := last objLogic noSnapshot inLogic
            cases read.symm.trans isRead
            exact gold
          · rw [Function.update_of_ne same] at inRoom
            exact others other objRoom objLogic same inRoom inLogic noSnapshot

/-- What a row adds at the table is on its way. -/
theorem settleAtTable_gold (kept : GoldKept wire inFlight w) {row : GoldRow}
    (settled : w.settleAtTable wire row = some w') : GoldKept wire (inFlight ++ [row]) w' := by
  unfold TwoServers.settleAtTable at settled
  cases found : w.room.userDataPool row.1 with
  | none =>
      rw [found] at settled
      exact absurd settled (by simp)
  | some objUser =>
      rw [found] at settled
      cases settled
      intro other objRoom objLogic inRoom inLogic noSnapshot
      change Function.update w.room.userDataPool row.1 _ other = some objRoom at inRoom
      rw [goldWith_append]
      by_cases same : row.1 = other
      · subst same
        rw [Function.update_self] at inRoom
        cases inRoom
        have before := kept row.1 objUser objLogic found inLogic noSnapshot
        rw [← before, goldWith_row]
        rfl
      · rw [Function.update_of_ne (Ne.symm same)] at inRoom
        rw [goldWith_other wire same, kept other objRoom objLogic inRoom inLogic noSnapshot]
        rfl

/-- The rows that the table settles are the rows it sends. -/
theorem settlement_gold (kept : GoldKept wire (w.toLogic.flatten ++ record) w)
    (objects : ∀ row ∈ rows, row.2 ≠ 0 → (w.room.userDataPool row.1).isSome) :
    GoldKept wire (w.settlement wire record rows).toLogic.flatten (w.settlement wire record rows) := by
  induction rows generalizing w record with
  | nil =>
      unfold TwoServers.settlement
      split
      next empty =>
        rw [List.isEmpty_iff.mp empty, List.append_nil] at kept
        exact kept
      next =>
        have sent : (w.toLogic ++ [record]).flatten = w.toLogic.flatten ++ record := by simp
        change GoldKept wire (w.toLogic ++ [record]).flatten _
        rw [sent]
        exact kept
  | cons row rows ih =>
      have later : ∀ other ∈ rows, other.2 ≠ 0 → (w.room.userDataPool other.1).isSome :=
        fun other member => objects other (List.mem_cons_of_mem row member)
      unfold TwoServers.settlement
      split
      next => exact ih kept later
      next changes =>
        obtain ⟨objUser, found⟩ := Option.isSome_iff_exists.mp (objects row List.mem_cons_self changes)
        have settled : w.settleAtTable wire row = some { w with
            room := w.room.putUserObject row.1 (objUser.change (TwoServers.goldChange wire objUser row.2))
            changed := w.changed ++ [(row.1, TwoServers.goldChange wire objUser row.2)] } := by
          rw [TwoServers.settleAtTable, found]
        rw [settled]
        apply ih
        · have next := settleAtTable_gold kept settled
          rw [List.append_assoc] at next
          exact next
        · intro other member nonzero
          exact isSome_update _ other.1 (later other member nonzero)

/-- The rows of a settlement are on their way as they were settled. -/
theorem settlement_rows (before : RowsRead wire (w.toLogic.flatten ++ record)) (read : RowsRead wire rows) :
    RowsRead wire (w.settlement wire record rows).toLogic.flatten := by
  induction rows generalizing w record with
  | nil =>
      unfold TwoServers.settlement
      split
      next => exact fun row member => before row (List.mem_append_left _ member)
      next =>
        have sent : (w.toLogic ++ [record]).flatten = w.toLogic.flatten ++ record := by simp
        change RowsRead wire (w.toLogic ++ [record]).flatten
        rw [sent]
        exact before
  | cons row rows ih =>
      have later : RowsRead wire rows := fun other member => read other (List.mem_cons_of_mem row member)
      unfold TwoServers.settlement
      split
      next => exact ih before later
      next =>
        unfold TwoServers.settleAtTable
        cases w.room.userDataPool row.1 with
        | none => exact fun other member => before other (List.mem_append_left _ member)
        | some objUser =>
            refine ih (fun other member => ?_) later
            change other ∈ w.toLogic.flatten ++ (record ++ [row]) at member
            rw [← List.append_assoc] at member
            rcases List.mem_append.mp member with old | new
            · exact before other old
            · rw [List.mem_singleton.mp new]
              exact read row List.mem_cons_self

/-- What a row adds at the logic server is not on its way any more. -/
theorem settleAtLogic_gold {row : GoldRow} (kept : GoldKept wire (row :: inFlight) w) (read : wire.text row.2 = row.2)
    (settled : w.settleAtLogic wire row = some w') : GoldKept wire inFlight w' := by
  unfold TwoServers.settleAtLogic at settled
  cases found : w.logic.userDataPool row.1 with
  | none =>
      rw [found] at settled
      exact absurd settled (by simp)
  | some objUser =>
      rw [found, read] at settled
      cases settled
      intro other objRoom objLogic inRoom inLogic noSnapshot
      rw [UserManager.saveUserData_of_dirty _ _ rfl] at inLogic
      change Function.update w.logic.userDataPool row.1 _ other = some objLogic at inLogic
      by_cases same : row.1 = other
      · subst same
        rw [Function.update_self] at inLogic
        cases inLogic
        rw [kept row.1 objRoom objUser inRoom found noSnapshot, goldWith_row]
        rfl
      · rw [Function.update_of_ne (Ne.symm same)] at inLogic
        rw [kept other objRoom objLogic inRoom inLogic noSnapshot, goldWith_other wire same]

theorem gameSettlement_gold {stored : String → Option UserRecord}
    (agree : ServersAgree stored (rows ++ w.toLogic.flatten) w)
    (kept : GoldKept wire (rows ++ w.toLogic.flatten) w) (read : RowsRead wire (rows ++ w.toLogic.flatten)) :
    GoldKept wire (w.gameSettlement wire rows).toLogic.flatten (w.gameSettlement wire rows) ∧
      (w.gameSettlement wire rows).toLogic = w.toLogic := by
  induction rows generalizing w with
  | nil => exact ⟨kept, rfl⟩
  | cons row rows ih =>
      have settles : ∃ settled, w.settleAtLogic wire row = some settled ∧ settled.toLogic = w.toLogic ∧
          ServersAgree stored (rows ++ w.toLogic.flatten) settled :=
        settleAtLogic_agree agree
      obtain ⟨settled, done, messages, next⟩ := settles
      unfold TwoServers.gameSettlement
      rw [done]
      rw [← messages] at next kept read ⊢
      refine ih next ?_ fun other member => read other (List.mem_cons_of_mem row member)
      exact settleAtLogic_gold kept (read row List.mem_cons_self) done

end Steps

/-! ## Runs

When nothing is in flight, the invariant is the property.
-/

section Runs

variable {wire : Wire} {stored : String → Option UserRecord} {w w' : TwoServers}

/-- The servers agree on who is known, and the room's gold is right. -/
structure RoomGoldOk (wire : Wire) (stored : String → Option UserRecord) (w : TwoServers) : Prop where
  agree : ServersAgree stored w.toLogic.flatten w
  gold : GoldKept wire w.toLogic.flatten w
  read : RowsRead wire w.toLogic.flatten

/-- Each step that meets the condition keeps the invariant. -/
theorem goldStep_ok {a : GoldAction} (ok : RoomGoldOk wire stored w) (guard : GoldGuard wire w a)
    (step : goldStep wire w a = some w') : RoomGoldOk wire stored w' := by
  cases a with
  | enterRoom strUserId =>
      cases step
      have messages : (w.enterRoom strUserId).toLogic = w.toLogic := by
        unfold TwoServers.enterRoom
        split <;> rfl
      have agree : ServersAgree stored (w.enterRoom strUserId).toLogic.flatten (w.enterRoom strUserId) :=
        serverStep_agree ok.agree (show ServerGuard wire w (.enterRoom strUserId) from trivial)
      refine ⟨agree, ?_, ?_⟩
      · change GoldKept wire (w.enterRoom strUserId).toLogic.flatten (w.enterRoom strUserId)
        rw [messages]
        exact enterRoom_gold ok.gold strUserId
      · change RowsRead wire (w.enterRoom strUserId).toLogic.flatten
        rw [messages]
        exact ok.read
  | deliverEnterRoom =>
      cases step
      have messages : (w.deliverEnterRoom wire).toLogic = w.toLogic := by
        unfold TwoServers.deliverEnterRoom
        repeat' split
        all_goals rfl
      have agree : ServersAgree stored (w.deliverEnterRoom wire).toLogic.flatten (w.deliverEnterRoom wire) :=
        serverStep_agree ok.agree (show ServerGuard wire w .deliverEnterRoom from trivial)
      refine ⟨agree, ?_, ?_⟩
      · change GoldKept wire (w.deliverEnterRoom wire).toLogic.flatten (w.deliverEnterRoom wire)
        rw [messages]
        exact deliverEnterRoom_gold ok.gold guard
      · change RowsRead wire (w.deliverEnterRoom wire).toLogic.flatten
        rw [messages]
        exact ok.read
  | settlement rows =>
      simp only [goldStep] at step
      split at step
      next objects =>
        cases step
        have agree : ServersAgree stored (w.settlement wire [] rows).toLogic.flatten (w.settlement wire [] rows) :=
          serverStep_agree ok.agree (show ServerGuard wire w (.settlement rows) from objects)
        refine ⟨agree, ?_, ?_⟩
        · apply settlement_gold _ objects
          rw [List.append_nil]
          exact ok.gold
        · apply settlement_rows _ guard
          rw [List.append_nil]
          exact ok.read
      next => exact absurd step (by simp)
  | deliverSettlement =>
      cases step
      have agree := ok.agree
      have gold := ok.gold
      have read := ok.read
      have after : ServersAgree stored (w.deliverSettlement wire).toLogic.flatten (w.deliverSettlement wire) :=
        serverStep_agree ok.agree (show ServerGuard wire w .deliverSettlement from trivial)
      suffices GoldKept wire (w.deliverSettlement wire).toLogic.flatten (w.deliverSettlement wire) ∧
          RowsRead wire (w.deliverSettlement wire).toLogic.flatten from ⟨after, this.1, this.2⟩
      unfold TwoServers.deliverSettlement
      cases messages : w.toLogic with
      | nil =>
          dsimp only
          exact ⟨gold, read⟩
      | cons rows rest =>
          rw [messages, List.flatten_cons] at agree gold read
          have delivered : ServersAgree stored (rows ++ rest.flatten) { w with toLogic := rest } := by
            refine agree.frame rfl rfl rfl ?_
            exact ⟨agree.known.packets, agree.known.objects, agree.known.writes, agree.known.rows⟩
          obtain ⟨kept, same⟩ := gameSettlement_gold (w := { w with toLogic := rest }) delivered gold read
          refine ⟨kept, ?_⟩
          dsimp only
          rw [same]
          exact fun row member => read row (List.mem_append_right _ member)

theorem roomGoldOk_init (wire : Wire) (stored : String → Option UserRecord) (cached : String → Bool) :
    RoomGoldOk wire stored (.init stored cached) := by
  refine ⟨serversAgree_init stored cached, fun strUserId objRoom objLogic inRoom => ?_, fun row member => ?_⟩
  · exact absurd inRoom (by simp [TwoServers.init, UserManager.ctor])
  · exact absurd member (by simp [TwoServers.init])

theorem RoomGoldOk.goldAgrees (ok : RoomGoldOk wire stored w) : GoldAgrees w := by
  intro noSnapshots noRows strUserId objRoom inRoom
  have known : (w.logic.userDataPool strUserId).isSome :=
    ok.agree.known.objects strUserId (Option.isSome_iff_exists.mpr ⟨objRoom, inRoom⟩)
  obtain ⟨objLogic, inLogic⟩ := Option.isSome_iff_exists.mp known
  have gold := ok.gold strUserId objRoom objLogic inRoom inLogic (by simp [noSnapshots])
  rw [noRows] at gold
  exact ⟨objLogic, inLogic, gold⟩

/-- **Gold at rest.** In every run in which amounts are read as they were settled and the last snapshot of a user is
never out of date, both servers have the same gold for every user of the room whenever no message is in flight. -/
theorem goldAgrees_of_guarded (wire : Wire) (stored : String → Option UserRecord) (cached : String → Bool)
    (actions : List GoldAction)
    (guarded : Guarded (goldStep wire) (GoldGuard wire) (.init stored cached) actions)
    (run : runSteps (goldStep wire) (.init stored cached) actions = some w) : GoldAgrees w := by
  have keep : ∀ s a s', RoomGoldOk wire stored s → GoldGuard wire s a → goldStep wire s a = some s' →
      RoomGoldOk wire stored s' :=
    fun s a s' ok guard step => goldStep_ok ok guard step
  exact (guarded_invariant keep (roomGoldOk_init wire stored cached) guarded run).goldAgrees

/-- User 7 enters a room, wins 5 there, and enters again when the logic server has heard of it. -/
def entersAgain : List GoldAction :=
  [.enterRoom "7", .deliverEnterRoom, .settlement [("7", 5)], .deliverSettlement, .enterRoom "7",
    .deliverEnterRoom]

theorem goldAgrees_of_guarded_entersAgain :
    ∃ w, runSteps (goldStep .plain) (.init oneUser fun _ => true) entersAgain = some w ∧ GoldAgrees w := by
  refine ⟨_, rfl, goldAgrees_of_guarded .plain oneUser (fun _ => true) entersAgain ?_ rfl⟩
  apply Guarded.cons_of_step trivial rfl
  apply Guarded.cons_of_step _ rfl
  · apply Guarded.cons_of_step _ rfl
    · apply Guarded.cons_of_step trivial rfl
      apply Guarded.cons_of_step trivial rfl
      apply Guarded.cons_of_step _ rfl
      · exact trivial
      · intro strUserId tbGameData rest objLogic packets _ inLogic
        cases packets
        cases inLogic
        exact ⟨_, rfl, rfl⟩
    · intro row member
      rw [List.mem_singleton.mp member]
      decide +kernel
  · intro strUserId tbGameData rest objLogic packets _ inLogic
    cases packets
    cases inLogic
    exact ⟨_, rfl, rfl⟩

/-- User 7 enters a room, and asks to enter it again; before this message arrives, he wins 5. -/
def entersTooSoon : List GoldAction :=
  [.enterRoom "7", .deliverEnterRoom, .enterRoom "7", .settlement [("7", 5)], .deliverEnterRoom,
    .deliverSettlement]

/-- The room server has lost the 5. -/
theorem gold_overwritten_by_snapshot :
    ¬ ∀ w, runSteps (goldStep .plain) (.init oneUser fun _ => true) entersTooSoon = some w → GoldAgrees w := by
  intro agrees
  obtain ⟨objLogic, inLogic, gold⟩ := agrees _ rfl rfl rfl "7" _ rfl
  cases inLogic
  exact absurd gold (by decide +kernel)

end Runs

end GameServer.Logic
