/-
Module: GameServer.Logic.WholeRecords
Purpose: Records that are read and written as a whole: which runs of the logic server lose no change that was
  acknowledged.
Trusted boundary: that of `FriendLogic` and of `RecordText`
Main exports: LogicWorld.written, textStep, LogicGuard, TextGuard, ChangesStored, RecordsKept, changesStored_of_guarded
-/
import GameServer.Lib.Runs
import GameServer.Logic.FriendLogic
import GameServer.Script.RecordText

namespace GameServer.Logic

open Lib Script

/-! ## The property and its condition

Records are stored whole, so a write from an older copy takes back what was changed since.
-/

/-- What will be stored when the queued commands were executed. -/
def LogicWorld.written (w : LogicWorld) : String → Option UserRecord := w.users.commands.foldl DbCommand.run w.store

/-- When nothing is under way, the stored record of each user is what it was when the server was started,
with all acknowledged changes, in their order. -/
def ChangesStored (stored : String → Option UserRecord) (w : LogicWorld) : Prop :=
  w.users.commands = [] → w.responses = [] → ∀ strUserId,
    match stored strUserId with
    | some gameData =>
        w.store strUserId = some (replay UserRecord.apply gameData (entriesOf strUserId w.acknowledged))
    | none => entriesOf strUserId w.acknowledged = []

namespace LogicWorld

/-- The user's record is there and has the change already. -/
def Has (w : LogicWorld) (strUserId : String) (c : Change) : Prop :=
  ∃ gameData, w.written strUserId = some gameData ∧ gameData.apply c = gameData

/-- The record that was read is not out of date, and its user was not cached meanwhile, unless it has the change
already. -/
def Fits (w : LogicWorld) (response : DbResponse) (c : Change) : Prop :=
  ∀ gameData, response.reply = some gameData →
    w.written response.get.strKey = some gameData ∧
      (w.users.userDataPool response.get.strKey = none ∨ gameData.apply c = gameData)

end LogicWorld

/-- The steps that lose nothing: a record that returns is the one that is stored or waits to be stored; when a
friend's record returns and its callback runs, the friend was not cached meanwhile; and the callback for the
record of an inviter does run, and finds a record. -/
def LogicGuard (w : LogicWorld) : LogicAction → Prop
  | .deliver => ∀ response ∈ w.responses.head?,
      match response.get.event with
      | .logicGetGameData =>
          ∀ gameData, response.reply = some gameData → w.written response.get.strKey = some gameData
      | .addFriendGetGameData =>
          (w.callbackUser response.get.nUserId).isSome →
            w.Fits response (.addFriendRequest response.get.nUserId)
      | .getFriendInviterData =>
          ((w.callbackUser response.get.nUserId).isSome →
            w.Fits response (.addToFriendList response.get.nUserId)) ∧
          ((w.callbackUser response.get.nUserId).isSome ∧ response.reply.isSome ∨
            w.Has response.get.strKey (.addToFriendList response.get.nUserId))
  | _ => True

/-! ## Texts

Redis has records as texts, under keys that are C strings.  A step in which the texts are read back is the step on the
records themselves.
-/

section Texts

variable (wire : Wire)

/-- Redis executes the next command. -/
def LogicWorld.executeText (w : LogicWorld) : LogicWorld :=
  match w.users.commands with
  | [] => w
  | command :: rest =>
      let executed := { w with users := { w.users with commands := rest }, store := command.runText wire w.store }
      match command with
      | .getValue get => { executed with responses := w.responses ++ [⟨get, w.store (redisKey get.strKey)⟩] }
      | .setValue _ _ => executed

/-- A step of the logic server and of Redis. -/
def textStep (nFirstUserId : Int) (w : LogicWorld) : LogicAction → LogicWorld
  | .execute => w.executeText wire
  | a => logicStep nFirstUserId w a

/-- The steps that lose nothing: what Redis is given has a key without NUL, and a record that is read back. -/
def TextGuard (w : LogicWorld) : LogicAction → Prop
  | .execute => ∀ command ∈ w.users.commands.head?, command.ReadBack wire
  | a => LogicGuard w a

variable {wire} {w : LogicWorld}

theorem executeText_eq (guard : TextGuard wire w .execute) : w.executeText wire = w.execute := by
  unfold LogicWorld.executeText LogicWorld.execute
  cases commands : w.users.commands with
  | nil => rfl
  | cons command rest =>
      have readBack : command.ReadBack wire := guard command (by rw [commands]; rfl)
      cases command with
      | getValue get =>
          have key : redisKey get.strKey = get.strKey := redisKey_eq readBack
          dsimp only
          rw [readBack.runText_eq, key]
      | setValue strKey gameData =>
          dsimp only
          rw [readBack.runText_eq]

theorem textStep_eq (nFirstUserId : Int) {a : LogicAction} (guard : TextGuard wire w a) :
    textStep wire nFirstUserId w a = logicStep nFirstUserId w a ∧ LogicGuard w a := by
  cases a with
  | execute => exact ⟨executeText_eq guard, trivial⟩
  | _ => exact ⟨rfl, guard⟩

end Texts

/-! ## The invariant

The live record of a user is what will be stored, and it has all acknowledged changes but those that still wait for a
response.
-/

/-- The entry of an inviter's list that the response will add. -/
def promiseOf (get : GameDataGet) : Option (String × Change) :=
  match get.event with
  | .getFriendInviterData => some (get.strKey, .addToFriendList get.nUserId)
  | _ => none

def promiseOfCommand : DbCommand → Option (String × Change)
  | .getValue get => promiseOf get
  | .setValue _ _ => none

namespace LogicWorld

/-- The changes that were acknowledged before they were made. -/
def underWay (w : LogicWorld) : List (String × Change) :=
  w.responses.filterMap (promiseOf ·.get) ++ w.users.commands.filterMap promiseOfCommand

/-- The user's record as the server has it. -/
def live (w : LogicWorld) (strUserId : String) : Option UserRecord :=
  match w.users.userDataPool strUserId with
  | some objUser => some objUser.gameData
  | none => w.written strUserId

end LogicWorld

/-- Every object of the pool is saved, or it is the user's who is served and dirty; every record is accounted
for. -/
structure RecordsKept (stored : String → Option UserRecord) (served : Option String) (w : LogicWorld) : Prop where
  saved : ∀ strUserId objUser, w.users.userDataPool strUserId = some objUser →
    w.written strUserId = some objUser.gameData ∨ served = some strUserId ∧ objUser.bIsDirty = true
  accounted : ∀ strUserId, Accounted UserRecord.apply (stored strUserId)
    (entriesOf strUserId w.acknowledged) (w.live strUserId) (entriesOf strUserId w.underWay)

section Frame

variable (w : LogicWorld)

theorem written_push (command : DbCommand) :
    (w.push command).written = command.run w.written := by
  simp [LogicWorld.push, UserManager.push, LogicWorld.written]

theorem underWay_push (command : DbCommand) :
    (w.push command).underWay = w.underWay ++ (promiseOfCommand command).toList := by
  cases promise : promiseOfCommand command with
  | none => simp [LogicWorld.push, UserManager.push, LogicWorld.underWay, promise]
  | some entry => simp [LogicWorld.push, UserManager.push, LogicWorld.underWay, promise]

/-- An object that was changed is written. -/
theorem save_eq (strUserId : String) {objUser : UserObject} (dirty : objUser.bIsDirty = true) :
    w.saveUserData strUserId objUser = w.push (.setValue strUserId objUser.gameData) := by
  rw [LogicWorld.saveUserData, w.users.saveUserData_of_dirty strUserId dirty]
  rfl

theorem written_save (strUserId : String) {objUser : UserObject} (dirty : objUser.bIsDirty = true) :
    (w.saveUserData strUserId objUser).written =
      Function.update w.written strUserId (some objUser.gameData) := by
  rw [save_eq w strUserId dirty, written_push]
  rfl

theorem underWay_save (strUserId : String) {objUser : UserObject} (dirty : objUser.bIsDirty = true) :
    (w.saveUserData strUserId objUser).underWay = w.underWay := by
  rw [save_eq w strUserId dirty, underWay_push]
  exact List.append_nil _

theorem userDataPool_save (strUserId : String) {objUser : UserObject} (dirty : objUser.bIsDirty = true) :
    (w.saveUserData strUserId objUser).users.userDataPool = w.users.userDataPool := by
  rw [save_eq w strUserId dirty]
  rfl

/-- The changes under way are new friends. -/
theorem underWay_commutes (strUserId : String) :
    ∀ c ∈ entriesOf strUserId w.underWay, Commutes UserRecord.apply c := by
  have promised : ∀ (get : GameDataGet) entry, promiseOf get = some entry →
      Commutes UserRecord.apply entry.2 := by
    intro get entry promise
    unfold promiseOf at promise
    split at promise
    · cases promise
      exact UserRecord.addToFriendList_commutes _
    · exact absurd promise (by simp)
  intro c member
  obtain ⟨entry, kept, rfl⟩ := List.mem_map.mp member
  rcases List.mem_append.mp (List.mem_of_mem_filter kept) with inResponses | inCommands
  · obtain ⟨response, _, promise⟩ := List.mem_filterMap.mp inResponses
    exact promised response.get entry promise
  · obtain ⟨command, _, promise⟩ := List.mem_filterMap.mp inCommands
    cases command with
    | getValue get => exact promised get entry promise
    | setValue strKey gameData => exact absurd promise (by simp [promiseOfCommand])

end Frame

namespace RecordsKept

variable {stored : String → Option UserRecord} {served : Option String} {w w' : LogicWorld}
  {strUserId : String}

/-- Between two requests there is no difference. -/
theorem live_eq (kept : RecordsKept stored none w) (strUserId : String) :
    w.live strUserId = w.written strUserId := by
  unfold LogicWorld.live
  cases found : w.users.userDataPool strUserId with
  | none => rfl
  | some objUser =>
      rcases kept.saved strUserId objUser found with same | other
      · exact same.symm
      · exact absurd other.1 (by simp)

/-- Changes of an object in the pool, acknowledged, leave all records accounted for. -/
theorem accounted_changed (kept : RecordsKept stored served w) {objUser : UserObject}
    (found : w.users.userDataPool strUserId = some objUser) (cs : List Change)
    (pool : w'.users.userDataPool = Function.update w.users.userDataPool strUserId (some (objUser.changes cs)))
    (written : ∀ other, other ≠ strUserId → w'.written other = w.written other)
    (acknowledged : w'.acknowledged = w.acknowledged ++ cs.map fun c => (strUserId, c))
    (underWay : w'.underWay = w.underWay) (other : String) :
    Accounted UserRecord.apply (stored other) (entriesOf other w'.acknowledged) (w'.live other)
      (entriesOf other w'.underWay) := by
  have before := kept.accounted other
  rw [acknowledged, underWay, entriesOf_append]
  by_cases same : other = strUserId
  · rw [same] at before ⊢
    have now : w.live strUserId = some objUser.gameData := by
      rw [LogicWorld.live, found]
    have later : w'.live strUserId = some (replay UserRecord.apply objUser.gameData cs) := by
      rw [LogicWorld.live, pool, Function.update_self]
      exact congrArg some (objUser.gameData_changes cs)
    rw [now] at before
    rw [later, entriesOf_map_self]
    exact before.change (underWay_commutes w strUserId) cs
  · have later : w'.live other = w.live other := by
      rw [LogicWorld.live, LogicWorld.live, pool, Function.update_of_ne same, written other same]
    rw [later, entriesOf_map_ne (Ne.symm same), List.append_nil]
    exact before

/-- The user who is served changes his own object. -/
theorem changeOwn (kept : RecordsKept stored served w) (mine : served = none ∨ served = some strUserId)
    {objUser : UserObject} (found : w.users.userDataPool strUserId = some objUser) (cs : List Change) :
    RecordsKept stored (some strUserId)
      ((w.putUserObject strUserId (objUser.changes cs)).acknowledge (cs.map fun c => (strUserId, c))) := by
  constructor
  · intro other object inPool
    change Function.update w.users.userDataPool strUserId (some (objUser.changes cs)) other = some object at inPool
    by_cases same : other = strUserId
    · rw [same, Function.update_self] at inPool
      cases inPool
      rcases objUser.bIsDirty_changes cs with unchanged | dirty
      · subst unchanged
        rw [same]
        rcases kept.saved strUserId objUser found with saved | ⟨_, dirty⟩
        · exact Or.inl saved
        · exact Or.inr ⟨rfl, dirty⟩
      · exact Or.inr ⟨by rw [same], dirty⟩
    · rw [Function.update_of_ne same] at inPool
      rcases kept.saved other object inPool with saved | ⟨isServed, _⟩
      · exact Or.inl saved
      · rcases mine with none | some
        · exact absurd (none.symm.trans isServed) (by simp)
        · exact absurd (Option.some.inj (some.symm.trans isServed)).symm same
  · exact kept.accounted_changed found cs rfl (fun _ _ => rfl) rfl rfl

/-- Another user's object is changed and saved. -/
theorem changeAndSave (kept : RecordsKept stored served w) {objUser : UserObject}
    (found : w.users.userDataPool strUserId = some objUser) (c : Change) :
    RecordsKept stored served
      (((w.putUserObject strUserId (objUser.change c)).saveUserData strUserId (objUser.change c)).acknowledge
        [(strUserId, c)]) := by
  have dirty : (objUser.change c).bIsDirty = true := rfl
  have pool := userDataPool_save (w.putUserObject strUserId (objUser.change c)) strUserId dirty
  have written := written_save (w.putUserObject strUserId (objUser.change c)) strUserId dirty
  constructor
  · intro other object inPool
    change ((w.putUserObject strUserId (objUser.change c)).saveUserData strUserId
      (objUser.change c)).users.userDataPool other = some object at inPool
    change ((w.putUserObject strUserId (objUser.change c)).saveUserData strUserId
      (objUser.change c)).written other = some object.gameData ∨ _
    rw [pool] at inPool
    rw [written]
    change Function.update w.users.userDataPool strUserId (some (objUser.change c)) other = some object at inPool
    by_cases same : other = strUserId
    · rw [same, Function.update_self] at inPool
      cases inPool
      rw [same, Function.update_self]
      exact Or.inl rfl
    · rw [Function.update_of_ne same] at inPool
      rw [Function.update_of_ne same]
      exact kept.saved other object inPool
  · apply kept.accounted_changed found [c]
    · exact pool
    · intro other differs
      change ((w.putUserObject strUserId (objUser.change c)).saveUserData strUserId
        (objUser.change c)).written other = w.written other
      rw [written, Function.update_of_ne differs]
      rfl
    · change ((w.putUserObject strUserId (objUser.change c)).saveUserData strUserId
        (objUser.change c)).acknowledged ++ _ = _
      rfl
    · exact underWay_save (w.putUserObject strUserId (objUser.change c)) strUserId dirty

/-- Asking for a record changes none. -/
theorem ask (kept : RecordsKept stored served w) {get : GameDataGet} (promise : promiseOf get = none) :
    RecordsKept stored served (w.push (.getValue get)) := by
  have written : (w.push (.getValue get)).written = w.written := written_push w (.getValue get)
  have underWay : (w.push (.getValue get)).underWay = w.underWay := by
    rw [underWay_push, promiseOfCommand, promise]
    exact List.append_nil _
  constructor
  · intro other object inPool
    rw [written]
    exact kept.saved other object inPool
  · intro other
    have live : (w.push (.getValue get)).live other = w.live other := by
      rw [LogicWorld.live, LogicWorld.live, written]
      rfl
    rw [live, underWay]
    exact kept.accounted other

/-- Asking for the record of an inviter, with the promise to add a friend to it. -/
theorem askAndPromise (kept : RecordsKept stored served w) {get : GameDataGet} {c : Change}
    (promise : promiseOf get = some (strUserId, c)) :
    RecordsKept stored served ((w.push (.getValue get)).acknowledge [(strUserId, c)]) := by
  have written : (w.push (.getValue get)).written = w.written := written_push w (.getValue get)
  have underWay : (w.push (.getValue get)).underWay = w.underWay ++ [(strUserId, c)] := by
    rw [underWay_push, promiseOfCommand, promise]
    rfl
  constructor
  · intro other object inPool
    change (w.push (.getValue get)).written other = _ ∨ _
    rw [written]
    exact kept.saved other object inPool
  · intro other
    have live : (w.push (.getValue get)).live other = w.live other := by
      rw [LogicWorld.live, LogicWorld.live, written]
      rfl
    change Accounted _ _ (entriesOf other (w.acknowledged ++ [(strUserId, c)]))
      ((w.push (.getValue get)).live other) (entriesOf other (w.push (.getValue get)).underWay)
    rw [live, underWay, entriesOf_append, entriesOf_append, entriesOf_cons]
    by_cases same : strUserId = other
    · rw [if_pos same]
      exact (kept.accounted other).defer c
    · rw [if_neg same, entriesOf_nil, List.append_nil, List.append_nil]
      exact kept.accounted other

/-- `Commit` saves the object of the user who was served. -/
theorem commit (kept : RecordsKept stored (some strUserId) w) :
    RecordsKept stored none (w.commit strUserId) := by
  rcases w.users.commit_cases strUserId with ⟨objUser, found, done⟩ | ⟨done, clean⟩
  · have committed : w.commit strUserId = (w.push (.setValue strUserId objUser.gameData)).putUserObject strUserId
        { objUser with bIsDirty := false } := by
      rw [LogicWorld.commit, done]
      rfl
    have written : (w.commit strUserId).written =
        Function.update w.written strUserId (some objUser.gameData) := by
      rw [committed]
      exact written_push w (.setValue strUserId objUser.gameData)
    have pool : (w.commit strUserId).users.userDataPool =
        Function.update w.users.userDataPool strUserId (some { objUser with bIsDirty := false }) := by
      rw [committed]
      rfl
    have underWay : (w.commit strUserId).underWay = w.underWay := by
      rw [committed]
      exact (underWay_push w (.setValue strUserId objUser.gameData)).trans (List.append_nil _)
    constructor
    · intro other object inPool
      rw [pool] at inPool
      rw [written]
      by_cases same : other = strUserId
      · rw [same, Function.update_self] at inPool
        cases inPool
        rw [same, Function.update_self]
        exact Or.inl rfl
      · rw [Function.update_of_ne same] at inPool
        rw [Function.update_of_ne same]
        rcases kept.saved other object inPool with saved | ⟨isServed, _⟩
        · exact Or.inl saved
        · exact absurd (Option.some.inj isServed).symm same
    · intro other
      have live : (w.commit strUserId).live other = w.live other := by
        rw [LogicWorld.live, LogicWorld.live, written, pool]
        by_cases same : other = strUserId
        · rw [same, Function.update_self, Function.update_self, found]
        · rw [Function.update_of_ne same, Function.update_of_ne same]
      rw [live, underWay]
      exact kept.accounted other
  · have nothing : w.commit strUserId = w := by
      rw [LogicWorld.commit, done]
    rw [nothing]
    refine ⟨fun other object inPool => ?_, kept.accounted⟩
    rcases kept.saved other object inPool with saved | ⟨isServed, dirty⟩
    · exact Or.inl saved
    · cases isServed
      exact absurd dirty (by rw [clean object inPool]; simp)

/-- A user who is served may have nothing to save. -/
theorem serve (kept : RecordsKept stored none w) (strUserId : String) :
    RecordsKept stored (some strUserId) w := by
  refine ⟨fun other object inPool => ?_, kept.accounted⟩
  rcases kept.saved other object inPool with saved | ⟨isServed, _⟩
  · exact Or.inl saved
  · exact absurd isServed (by simp)

end RecordsKept

/-! ## Requests

Handlers change the object of the user they serve, and `Commit` writes it.
-/

section Requests

variable {stored : String → Option UserRecord} {w : LogicWorld}

/-- Handlers keep the records, but for the object of the user they serve. -/
def Keeps (stored : String → Option UserRecord) (handle : String → LogicWorld → Handled) : Prop :=
  ∀ strUserId w, RecordsKept stored none w → RecordsKept stored (some strUserId) (handle strUserId w).answered

/-- `Commit` closes the gap that the handler has left. -/
theorem clientRequest_keeps {handle : String → LogicWorld → Handled} (keeps : Keeps stored handle)
    (nHandlerId : Int) (kept : RecordsKept stored none w) :
    RecordsKept stored none (w.clientRequest nHandlerId handle) := by
  unfold LogicWorld.clientRequest
  cases w.currentUser nHandlerId with
  | none => exact kept
  | some strUserId => exact (keeps strUserId w kept).commit

theorem profile_keeps (handler : ProfileHandler) : Keeps stored (LogicWorld.profile handler) := by
  intro strUserId w kept
  unfold LogicWorld.profile
  cases found : w.users.userDataPool strUserId with
  | none => exact kept.serve strUserId
  | some objUser =>
      dsimp only
      cases result : handler objUser.gameData with
      | error nErrorCode =>
          dsimp only [Handled.answered, LogicWorld.acknowledge]
          split
          · simpa using kept.serve strUserId
          · exact kept.serve strUserId
      | ok cs => exact kept.changeOwn (Or.inl rfl) found cs

theorem addFriend_keeps (nFirstUserId : Int) (nUserId : LuaValue) :
    Keeps stored (LogicWorld.addFriend nFirstUserId nUserId) := by
  intro strUserId w kept
  unfold LogicWorld.addFriend
  repeat' split
  all_goals first
    | exact kept.serve strUserId
    | exact (kept.ask rfl).serve strUserId
    | skip
  next found => exact (kept.changeAndSave found _).serve strUserId

/-- The inviter's list gets its entry at once, or there is the promise to add it. -/
theorem addInviteeToInviter_keeps {served : Option String} (kept : RecordsKept stored served w)
    (strInvitee strInviter : String) :
    RecordsKept stored served ((w.addInviteeToInviter strInvitee strInviter).acknowledge
      [(strInviter, .addToFriendList strInvitee)]) := by
  unfold LogicWorld.addInviteeToInviter
  cases found : w.users.userDataPool strInviter with
  | none => exact kept.askAndPromise rfl
  | some objInviterUser => exact kept.changeAndSave found _

theorem addInviteeToInviter_acknowledge (changes : List (String × Change)) (strInvitee strInviter : String) :
    (w.acknowledge changes).addInviteeToInviter strInvitee strInviter =
      (w.addInviteeToInviter strInvitee strInviter).acknowledge changes := by
  have samePool : (w.acknowledge changes).users = w.users := rfl
  rw [LogicWorld.addInviteeToInviter, LogicWorld.addInviteeToInviter, samePool]
  cases w.users.userDataPool strInviter with
  | none => rfl
  | some objInviterUser => rfl

theorem passRequest_keeps (nFirstUserId : Int) (nInviter : LuaValue) :
    Keeps stored (LogicWorld.passRequest nFirstUserId nInviter) := by
  intro strUserId w kept
  unfold LogicWorld.passRequest
  repeat' split
  all_goals first
    | exact kept.serve strUserId
    | skip
  next n _ objUser found _ _ =>
    let strInviter : String := (LuaValue.number n).tostring
    have own := kept.changeOwn (Or.inl rfl) found (LogicWorld.acceptance strInviter)
    have both := addInviteeToInviter_keeps own strUserId strInviter
    rw [addInviteeToInviter_acknowledge] at both
    have order : ∀ (v : LogicWorld) (first second : List (String × Change)),
        v.acknowledge (first ++ second) = (v.acknowledge first).acknowledge second := by
      intro v first second
      simp [LogicWorld.acknowledge]
    rw [Handled.answered, if_pos rfl, order]
    exact both

end Requests

/-! ## Responses

A response is cached, changed and saved, or answered; the condition says that it is not older than the live record.
-/

namespace RecordsKept

variable {stored : String → Option UserRecord} {w w' : LogicWorld} {strKey : String} {gameData : UserRecord}
  {c : Change}

/-- A record that was read, and is not out of date, is changed and saved; or it has the change already and
nothing happens. -/
structure CopyChanged (w w' : LogicWorld) (strKey : String) (gameData : UserRecord) (c : Change) : Prop where
  pool : w'.users.userDataPool = w.users.userDataPool
  others : ∀ other, other ≠ strKey → w'.written other = w.written other
  had : w.written strKey = some gameData
  now : w'.written strKey = some (gameData.apply c)
  fresh : w.users.userDataPool strKey = none ∨ gameData.apply c = gameData

theorem CopyChanged.saved (copy : CopyChanged w w' strKey gameData c) (kept : RecordsKept stored none w)
    (other : String) (objUser : UserObject) (inPool : w'.users.userDataPool other = some objUser) :
    w'.written other = some objUser.gameData := by
  rw [copy.pool] at inPool
  have saved : w.written other = some objUser.gameData := by
    rw [← kept.live_eq other, LogicWorld.live, inPool]
  by_cases same : other = strKey
  · rw [same] at inPool saved ⊢
    rcases copy.fresh with none | unchanged
    · exact absurd (none.symm.trans inPool) (by simp)
    · rw [copy.now, unchanged, ← copy.had, saved]
  · rw [copy.others other same, saved]

theorem CopyChanged.live (copy : CopyChanged w w' strKey gameData c) (kept : RecordsKept stored none w)
    (other : String) : w'.live other = w'.written other := by
  rw [LogicWorld.live]
  cases found : w'.users.userDataPool other with
  | none => rfl
  | some objUser => exact (copy.saved kept other objUser found).symm

/-- The change was promised, and it was the next one. -/
theorem landed (kept : RecordsKept stored none w) (copy : CopyChanged w w' strKey gameData c)
    (acknowledged : w'.acknowledged = w.acknowledged)
    (underWay : w.underWay = (strKey, c) :: w'.underWay) : RecordsKept stored none w' := by
  refine ⟨fun other objUser inPool => Or.inl (copy.saved kept other objUser inPool), fun other => ?_⟩
  have before := kept.accounted other
  rw [kept.live_eq, underWay, entriesOf_cons] at before
  rw [copy.live kept, acknowledged]
  by_cases same : strKey = other
  · rw [if_pos same, ← same, copy.had] at before
    rw [← same, copy.now]
    exact before.land
  · rw [if_neg same] at before
    rw [copy.others other (Ne.symm same)]
    exact before

/-- The change is acknowledged now. -/
theorem copied (kept : RecordsKept stored none w) (copy : CopyChanged w w' strKey gameData c)
    (acknowledged : w'.acknowledged = w.acknowledged ++ [(strKey, c)])
    (underWay : w'.underWay = w.underWay) : RecordsKept stored none w' := by
  refine ⟨fun other objUser inPool => Or.inl (copy.saved kept other objUser inPool), fun other => ?_⟩
  have before := kept.accounted other
  rw [kept.live_eq] at before
  rw [copy.live kept, acknowledged, underWay, entriesOf_append, entriesOf_cons]
  by_cases same : strKey = other
  · rw [← same, copy.had] at before
    rw [if_pos same, ← same, copy.now]
    exact before.change (underWay_commutes w strKey) [c]
  · rw [if_neg same, entriesOf_nil, List.append_nil, copy.others other (Ne.symm same)]
    exact before

end RecordsKept

section Responses

variable {stored : String → Option UserRecord} {w : LogicWorld} {response : DbResponse} {rest : List DbResponse}

/-- The response that is delivered is taken from the queue. -/
theorem underWay_next (next : w.responses = response :: rest) :
    w.underWay = (promiseOf response.get).toList ++ { w with responses := rest }.underWay := by
  unfold LogicWorld.underWay
  rw [next]
  cases promise : promiseOf response.get with
  | none => simp [promise]
  | some entry => simp [promise]

/-- A response that no change waits for is dropped. -/
theorem keep_next (kept : RecordsKept stored none w) (next : w.responses = response :: rest)
    (promise : promiseOf response.get = none) : RecordsKept stored none { w with responses := rest } := by
  have underWay := underWay_next next
  rw [promise] at underWay
  refine ⟨kept.saved, fun other => ?_⟩
  have before := kept.accounted other
  rw [underWay] at before
  exact before

/-- The callback of a response, when it runs, and otherwise nothing. -/
theorem onRedisCallback_cases (w : LogicWorld) (nUserId : String) (handle : String → LogicWorld → Handled) :
    w.callbackUser nUserId = none ∧ w.onRedisCallback nUserId handle = w ∨
      ∃ strUserId, w.callbackUser nUserId = some strUserId ∧
        w.onRedisCallback nUserId handle = (handle strUserId w).answered.commit strUserId := by
  unfold LogicWorld.onRedisCallback LogicWorld.callbackUser LogicWorld.clientRequest
  cases w.net.userHanderIdMap nUserId with
  | none => exact Or.inl ⟨rfl, rfl⟩
  | some nHandlerId =>
      dsimp only [Option.bind_some]
      cases w.currentUser nHandlerId with
      | none => exact Or.inl ⟨rfl, rfl⟩
      | some strUserId => exact Or.inr ⟨strUserId, rfl, rfl⟩

/-- A record that is not out of date is put into the pool. -/
theorem load_keeps (kept : RecordsKept stored none w) {strUserId : String} {gameData : UserRecord}
    (fresh : w.written strUserId = some gameData) :
    RecordsKept stored none (w.cacheUserObject strUserId gameData) := by
  have saved : ∀ other objUser, (w.cacheUserObject strUserId gameData).users.userDataPool other = some objUser →
      w.written other = some objUser.gameData := by
    intro other objUser inPool
    change Function.update w.users.userDataPool strUserId (some (.new gameData)) other = some objUser at inPool
    by_cases same : other = strUserId
    · rw [same, Function.update_self] at inPool
      cases inPool
      rw [same, fresh]
      rfl
    · rw [Function.update_of_ne same] at inPool
      rw [← kept.live_eq, LogicWorld.live, inPool]
  refine ⟨fun other objUser inPool => Or.inl (saved other objUser inPool), fun other => ?_⟩
  have live : (w.cacheUserObject strUserId gameData).live other = w.live other := by
    rw [kept.live_eq other, LogicWorld.live]
    cases found : (w.cacheUserObject strUserId gameData).users.userDataPool other with
    | none => rfl
    | some objUser => exact (saved other objUser found).symm
  rw [live]
  exact kept.accounted other

/-- A copy that was saved. -/
theorem saveCopy {strKey : String} {gameData : UserRecord} {c : Change}
    (had : w.written strKey = some gameData)
    (fresh : w.users.userDataPool strKey = none ∨ gameData.apply c = gameData) :
    RecordsKept.CopyChanged w (w.saveUserData strKey ((UserObject.new gameData).change c)) strKey gameData c := by
  have dirty : ((UserObject.new gameData).change c).bIsDirty = true := rfl
  have written := written_save w strKey dirty
  constructor
  · exact userDataPool_save w strKey dirty
  · intro other differs
    rw [written, Function.update_of_ne differs]
  · exact had
  · rw [written, Function.update_self]
    rfl
  · exact fresh

/-- `AddFriendRequest` on a copy that is not out of date. -/
theorem onAddFriendGameData_keeps (kept : RecordsKept stored none w) {strInviter strInvitee : String}
    {reply : Option UserRecord}
    (fits : ∀ gameData, reply = some gameData → w.written strInvitee = some gameData ∧
      (w.users.userDataPool strInvitee = none ∨ gameData.apply (.addFriendRequest strInviter) = gameData)) :
    RecordsKept stored none (LogicWorld.onAddFriendGameData strInviter strInvitee reply w).answered := by
  cases reply with
  | none => exact kept
  | some gameData =>
      obtain ⟨had, fresh⟩ := fits gameData rfl
      have copy := saveCopy had fresh
      refine kept.copied ⟨copy.pool, copy.others, copy.had, copy.now, copy.fresh⟩ rfl ?_
      exact underWay_save w strInvitee rfl

/-- A promise is kept when the callback runs on a copy that is not out of date, or the change is there. -/
theorem promise_keeps (kept : RecordsKept stored none w) (next : w.responses = response :: rest)
    {strInvitee strInviter : String} {v : LogicWorld} (taken : v = { w with responses := rest })
    (promise : promiseOf response.get = some (strInviter, .addToFriendList strInvitee)) :
    (w.Has strInviter (.addToFriendList strInvitee) → RecordsKept stored none v) ∧
      ∀ gameData, w.written strInviter = some gameData →
        (w.users.userDataPool strInviter = none ∨ gameData.apply (.addToFriendList strInvitee) = gameData) →
        RecordsKept stored none
          (LogicWorld.onGetFriendInviterData strInvitee strInviter (some gameData) v).answered := by
  subst taken
  have underWay := underWay_next next
  rw [promise] at underWay
  change w.underWay = _ :: LogicWorld.underWay { w with responses := rest } at underWay
  constructor
  · rintro ⟨gameData, had, unchanged⟩
    have copy : RecordsKept.CopyChanged w { w with responses := rest } strInviter gameData
        (.addToFriendList strInvitee) :=
      ⟨rfl, fun _ _ => rfl, had, by rw [unchanged]; exact had, Or.inr unchanged⟩
    exact kept.landed copy rfl underWay
  · intro gameData had fresh
    let v : LogicWorld := { w with responses := rest }
    let added : UserObject := (UserObject.new gameData).change (.addToFriendList strInvitee)
    have copy := saveCopy (w := v) had fresh
    have copied : RecordsKept.CopyChanged w (v.saveUserData strInviter added) strInviter gameData
        (.addToFriendList strInvitee) := ⟨copy.pool, copy.others, copy.had, copy.now, copy.fresh⟩
    apply kept.landed copied rfl
    rw [underWay_save v strInviter rfl]
    exact underWay

theorem onRedisCallback_keeps {v : LogicWorld} {nUserId : String} {handle : String → LogicWorld → Handled}
    (idle : v.callbackUser nUserId = none → RecordsKept stored none v)
    (runs : (v.callbackUser nUserId).isSome →
      ∀ strUserId, RecordsKept stored none (handle strUserId v).answered) :
    RecordsKept stored none (v.onRedisCallback nUserId handle) := by
  rcases onRedisCallback_cases v nUserId handle with ⟨none, nothing⟩ | ⟨strUserId, some, done⟩
  · rw [nothing]
    exact idle none
  · rw [done]
    exact ((runs (Option.isSome_iff_exists.mpr ⟨strUserId, some⟩) strUserId).serve strUserId).commit

theorem onRedisRespone_keeps (kept : RecordsKept stored none w) (next : w.responses = response :: rest)
    (guard : LogicGuard w .deliver) {v : LogicWorld} (taken : v = { w with responses := rest }) :
    RecordsKept stored none (v.onRedisRespone response) := by
  have guarded := guard response (by rw [next]; rfl)
  have sameUser : v.callbackUser response.get.nUserId = w.callbackUser response.get.nUserId := by
    rw [taken]
    rfl
  unfold LogicWorld.onRedisRespone
  cases event : response.get.event with
  | logicGetGameData =>
      rw [event] at guarded
      have keep := keep_next kept next (by rw [promiseOf, event])
      rw [← taken] at keep
      cases reply : response.reply with
      | none => exact keep
      | some gameData =>
          apply load_keeps keep
          rw [taken]
          exact guarded gameData reply
  | addFriendGetGameData =>
      rw [event] at guarded
      have keep := keep_next kept next (by rw [promiseOf, event])
      rw [← taken] at keep
      apply onRedisCallback_keeps
      · intro _
        exact keep
      · intro runs _
        apply onAddFriendGameData_keeps keep
        rw [taken]
        exact guarded (sameUser ▸ runs)
  | getFriendInviterData =>
      rw [event] at guarded
      obtain ⟨whenRuns, lands⟩ := guarded
      obtain ⟨skipped, copied⟩ := promise_keeps kept next taken (by rw [promiseOf, event])
      apply onRedisCallback_keeps
      · intro idle
        apply skipped
        apply lands.resolve_left
        rw [← sameUser, idle]
        simp
      · intro runs _
        have fits := whenRuns (sameUser ▸ runs)
        cases reply : response.reply with
        | none =>
            apply skipped
            apply lands.resolve_left
            rw [reply]
            simp
        | some gameData => exact copied gameData (fits gameData reply).1 (fits gameData reply).2

end Responses

/-! ## Runs

The steps that meet the condition keep the records, and at rest all acknowledged changes are stored.
-/

theorem written_execute (w : LogicWorld) : w.execute.written = w.written := by
  unfold LogicWorld.execute LogicWorld.written
  cases commands : w.users.commands with
  | nil => rw [commands]
  | cons command rest => cases command <;> rfl

/-- A response to a promise is under way like the question for it. -/
theorem underWay_execute (w : LogicWorld) : w.execute.underWay = w.underWay := by
  unfold LogicWorld.execute LogicWorld.underWay
  cases commands : w.users.commands with
  | nil => rw [commands]
  | cons command rest =>
      cases command with
      | getValue get => cases promise : promiseOf get <;> simp [promiseOfCommand, promise]
      | setValue strKey gameData => simp [List.filterMap_cons, promiseOfCommand]

theorem execute_keeps {stored : String → Option UserRecord} {w : LogicWorld}
    (kept : RecordsKept stored none w) : RecordsKept stored none w.execute := by
  have written := written_execute w
  have underWay := underWay_execute w
  have same : w.execute.users.userDataPool = w.users.userDataPool ∧ w.execute.acknowledged = w.acknowledged := by
    unfold LogicWorld.execute
    cases w.users.commands with
    | nil => exact ⟨rfl, rfl⟩
    | cons command rest => cases command <;> exact ⟨rfl, rfl⟩
  constructor
  · intro other objUser inPool
    rw [written]
    exact kept.saved other objUser (same.1 ▸ inPool)
  · intro other
    have live : w.execute.live other = w.live other := by
      rw [LogicWorld.live, LogicWorld.live, same.1, written]
    rw [live, underWay, same.2]
    exact kept.accounted other

/-- A user who goes leaves nothing unsaved. -/
theorem userDisconnect_keeps {stored : String → Option UserRecord} {w : LogicWorld}
    (kept : RecordsKept stored none w) (nHandlerId : LuaValue) :
    RecordsKept stored none (w.userDisconnect nHandlerId) := by
  unfold LogicWorld.userDisconnect
  cases w.net.userOfDisconnect nHandlerId with
  | none => exact kept
  | some found =>
      obtain ⟨_, nUserId⟩ := found
      let released : LogicWorld :=
        { w with
          net := w.net.onUserDisconnect nHandlerId
          users := w.users.releaseUserObject nUserId.tostring }
      have stays : ∀ other objUser, released.users.userDataPool other = some objUser →
          w.users.userDataPool other = some objUser := by
        intro other objUser inPool
        change Function.update w.users.userDataPool nUserId.tostring none other = some objUser at inPool
        by_cases same : other = nUserId.tostring
        · rw [same, Function.update_self] at inPool
          exact absurd inPool (by simp)
        · rw [Function.update_of_ne same] at inPool
          exact inPool
      refine ⟨fun other objUser inPool => kept.saved other objUser (stays other objUser inPool),
        fun other => ?_⟩
      have live : released.live other = w.live other := by
        rw [kept.live_eq other, LogicWorld.live]
        cases inPool : released.users.userDataPool other with
        | none => rfl
        | some objUser =>
            have written := kept.live_eq other
            rw [LogicWorld.live, stays other objUser inPool] at written
            exact written
      have before := kept.accounted other
      rw [← live] at before
      exact before

/-- One case for each action, by the lemmas above. -/
theorem logicStep_keeps (nFirstUserId : Int) {stored : String → Option UserRecord} {w : LogicWorld}
    {a : LogicAction} (kept : RecordsKept stored none w) (guard : LogicGuard w a) :
    RecordsKept stored none (logicStep nFirstUserId w a) := by
  cases a with
  | enterGame nHandlerId nUserId =>
      have updated : RecordsKept stored none
          { w with net := w.net.updateHandlerIdAndUserId nUserId nHandlerId } :=
        ⟨kept.saved, kept.accounted⟩
      simp only [logicStep, LogicWorld.onClientEnterHall]
      split
      · split
        · exact updated.ask rfl
        · exact updated
      · exact updated
  | profile nHandlerId handler => exact clientRequest_keeps (profile_keeps handler) nHandlerId kept
  | addFriend nHandlerId nUserId =>
      exact clientRequest_keeps (addFriend_keeps nFirstUserId nUserId) nHandlerId kept
  | passRequest nHandlerId nInviter =>
      exact clientRequest_keeps (passRequest_keeps nFirstUserId nInviter) nHandlerId kept
  | disconnect nHandlerId => exact userDisconnect_keeps kept nHandlerId
  | setUserGlobalId nUserGlobalId => exact ⟨kept.saved, kept.accounted⟩
  | execute => exact execute_keeps kept
  | deliver =>
      simp only [logicStep, LogicWorld.deliver]
      cases next : w.responses with
      | nil => exact kept
      | cons response rest => exact onRedisRespone_keeps kept next guard rfl

theorem recordsKept_init (nUserGlobalId : Int) (stored : String → Option UserRecord) :
    RecordsKept stored none (.init nUserGlobalId stored) := by
  constructor
  · intro other objUser inPool
    exact absurd inPool (by simp [LogicWorld.init, UserManager.ctor])
  · intro other
    exact Accounted.start (stored other)

/-- Records that are kept are complete when nothing is under way. -/
theorem RecordsKept.changesStored {stored : String → Option UserRecord} {w : LogicWorld}
    (kept : RecordsKept stored none w) : ChangesStored stored w := by
  intro noCommands noResponses strUserId
  have settled := kept.accounted strUserId
  have nothing : w.underWay = [] := by
    rw [LogicWorld.underWay, noCommands, noResponses]
    rfl
  rw [kept.live_eq, nothing] at settled
  obtain ⟨all, unknown⟩ := settled.settled
  rw [LogicWorld.written, noCommands] at all
  cases before : stored strUserId with
  | none => exact unknown before
  | some gameData =>
      rw [before] at all
      exact all

/-- **Acknowledged changes.** In every run whose steps meet the condition, no acknowledged change is lost. -/
theorem changesStored_of_guarded (wire : Wire) (nFirstUserId nUserGlobalId : Int)
    (stored : String → Option UserRecord) (actions : List LogicAction)
    (guarded : Guarded (always (textStep wire nFirstUserId)) (TextGuard wire) (.init nUserGlobalId stored) actions) :
    ChangesStored stored (actions.foldl (textStep wire nFirstUserId) (.init nUserGlobalId stored)) := by
  have run := runSteps_always (textStep wire nFirstUserId) (.init nUserGlobalId stored) actions
  have kept : RecordsKept stored none
      (actions.foldl (textStep wire nFirstUserId) (.init nUserGlobalId stored)) := by
    apply guarded_invariant _ (recordsKept_init nUserGlobalId stored) guarded run
    intro s a s' inv guard step
    cases step
    obtain ⟨same, guard⟩ := textStep_eq nFirstUserId guard
    rw [same]
    exact logicStep_keeps nFirstUserId inv guard
  exact kept.changesStored

/-- The users 7 and 8 are registered. -/
def twoUsers (strUserId : String) : Option UserRecord :=
  if strUserId = "7" ∨ strUserId = "8" then some .initial else none

/-- User 7 enters, changes his avatar and asks user 8, who is not there, to be his friend. -/
def friendRequestSaved : List LogicAction :=
  [.enterGame 1 (.number 7), .execute, .deliver, .profile 1 (updateAvatar (.number 3)),
    .addFriend 1 (.number 8), .execute, .execute, .deliver, .execute]

theorem changesStored_of_guarded_friendRequest :
    ChangesStored twoUsers (friendRequestSaved.foldl (textStep .plain 1) (.init 8 twoUsers)) := by
  apply changesStored_of_guarded
  apply Guarded.always_cons trivial
  apply Guarded.always_cons
  · intro command next
    cases next
    exact (by decide : NoNul "7")
  apply Guarded.always_cons
  · intro response next
    cases next
    intro gameData reply
    cases reply
    rfl
  apply Guarded.always_cons trivial
  apply Guarded.always_cons trivial
  apply Guarded.always_cons
  · intro command next
    cases next
    exact ⟨by decide, rfl⟩
  apply Guarded.always_cons
  · intro command next
    cases next
    exact (by decide : NoNul "8")
  apply Guarded.always_cons
  · intro response next
    cases next
    intro _ gameData reply
    cases reply
    exact ⟨rfl, Or.inl rfl⟩
  refine Guarded.always_cons ?_ trivial
  intro command next
  cases next
  exact ⟨by decide, rfl⟩

/-- User 7 enters twice; the second record that was read returns after he has changed his avatar, and he changes
his sex then. -/
def secondLoadLate : List LogicAction :=
  [.enterGame 1 (.number 7), .enterGame 1 (.number 7), .execute, .execute, .deliver,
    .profile 1 (updateAvatar (.number 3)), .deliver, .profile 1 (updateSex (.number 1)), .execute, .execute]

/-- His avatar is the old one. -/
theorem avatar_lost_after_second_load :
    ¬ ChangesStored twoUsers (secondLoadLate.foldl (textStep .plain 1) (.init 8 twoUsers)) := by
  intro stored
  have loaded := stored rfl rfl "7"
  have field := congrArg (Option.map (·.baseInfo "Avatar")) loaded
  exact absurd field (by decide +kernel)

end GameServer.Logic
