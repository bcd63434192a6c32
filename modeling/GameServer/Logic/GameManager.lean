/-
Module: GameServer.Logic.GameManager
Purpose: Admission to the rooms of games: `CheckCondition` beside what the configuration admits.
Trusted boundary: the class of the configuration is not in the repository: `GetConfig` reads its tables, and
  `GetGameTypeConfig` answers with a row that has the asked type in its field, or nil when there is none; ids and
  bounds are numbers, and so is the user's gold
Main exports: GameConfig, checkCondition, clientEnterRoom, Admitted, AnswersRight, checkCondition_right_iff
-/
import GameServer.Logic.Profiles

namespace GameServer.Logic.GameManager

open Lib LuaNumber
open Profiles (Argument)

/-! ## The configuration

The tables of the configuration and the functions of `game_manager.lua` that read them.
-/

/-- The entry of a key; NaN is no key. -/
def lookup {α : Type} (table : List (LuaNumber × α)) (key : LuaNumber) : Option α :=
  (table.find? fun entry => entry.1.eq key).map Prod.snd

/-- A row of `GAME_TYPE`: its fields `GAME_TYPE` and `ID`. -/
structure GameTypeRow where
  nGameType : Option LuaNumber
  nGameId : LuaNumber
deriving DecidableEq

/-- A room of `GAME_LIST`: `ENTER_MIN` and `ENTER_MAX`. -/
structure RoomRow where
  nMin : LuaNumber
  nMax : LuaNumber
deriving DecidableEq

/-- The rows of game types, and the rooms of each game id. -/
structure GameConfig where
  gameTypes : List GameTypeRow
  gameList : List (LuaNumber × List (LuaNumber × RoomRow))
  getGameTypeConfig : LuaNumber → Option GameTypeRow
  ofType : ∀ nGameType row, getGameTypeConfig nGameType = some row →
    row ∈ gameTypes ∧ ∃ n, row.nGameType = some n ∧ n.eq nGameType = true
  noneOfType : ∀ nGameType, getGameTypeConfig nGameType = none →
    ∀ row ∈ gameTypes, ∀ n, row.nGameType = some n → n.eq nGameType = false

/-- The codes of `CheckCondition`. -/
inductive AdmissionCode where
  | ok
  | unknownError
  | paramterError
  | gameTypeIsClose
  | gameRoomDoesNotExist
  | goldIsOutOfRange
deriving Repr, DecidableEq

section Check

variable (config : GameConfig)

/-- `GetConfig(GAME_LIST, nGameId, nRoomId)`. -/
def GameConfig.room (nGameId nRoomId : LuaNumber) : Option RoomRow :=
  (lookup config.gameList nGameId).bind fun rooms => lookup rooms nRoomId

/-- The comparison at the end of `CheckGoldIsEnough`. -/
def isEnough (nUserGold nMin nMax : LuaNumber) : Bool :=
  if nMin.le nUserGold then nMax.eq (.finite (-1)) || nUserGold.lt nMax else false

/-- `CheckGoldIsEnough`; indexing nil is an error. -/
def checkGoldIsEnough (nUserGold nGameType nRoomId : LuaNumber) : Except Unit Bool :=
  match config.getGameTypeConfig nGameType with
  | none => .error ()
  | some tbConfig =>
      match config.room tbConfig.nGameId nRoomId with
      | none => .error ()
      | some nRoomConfig => .ok (isEnough nUserGold nRoomConfig.nMin nRoomConfig.nMax)

/-- `IsGameTypeOpen`, which does not look at the type. -/
def isGameTypeOpen (_nGameType : LuaNumber) : Bool := config.gameTypes.any fun tbTemp => tbTemp.nGameType.isSome

/-- `IsGameRoomOpen`. -/
def isGameRoomOpen (nRoomId : LuaNumber) : Bool := config.gameList.any fun game => (lookup game.2 nRoomId).isSome

/-- `CheckCondition`; of the object only the gold is read. -/
def checkCondition (objUser : Option LuaNumber) (nGameType nRoomId : Argument) : Except Unit AdmissionCode :=
  match objUser with
  | none => .ok .unknownError
  | some nUserGold =>
      match nGameType, nRoomId with
      | .number nGameType, .number nRoomId =>
          if !isGameTypeOpen config nGameType then .ok .gameTypeIsClose
          else if !isGameRoomOpen config nRoomId then .ok .gameRoomDoesNotExist
          else
            match checkGoldIsEnough config nUserGold nGameType nRoomId with
            | .error _ => .error ()
            | .ok bIsEnough => if !bIsEnough then .ok .goldIsOutOfRange else .ok .ok
      | _, _ => .ok .paramterError

/-- What `ClientEnterRoom` answers: a code, or that the request goes on to the room server. -/
inductive EnterAnswer where
  | refused (nErrorCode : AdmissionCode)
  | logicToRoomServer (nGameType nRoomId : Argument)
deriving DecidableEq

/-- `EnterGame`. -/
def enterGame (objUser : Option LuaNumber) (nGameType nRoomId : Argument) : Except Unit EnterAnswer :=
  match checkCondition config objUser nGameType nRoomId with
  | .error _ => .error ()
  | .ok .ok => .ok (.logicToRoomServer nGameType nRoomId)
  | .ok nErrorCode => .ok (.refused nErrorCode)

/-- `ClientEnterRoom`. -/
def clientEnterRoom (objUser : Option LuaNumber) (nGameType nRoomId : Argument) : Except Unit EnterAnswer :=
  match nGameType, nRoomId with
  | .number _, .number _ => enterGame config objUser nGameType nRoomId
  | _, _ => .ok (.refused .paramterError)

/-! ## Admission

The check returns the right answer exactly where the scans for an open type and an open room suffice for the type that
was asked for.
-/

/-- The room of the game of the type. -/
def GameConfig.roomOfType (nGameType nRoomId : LuaNumber) : Option RoomRow :=
  (config.getGameTypeConfig nGameType).bind fun tbConfig => config.room tbConfig.nGameId nRoomId

/-- The type is configured, its game has the room, and the gold is in the range of the room. -/
def Admitted (nUserGold nGameType nRoomId : LuaNumber) : Prop :=
  ∃ tbConfig room, config.getGameTypeConfig nGameType = some tbConfig ∧
    config.room tbConfig.nGameId nRoomId = some room ∧ room.nMin.le nUserGold = true ∧
    (room.nMax = .finite (-1) ∨ nUserGold.lt room.nMax = true)

/-- The check returns, and with OK exactly when the configuration admits the user. -/
def AnswersRight (nUserGold nGameType nRoomId : LuaNumber) : Prop :=
  ∃ nErrorCode, checkCondition config (some nUserGold) (.number nGameType) (.number nRoomId) = .ok nErrorCode ∧
    (nErrorCode = .ok ↔ Admitted config nUserGold nGameType nRoomId)

/-- What the scans of the two tables let through is there: some row has a type and some game has the room only if the
asked type has its room. -/
def ScansSuffice (nGameType nRoomId : LuaNumber) : Prop :=
  (∃ row ∈ config.gameTypes, row.nGameType ≠ none) → (∃ game ∈ config.gameList, lookup game.2 nRoomId ≠ none) →
    ∃ room, config.roomOfType nGameType nRoomId = some room

/-- The gold is at least the minimum, and below the maximum where there is one. -/
theorem isEnough_iff (nUserGold nMin nMax : LuaNumber) :
    isEnough nUserGold nMin nMax = true ↔
      nMin.le nUserGold = true ∧ (nMax = .finite (-1) ∨ nUserGold.lt nMax = true) := by
  have unbounded : nMax.eq (.finite (-1)) = true ↔ nMax = .finite (-1) := by
    constructor
    · exact eq_of_eq
    · rintro rfl
      exact eq_same (by simp)
  unfold isEnough
  split
  next enough => rw [Bool.or_eq_true, unbounded, enough, eq_self, true_and]
  next few => simp [few]

/-- Any row with a type opens all types. -/
theorem isGameTypeOpen_iff (nGameType : LuaNumber) :
    isGameTypeOpen config nGameType = true ↔ ∃ row ∈ config.gameTypes, row.nGameType ≠ none := by
  simp [isGameTypeOpen, Option.isSome_iff_ne_none]

/-- A room of any game opens the room for all games. -/
theorem isGameRoomOpen_iff (nRoomId : LuaNumber) :
    isGameRoomOpen config nRoomId = true ↔ ∃ game ∈ config.gameList, lookup game.2 nRoomId ≠ none := by
  simp [isGameRoomOpen, Option.isSome_iff_ne_none]

variable {config}

/-- What is found is an entry. -/
theorem mem_of_lookup {α : Type} {table : List (LuaNumber × α)} {key : LuaNumber} {value : α}
    (found : lookup table key = some value) : ∃ entry ∈ table, entry.2 = value := by
  obtain ⟨entry, here, same⟩ := Option.map_eq_some_iff.mp found
  exact ⟨entry, List.mem_of_find?_eq_some here, same⟩

variable {nUserGold nGameType nRoomId : LuaNumber}

/-- The room of a type passes both scans. -/
theorem open_of_roomOfType {room : RoomRow} (found : config.roomOfType nGameType nRoomId = some room) :
    isGameTypeOpen config nGameType = true ∧ isGameRoomOpen config nRoomId = true := by
  obtain ⟨tbConfig, typed, ofGame⟩ := Option.bind_eq_some_iff.mp found
  obtain ⟨rooms, game, here⟩ := Option.bind_eq_some_iff.mp ofGame
  obtain ⟨member, n, hasType, -⟩ := config.ofType nGameType tbConfig typed
  obtain ⟨entry, inList, rfl⟩ := mem_of_lookup game
  constructor
  · exact (isGameTypeOpen_iff config nGameType).mpr ⟨tbConfig, member, by simp [hasType]⟩
  · exact (isGameRoomOpen_iff config nRoomId).mpr ⟨entry, inList, by simp [here]⟩

theorem roomOfType_of_admitted (admitted : Admitted config nUserGold nGameType nRoomId) :
    ∃ room, config.roomOfType nGameType nRoomId = some room := by
  obtain ⟨tbConfig, room, typed, here, -⟩ := admitted
  exact ⟨room, by rw [GameConfig.roomOfType, typed, Option.bind_some, here]⟩

/-- Where the room is there, the check is right. -/
theorem answersRight_of_room {room : RoomRow} (found : config.roomOfType nGameType nRoomId = some room) :
    AnswersRight config nUserGold nGameType nRoomId := by
  obtain ⟨typeOpen, roomOpen⟩ := open_of_roomOfType found
  obtain ⟨tbConfig, typed, here⟩ := Option.bind_eq_some_iff.mp found
  have admitted : Admitted config nUserGold nGameType nRoomId ↔ isEnough nUserGold room.nMin room.nMax = true := by
    rw [isEnough_iff]
    constructor
    · rintro ⟨other, otherRoom, otherTyped, otherHere, range⟩
      rw [typed] at otherTyped
      cases otherTyped
      rw [here] at otherHere
      cases otherHere
      exact range
    · exact fun range => ⟨tbConfig, room, typed, here, range⟩
  unfold AnswersRight
  simp only [checkCondition, typeOpen, roomOpen, Bool.not_true, Bool.false_eq_true, if_false, checkGoldIsEnough, typed,
    here]
  rw [admitted]
  cases isEnough nUserGold room.nMin room.nMax with
  | true => exact ⟨.ok, by simp⟩
  | false => exact ⟨.goldIsOutOfRange, by simp⟩

/-- Where it is not, and both scans find something else, the check raises. -/
theorem checkCondition_raises (typeOpen : isGameTypeOpen config nGameType = true)
    (roomOpen : isGameRoomOpen config nRoomId = true) (missing : config.roomOfType nGameType nRoomId = none) :
    checkCondition config (some nUserGold) (.number nGameType) (.number nRoomId) = .error () := by
  simp only [checkCondition, typeOpen, roomOpen, Bool.not_true, Bool.false_eq_true, if_false, checkGoldIsEnough]
  unfold GameConfig.roomOfType at missing
  cases typed : config.getGameTypeConfig nGameType with
  | none => rfl
  | some tbConfig =>
      rw [typed, Option.bind_some] at missing
      simp only [missing]

end Check

/-- **Admission.** For every configuration, gold, game type and room id, the check is right exactly when what passes its
two scans is there. -/
theorem checkCondition_right_iff (config : GameConfig) (nUserGold nGameType nRoomId : LuaNumber) :
    AnswersRight config nUserGold nGameType nRoomId ↔ ScansSuffice config nGameType nRoomId := by
  unfold ScansSuffice
  rw [← isGameTypeOpen_iff config nGameType, ← isGameRoomOpen_iff]
  cases found : config.roomOfType nGameType nRoomId with
  | some room =>
      have right : AnswersRight config nUserGold nGameType nRoomId := answersRight_of_room found
      simp [right]
  | none =>
      have notAdmitted : ¬ Admitted config nUserGold nGameType nRoomId := by
        intro admitted
        obtain ⟨room, here⟩ := roomOfType_of_admitted admitted
        rw [found] at here
        cases here
      constructor
      · rintro ⟨nErrorCode, returned, -⟩ typeOpen roomOpen
        rw [checkCondition_raises typeOpen roomOpen found] at returned
        cases returned
      · intro suffice
        cases typeOpen : isGameTypeOpen config nGameType with
        | false => exact ⟨.gameTypeIsClose, by simp [checkCondition, typeOpen], by simp [notAdmitted]⟩
        | true =>
            cases roomOpen : isGameRoomOpen config nRoomId with
            | false => exact ⟨.gameRoomDoesNotExist, by simp [checkCondition, typeOpen, roomOpen], by simp [notAdmitted]⟩
            | true =>
                obtain ⟨room, here⟩ := suffice typeOpen roomOpen
                cases here

/-- A request goes on to the room server exactly when the check returns OK. -/
theorem clientEnterRoom_iff (config : GameConfig) (objUser : Option LuaNumber) (nGameType nRoomId : Argument) :
    clientEnterRoom config objUser nGameType nRoomId = .ok (.logicToRoomServer nGameType nRoomId) ↔
      checkCondition config objUser nGameType nRoomId = .ok .ok := by
  have byCheck : enterGame config objUser nGameType nRoomId = .ok (.logicToRoomServer nGameType nRoomId) ↔
      checkCondition config objUser nGameType nRoomId = .ok .ok := by
    unfold enterGame
    split <;> simp_all
  unfold clientEnterRoom
  split
  · exact byCheck
  next notNumbers =>
    unfold checkCondition
    cases objUser with
    | none => simp
    | some nUserGold =>
        cases nGameType <;> cases nRoomId <;> simp_all

/-- One game of the type 1 with the room 1. -/
def oneRoom : GameConfig where
  gameTypes := [⟨some 1, 1⟩]
  gameList := [(1, [(1, ⟨50, 1000⟩)])]
  getGameTypeConfig nGameType := if (1 : LuaNumber).eq nGameType then some ⟨some 1, 1⟩ else none
  ofType nGameType row found := by
    obtain ⟨same, row⟩ := Option.ite_none_right_eq_some.mp found
    cases row
    exact ⟨List.mem_singleton_self _, 1, rfl, same⟩
  noneOfType nGameType missing row member n typed := by
    rw [List.mem_singleton.mp member] at typed
    cases typed
    simpa using missing

/-- Type 2 is not configured, and the check raises. -/
theorem not_answersRight_otherType : ¬ ∀ config nUserGold nGameType nRoomId,
    AnswersRight config nUserGold nGameType nRoomId := by
  intro all
  obtain ⟨nErrorCode, returned, -⟩ := all oneRoom 100 2 1
  have raises : checkCondition oneRoom (some 100) (.number 2) (.number 1) = .error () :=
    checkCondition_raises (by decide) (by decide) (by decide)
  rw [raises] at returned
  cases returned

end GameServer.Logic.GameManager
