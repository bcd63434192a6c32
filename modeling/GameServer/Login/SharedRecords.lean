/-
Module: GameServer.Login.SharedRecords
Purpose: The records of registered users, which share the tables of the template.
Trusted boundary: none
Main exports: RegisterCall, registerAll, RecordsSeparate, recordsSeparate_iff, ownIds_iff
-/
import GameServer.Login.UserManager

namespace GameServer.Login

open Lib Lib.LuaM Script

variable (cfg : LoginConfig)

/-! ## Registrations

`Register` writes the new id into the template of accounts and into that of records, and makes one new table for each
user, whose fields are the templates.
-/

/-- A call of `Register` with valid parameters. -/
structure RegisterCall where
  nHandlerId : Int
  strDeviceId : String
  strIp : String

/-- The state after a registration. -/
def registerOne (s : LoginState) (c : RegisterCall) : LoginState :=
  (exec (register cfg c.nHandlerId [.string c.strDeviceId, .string c.strIp]) s).2

/-- The state after a list of registrations. -/
def registerAll (s : LoginState) (calls : List RegisterCall) : LoginState :=
  calls.foldl (registerOne cfg) s

/-- The login server, when it has learnt the global user id. -/
def LoginState.loaded (nUserGlobalId : Int) : LoginState :=
  { LoginState.ctor cfg with userGlobalId := some nUserGlobalId }

/-- The global user id after a registration. -/
def nextGlobalId (n : Int) : Int := globalIdOr (some (n + 1))

/-- Ids only grow. -/
theorem lt_nextGlobalId (n : Int) : n < nextGlobalId n := by
  unfold nextGlobalId globalIdOr userGlobalIdDefault
  simp only
  split <;> omega

/-- What a registration does: the new record is made of the tables of the template, which has the new
id. -/
structure RegisterSpec (s t : LoginState) (n : Int) (strDeviceId : String) : Prop where
  next : t.heap.next = s.heap.next + 1
  globalId : t.userGlobalId = some (nextGlobalId n)
  pool : t.userDataPool = Function.update s.userDataPool (LuaValue.number n).tostring (some s.heap.next)
  base : t.heap.read s.heap.next baseInfo = .table baseInfoTemplate
  friend : t.heap.read s.heap.next cfg.friendInfo = .table friendInfoTemplate
  templateId : t.heap.read baseInfoTemplate userIdField = .number n
  requests : t.toRedis = s.toRedis ++
    [.set .global 0 .none "UserGlobalId" (.number (nextGlobalId n)),
      .set .register 0 .none strDeviceId (.number n),
      .set .account 0 .none n.repr (.fields fun field => t.heap.read userInfoTemplate field),
      .set .gameData n .registering n.repr (.record (recordAt t.heap s.heap.next))]
  older : ∀ a field, friendInfoTemplate < a → a < s.heap.next → t.heap.read a field = s.heap.read a field
  registered : t.registered = s.registered ++ [⟨n, strDeviceId⟩]

section Init

variable {heap : TableHeap String LuaValue} (nUserId : LuaValue) (strDeviceId strIp : String)

theorem read_initUser_id : (initUser heap nUserId strDeviceId strIp).read userInfoTemplate userIdField =
    nUserId := by
  simp [initUser, TableHeap.read_write_of_ne, userIdField, registerIpField, deviceIdField]

theorem read_initUser_of_ne {address : Nat} (other : address ≠ userInfoTemplate) (field : String) :
    (initUser heap nUserId strDeviceId strIp).read address field = heap.read address field := by
  unfold initUser
  rw [TableHeap.read_write_of_ne _ _ (Or.inl other), TableHeap.read_write_of_ne _ _ (Or.inl other),
    TableHeap.read_write_of_ne _ _ (Or.inl other)]

@[simp] theorem next_initUser : (initUser heap nUserId strDeviceId strIp).next = heap.next := rfl

@[simp] theorem next_initGameData : (initGameData cfg heap nUserId).next = heap.next + 1 := rfl

theorem read_initGameData_base :
    (initGameData cfg heap nUserId).read heap.next baseInfo = .table baseInfoTemplate := by
  unfold initGameData
  rw [TableHeap.read_write_of_ne _ _ (Or.inr (Ne.symm cfg.friendInfo_ne)), TableHeap.read_write_self]

theorem read_initGameData_friend :
    (initGameData cfg heap nUserId).read heap.next cfg.friendInfo = .table friendInfoTemplate := by
  unfold initGameData
  rw [TableHeap.read_write_self]

theorem read_initGameData_id (made : friendInfoTemplate < heap.next) :
    (initGameData cfg heap nUserId).read baseInfoTemplate userIdField = nUserId := by
  have other : baseInfoTemplate ≠ heap.next :=
    Nat.ne_of_lt (Nat.lt_trans (by decide : baseInfoTemplate < friendInfoTemplate) made)
  unfold initGameData
  rw [TableHeap.read_write_of_ne _ _ (Or.inl other), TableHeap.read_write_of_ne _ _ (Or.inl other),
    TableHeap.read_write_self]

theorem read_initGameData_older {address : Nat} (notTemplate : friendInfoTemplate < address)
    (older : address < heap.next) (field : String) :
    (initGameData cfg heap nUserId).read address field = heap.read address field := by
  have notNew : address ≠ heap.next := Nat.ne_of_lt older
  have notBase : address ≠ baseInfoTemplate :=
    Nat.ne_of_gt (Nat.lt_trans (by decide : baseInfoTemplate < friendInfoTemplate) notTemplate)
  unfold initGameData
  rw [TableHeap.read_write_of_ne _ _ (Or.inl notNew), TableHeap.read_write_of_ne _ _ (Or.inl notNew),
    TableHeap.read_write_of_ne _ _ (Or.inl notBase), TableHeap.read_alloc_of_lt _ _ older]

end Init

/-- With the global user id known, a registration with valid parameters returns. -/
theorem register_returns {s : LoginState} {n : Int} (known : s.userGlobalId = some n)
    (made : friendInfoTemplate < s.heap.next) (nHandlerId : Int) (strDeviceId strIp : String) :
    wp (register cfg nHandlerId [.string strDeviceId, .string strIp])
      (fun nErrorCode t => nErrorCode = .userRegistering ∧ RegisterSpec cfg s t n strDeviceId ∧
        t.net = s.net.registerProcess (.number n) nHandlerId ∧ t.toGateway = s.toGateway ∧
        t.toLogic = s.toLogic ++ [n + 1])
      (fun _ => False) s := by
  simp only [register, getInitUser, getInitGameData, wp_bind, wp_get, wp_modify, wp_pure, known,
    registerProcess, cacheUserObject, read_initUser_id, next_initUser]
  generalize initEq : initUser s.heap (.number n) strDeviceId strIp = heap
  have next : heap.next = s.heap.next := by rw [← initEq, next_initUser]
  have base : (initGameData cfg heap (.number n)).read heap.next baseInfo = .table baseInfoTemplate :=
    read_initGameData_base cfg (.number n)
  have friend : (initGameData cfg heap (.number n)).read heap.next cfg.friendInfo =
      .table friendInfoTemplate := read_initGameData_friend cfg (.number n)
  have id := read_initGameData_id cfg (.number n) (next ▸ made : friendInfoTemplate < heap.next)
  have older := fun address field (notTemplate : friendInfoTemplate < address)
    (before : address < s.heap.next) =>
      (read_initGameData_older cfg (.number n) notTemplate (next ▸ before) field).trans
        (initEq ▸ read_initUser_of_ne (.number n) strDeviceId strIp
          (Nat.ne_of_gt (Nat.lt_trans (by decide : userInfoTemplate < friendInfoTemplate) notTemplate)) field)
  rw [next] at base friend
  have table : tableOf (initGameData cfg heap (.number n)) s.heap.next baseInfo = some baseInfoTemplate := by
    rw [tableOf, base]
  simp only [table, wp_modify, incrementGlobalUserId, wp_bind, wp_get, setUserGlobalId, toRedis,
    Bool.not_false, if_true, id]
  refine ⟨trivial, ⟨congrArg (· + 1) next, rfl, rfl, base, friend, id, ?_, older, rfl⟩, trivial, trivial, trivial⟩
  simp [nextGlobalId]

theorem register_spec {s : LoginState} {n : Int} (known : s.userGlobalId = some n)
    (made : friendInfoTemplate < s.heap.next) (nHandlerId : Int) (strDeviceId strIp : String) :
    wp (register cfg nHandlerId [.string strDeviceId, .string strIp])
      (fun _ t => RegisterSpec cfg s t n strDeviceId) (fun t => RegisterSpec cfg s t n strDeviceId) s :=
  wp_mono (register_returns cfg known made nHandlerId strDeviceId strIp) (fun _ _ spec => spec.2.1)
    fun _ never => never.elim

/-- What a registration that does not raise leaves behind. -/
theorem registerOne_spec {s : LoginState} {n : Int} (known : s.userGlobalId = some n)
    (made : friendInfoTemplate < s.heap.next) (c : RegisterCall) :
    RegisterSpec cfg s (registerOne cfg s c) n c.strDeviceId := by
  have spec := register_spec cfg known made c.nHandlerId c.strDeviceId c.strIp
  exact wp_same.mp spec

/-! ## Shared tables

So the records of all users share their tables, and these have the id of the user who was registered last.
-/

/-- Changing a field of a user's record. -/
def LoginState.setField (s : LoginState) (nUserId : Int) (strTable field : String) (value : LuaValue) :
    LoginState :=
  match s.getUserObject nUserId with
  | none => s
  | some gameData =>
      match tableOf s.heap gameData strTable with
      | none => s
      | some address => { s with heap := s.heap.write address field value }

/-- A user's record. -/
def LoginState.recordOf (s : LoginState) (nUserId : Int) (strTable field : String) : LuaValue :=
  match s.getUserObject nUserId with
  | none => .nil
  | some gameData => recordAt s.heap gameData strTable field

/-- `DATABASE_TABLE_FIELD`. -/
def LoginState.template (s : LoginState) (field : String) : LuaValue × LuaValue × LuaValue :=
  (s.heap.read userInfoTemplate field, s.heap.read baseInfoTemplate field,
    s.heap.read friendInfoTemplate field)

/-- Every registered user has an object with his id. -/
def OwnIds (s : LoginState) : Prop :=
  ∀ r ∈ s.registered, ∃ gameData, s.getUserObject r.nUserId = some gameData ∧
    userIdOf s.heap gameData = .number r.nUserId

/-- Registered users own separate records: each has his id, and a change of a field of one leaves those of
the others and the template as they are. -/
structure RecordsSeparate (s : LoginState) : Prop where
  own : OwnIds s
  others : ∀ r ∈ s.registered, ∀ other ∈ s.registered, other.nUserId ≠ r.nUserId →
    ∀ strTable field value,
      (s.setField r.nUserId strTable field value).recordOf other.nUserId = s.recordOf other.nUserId
  template : ∀ r ∈ s.registered, ∀ strTable field value,
    (s.setField r.nUserId strTable field value).template = s.template

/-- What holds between registrations: the records of all users are made of the tables of the template,
which has the id of the user registered last. -/
structure SharedTables (s : LoginState) : Prop where
  known : s.userGlobalId ≠ none
  made : friendInfoTemplate < s.heap.next
  shared : ∀ r ∈ s.registered, ∃ gameData, s.getUserObject r.nUserId = some gameData ∧
    friendInfoTemplate < gameData ∧ gameData < s.heap.next ∧
    s.heap.read gameData baseInfo = .table baseInfoTemplate
  last : ∀ r, s.registered.getLast? = some r →
    s.heap.read baseInfoTemplate userIdField = .number r.nUserId ∧
      s.userGlobalId = some (nextGlobalId r.nUserId)

/-- At the start there are no users. -/
theorem sharedTables_loaded (nUserGlobalId : Int) : SharedTables (.loaded cfg nUserGlobalId) where
  known := by simp [LoginState.loaded]
  made := Nat.lt_succ_self _
  shared _ member := absurd member List.not_mem_nil
  last _ none := absurd none (by simp [LoginState.loaded, LoginState.ctor])

/-- A registration gives its user the next id, and keeps the tables shared. -/
theorem SharedTables.registerOne {s : LoginState} (inv : SharedTables s) (c : RegisterCall) :
    SharedTables (registerOne cfg s c) ∧
      ∃ n, s.userGlobalId = some n ∧ (registerOne cfg s c).registered = s.registered ++ [⟨n, c.strDeviceId⟩] := by
  obtain ⟨n, known⟩ := Option.ne_none_iff_exists'.mp inv.known
  have spec := registerOne_spec cfg known inv.made c
  refine ⟨⟨?_, ?_, ?_, ?_⟩, n, known, spec.registered⟩
  · rw [spec.globalId]
    exact Option.some_ne_none _
  · rw [spec.next]
    exact Nat.lt_succ_of_lt inv.made
  · intro r member
    unfold LoginState.getUserObject
    rw [spec.pool, spec.next]
    by_cases same : (LuaValue.number r.nUserId).tostring = (LuaValue.number n).tostring
    · rw [same, Function.update_self]
      exact ⟨s.heap.next, rfl, inv.made, Nat.lt_succ_self _, spec.base⟩
    · rw [Function.update_of_ne same]
      have before : r ∈ s.registered := by
        rw [spec.registered] at member
        rcases List.mem_append.mp member with before | new
        · exact before
        · rw [List.mem_singleton.mp new] at same
          exact absurd rfl same
      obtain ⟨gameData, found, notTemplate, older, base⟩ := inv.shared r before
      exact ⟨gameData, found, notTemplate, Nat.lt_succ_of_lt older,
        (spec.older gameData baseInfo notTemplate older).trans base⟩
  · intro r last
    rw [spec.registered, List.getLast?_append_of_ne_nil _ (List.cons_ne_nil _ _)] at last
    cases last
    exact ⟨spec.templateId, spec.globalId⟩

/-- By induction on the list of registrations. -/
theorem registerAll_spec (calls : List RegisterCall) {s : LoginState} (inv : SharedTables s) :
    SharedTables (registerAll cfg s calls) ∧
      (registerAll cfg s calls).registered.length = s.registered.length + calls.length := by
  induction calls generalizing s with
  | nil => exact ⟨inv, rfl⟩
  | cons c calls ih =>
      obtain ⟨next, n, -, registered⟩ := inv.registerOne cfg c
      obtain ⟨shared, length⟩ := ih next
      refine ⟨shared, length.trans ?_⟩
      rw [registered, List.length_append, List.length_singleton, List.length_cons]
      omega

/-- A change of a user's record is a change of the template. -/
theorem SharedTables.template_changes {s : LoginState} (inv : SharedTables s) {r : Registered}
    (member : r ∈ s.registered) (field : String) (value : LuaValue) :
    (s.setField r.nUserId baseInfo field value).heap.read baseInfoTemplate field = value := by
  obtain ⟨gameData, found, -, -, base⟩ := inv.shared r member
  have table : tableOf s.heap gameData baseInfo = some baseInfoTemplate := by
    rw [tableOf, base]
  unfold LoginState.setField
  simp only [found, table, TableHeap.read_write_self]

/-- As soon as somebody is registered, records are not separate. -/
theorem SharedTables.not_separate {s : LoginState} (inv : SharedTables s) {r : Registered}
    (member : r ∈ s.registered) : ¬ RecordsSeparate s := by
  intro separate
  have unchanged := fun value => congrFun (separate.template r member baseInfo userIdField value) userIdField
  have changed := fun value => inv.template_changes member userIdField value
  have written : ∀ value, s.heap.read baseInfoTemplate userIdField = value := by
    intro value
    rw [← changed value]
    exact (congrArg (fun x => x.2.1) (unchanged value)).symm
  exact absurd ((written .nil).symm.trans (written (.boolean true))) (by simp)

/-- Registered users own separate records only as long as there are none. -/
theorem recordsSeparate_iff (nUserGlobalId : Int) (calls : List RegisterCall) :
    RecordsSeparate (registerAll cfg (.loaded cfg nUserGlobalId) calls) ↔ calls = [] := by
  obtain ⟨inv, length⟩ := registerAll_spec cfg calls (sharedTables_loaded cfg nUserGlobalId)
  constructor
  · intro separate
    by_contra called
    have some : 0 < (registerAll cfg (.loaded cfg nUserGlobalId) calls).registered.length := by
      rw [length]
      exact Nat.lt_of_lt_of_le (List.length_pos_of_ne_nil called) (Nat.le_add_left _ _)
    obtain ⟨r, member⟩ := List.exists_mem_of_length_pos some
    exact inv.not_separate member separate
  · intro none
    subst none
    constructor <;> intro r member <;> exact absurd member List.not_mem_nil

/-- Every user's object has the id that stands in the template. -/
theorem SharedTables.ownIds_iff {s : LoginState} (inv : SharedTables s) :
    OwnIds s ↔ ∀ r ∈ s.registered, s.heap.read baseInfoTemplate userIdField = .number r.nUserId := by
  have idOf : ∀ r ∈ s.registered, ∃ gameData, s.getUserObject r.nUserId = some gameData ∧
      userIdOf s.heap gameData = s.heap.read baseInfoTemplate userIdField := by
    intro r member
    obtain ⟨gameData, found, -, -, base⟩ := inv.shared r member
    exact ⟨gameData, found, by rw [userIdOf, recordAt, tableOf, base]⟩
  constructor
  · intro own r member
    obtain ⟨gameData, found, id⟩ := own r member
    obtain ⟨gameData', found', id'⟩ := idOf r member
    cases found.symm.trans found'
    exact id'.symm.trans id
  · intro template r member
    obtain ⟨gameData, found, id⟩ := idOf r member
    exact ⟨gameData, found, id.trans (template r member)⟩

/-- The objects of registered users have their own ids only up to the second registration. -/
theorem ownIds_registerAll_iff (nUserGlobalId : Int) (calls : List RegisterCall) :
    OwnIds (registerAll cfg (.loaded cfg nUserGlobalId) calls) ↔ calls.length ≤ 1 := by
  rcases List.eq_nil_or_concat calls with rfl | ⟨calls, c, rfl⟩
  · simp [OwnIds, registerAll, LoginState.loaded, LoginState.ctor]
  · obtain ⟨before, length⟩ := registerAll_spec cfg calls (sharedTables_loaded cfg nUserGlobalId)
    obtain ⟨after, n, known, registered⟩ := before.registerOne cfg c
    have split : registerAll cfg (.loaded cfg nUserGlobalId) (calls.concat c) =
        registerOne cfg (registerAll cfg (.loaded cfg nUserGlobalId) calls) c := by
      rw [registerAll, List.concat_eq_append, List.foldl_append]
      rfl
    have newest : (registerOne cfg (registerAll cfg (.loaded cfg nUserGlobalId) calls) c).heap.read
        baseInfoTemplate userIdField = .number n := by
      apply (after.last ⟨n, c.strDeviceId⟩ _).1
      rw [registered, List.getLast?_append_of_ne_nil _ (List.cons_ne_nil _ _)]
      rfl
    rw [split, after.ownIds_iff, newest, registered, List.length_concat]
    constructor
    · intro all
      by_contra long
      have some : (registerAll cfg (.loaded cfg nUserGlobalId) calls).registered ≠ [] := by
        intro none
        rw [none] at length
        simp only [List.length_nil, LoginState.loaded, LoginState.ctor] at length
        omega
      -- the user registered before the last one has another id
      obtain ⟨r, last⟩ := Option.isSome_iff_exists.mp (List.getLast?_isSome.mpr some)
      have sameId := all r (List.mem_append_left _ (List.mem_of_getLast? last))
      have next := (before.last r last).2
      rw [known] at next
      rw [LuaValue.number.injEq, Option.some.inj next] at sameId
      exact absurd sameId (Ne.symm (Int.ne_of_lt (lt_nextGlobalId _)))
    · intro short r member
      have none : calls = [] := List.length_eq_zero_iff.mp (by omega)
      subst none
      simp only [registerAll, List.foldl_nil, LoginState.loaded, LoginState.ctor, List.nil_append,
        List.mem_singleton] at member
      rw [member]

/-- The fields of `share/database_def.lua`, and an empty table of friends. -/
def guestConfig : LoginConfig where
  friendInfo := "FriendInfo"
  friendInfo_ne := by decide
  userInfoFields
    | "UserId" => .number 0
    | "DeviceId" => .string ""
    | "RegisterIp" => .string ""
    | _ => .nil
  baseInfoFields
    | "UserId" => .number 0
    | "Avatar" => .number 0
    | "Sex" => .number 0
    | "Name" => .string "Guest"
    | "Diamond" => .number 0
    | "Gold" => .number 5000
    | "Balance" => .number 0
    | "PhoneNo" => .string ""
    | "Signature" => .string ""
    | "AvatarUrl" => .string ""
    | "RoomCard" => .number 0
    | "InviterId" => .number 0
    | _ => .nil
  friendInfoFields _ := .nil

/-- The second of two users takes the id of the first one's object away. -/
theorem first_of_two_loses_id : ¬ RecordsSeparate
    (registerAll guestConfig (.loaded guestConfig 100001)
      [⟨7, "A", "10.0.0.1"⟩, ⟨8, "B", "10.0.0.2"⟩]) := by
  intro separate
  have two := (ownIds_registerAll_iff guestConfig 100001 _).mp separate.own
  exact absurd two (by decide)

end GameServer.Login
