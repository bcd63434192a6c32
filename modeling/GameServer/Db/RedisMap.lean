/-
Module: GameServer.Db.RedisMap
Purpose: `RedisInterface` seen as a map from tables and keys to strings: what every call answers, and which
  calls it is true of.
Trusted boundary: Redis is empty at the beginning, and its worker executes calls in the order they are made
Main exports: serve, Contents, BehavesAsMap, Plain, behavesAsMap
-/
import GameServer.Db.RedisInterface
import GameServer.Lib.Runs

namespace GameServer.Db

open Lib
open Login (DbTable)

variable {ν τ : Type} (text : LuaText ν τ)

/-! ## Calls that are served

One call at a time: the request, the command, the response, and what the script gets.
-/

/-- What became of a call: the command that Redis executed and what the scripts got back. -/
structure Served where
  async : AsyncManager
  store : Store
  command : Option RedisCommand
  answer : Option ResponseData

/-- The Redis worker takes a request. -/
def serveRequest (async : AsyncManager) (store : Store) (request : Request) : Served :=
  match onRequest request with
  | some command =>
      { async := async
        store := (redis store command).1
        command := some command
        answer := (generateRespond request.head (redis store command).2).bind onDBResponse }
  | none => ⟨async, store, none, none⟩

/-- A call from the script to Redis and back.  When the process ends, nothing comes back. -/
def serve (async : AsyncManager) (store : Store) (c : DbCall ν τ) : Served :=
  match c.issue text 0 async with
  | (async, some (.pushed request)) => serveRequest async store request
  | (async, _) => ⟨async, store, none, none⟩

/-! ## The map

What the scripts may expect: a table of values under keys, which every call reads or writes.
-/

/-- What every key of every table has.  Keys are as the wrappers convert them. -/
abbrev Contents := DbTable → Bytes → Option Bytes

def Contents.put (contents : Contents) (table : DbTable) (key : Bytes) (value : Option Bytes) : Contents :=
  fun table' key' => if table' = table ∧ key' = key then value else contents table' key'

/-- The map after a call. -/
def Contents.after (contents : Contents) (c : DbCall ν τ) : Contents :=
  match c.operation with
  | .set key value => contents.put c.table (key.convert text) (some (value.convert text))
  | .delete key => contents.put c.table (key.convert text) none
  | .get _ | .mget _ => contents

/-- The answer that a map gives to a reading call; a key that is not there has the empty string. -/
def Contents.expected (contents : Contents) (c : DbCall ν τ) : Option ResponseData :=
  match c.operation with
  | .get key => some (.text ((contents c.table (key.convert text)).getD []))
  | .mget (key :: keys) =>
      some (.mulData ((key :: keys).map fun key => (contents c.table (key.convert text)).getD []))
  | _ => none

/-- The map and the system after the same calls. -/
structure MapState where
  contents : Contents
  async : AsyncManager
  store : Store

def MapState.init : MapState where
  contents _ _ := none
  async := .ctor
  store _ := none

def mapStep (s : MapState) (c : DbCall ν τ) : MapState where
  contents := s.contents.after text c
  async := (serve text s.async s.store c).async
  store := (serve text s.async s.store c).store

/-- The call is executed by Redis, unless it asks for no keys, and it has the answer of the map. -/
structure Answered (s : MapState) (c : DbCall ν τ) : Prop where
  executed : c.operation ≠ .mget [] → (serve text s.async s.store c).command ≠ none
  answer : ∀ data ∈ s.contents.expected text c, (serve text s.async s.store c).answer = some data

/-- Every call of the run is answered. -/
def BehavesAsMap (calls : List (DbCall ν τ)) : Prop :=
  ∀ before c, before ++ [c] <+: calls → Answered text (before.foldl (mapStep text) .init) c

/-! ## Calls that are answered

The keys and values that pass through C and through the command of Redis unchanged.
-/

/-- The string goes through C unchanged, and has a length below the limit. -/
structure Transparent (s : Bytes) (limit : Nat) : Prop where
  noNul : (0 : UInt8) ∉ s
  short : s.length < limit

/-- Words with spaces between them. -/
def joinWords (words : List Bytes) : Bytes := [space].intercalate words

def storeKey (table : DbTable) (key : Bytes) : Bytes := tableName table ++ underlined :: key

/-- The keys of a `MGetValue` are no tables and are there, and neither spaces nor percent signs take them
apart (a percent sign at the very end does not). -/
structure PlainKeys (contents : Contents) (table : DbTable) (keys : List (LuaArg ν τ)) : Prop where
  present : ∀ key ∈ keys, contents table (key.tostring text) ≠ none
  noSpace : ∀ key ∈ keys, space ∉ key.tostring text
  noPercent : percent ∉ (joinWords (keys.map fun key => storeKey table (key.tostring text))).dropLast
  transparent : Transparent (joinWords (keys.map fun key => storeKey table (key.tostring text))) (2 ^ 32)

/-- The calls that are answered.  No `DeleteValue` is. -/
def Plain (s : MapState) (c : DbCall ν τ) : Prop :=
  match c.operation with
  | .set key value =>
      (∀ t, key ≠ .table t) ∧ Transparent (key.convert text) (2 ^ 32) ∧
        Transparent (value.convert text) (2 ^ 31)
  | .get key => Transparent (key.convert text) (2 ^ 32)
  | .delete _ => False
  | .mget keys => keys = [] ∨ PlainKeys text s.contents c.table keys

/-! ## Strings on their way

Each place on the way leaves a plain string as it is.
-/

theorem cString_eq {s : Bytes} (noNul : (0 : UInt8) ∉ s) : cString s = s := by
  apply List.takeWhile_eq_self_iff.mpr
  intro b member
  simp only [bne_iff_ne, ne_eq]
  intro zero
  exact noNul (zero ▸ member)

theorem formatString_eq {s : Bytes} (noNul : (0 : UInt8) ∉ s) : formatString s = s := by
  unfold formatString
  split
  · rfl
  · exact cString_eq noNul

theorem tableName_noNul (table : DbTable) : (0 : UInt8) ∉ tableName table := by
  cases table <;> decide

theorem tableName_length (table : DbTable) : (tableName table).length < 2 ^ 32 := by
  cases table <;> decide

/-- A key of one table is not a key of another. -/
theorem storeKey_inj {table table' : DbTable} {key key' : Bytes} :
    storeKey table key = storeKey table' key' ↔ table = table' ∧ key = key' := by
  constructor
  · intro same
    cases table <;> cases table' <;> simp_all [storeKey, tableName, ascii, underlined]
  · rintro ⟨rfl, rfl⟩
    rfl

/-- Without `%` before the end, a word is copied. -/
theorem formatCommand_word (word rest curarg : Bytes) (touched : Bool) (noSpace : space ∉ word)
    (noPercent : percent ∉ word) :
    formatCommand (word ++ rest) curarg touched =
      formatCommand rest (curarg ++ word) (touched || !word.isEmpty) := by
  induction word generalizing curarg touched with
  | nil => simp
  | cons c word ih =>
      have notSpace : c ≠ space := fun eq => noSpace (eq ▸ List.mem_cons_self)
      have notPercent : c ≠ percent := fun eq => noPercent (eq ▸ List.mem_cons_self)
      rw [List.cons_append, formatCommand_char (Or.inl notPercent) notSpace,
        ih _ _ (fun h => noSpace (List.mem_cons_of_mem _ h)) (fun h => noPercent (List.mem_cons_of_mem _ h))]
      simp

/-- The last word may end with `%`. -/
theorem formatCommand_last (word : Bytes) (nonempty : word ≠ []) (noSpace : space ∉ word)
    (noPercent : percent ∉ word.dropLast) : formatCommand word [] false = some [word] := by
  obtain ⟨front, c, rfl⟩ := List.eq_nil_or_concat word |>.resolve_left nonempty
  rw [List.concat_eq_append] at noSpace noPercent ⊢
  rw [List.dropLast_concat] at noPercent
  have notSpace : c ≠ space := fun eq => noSpace (eq ▸ List.mem_append_right _ List.mem_cons_self)
  rw [formatCommand_word front [c] [] false (fun h => noSpace (List.mem_append_left _ h)) noPercent,
    formatCommand_char (Or.inr rfl) notSpace]
  simp [formatCommand]

/-- Words that are joined by spaces are told apart again. -/
theorem formatCommand_joinWords (words : List Bytes) (nonempty : ∀ w ∈ words, w ≠ [])
    (noSpace : ∀ w ∈ words, space ∉ w) (noPercent : percent ∉ (joinWords words).dropLast) :
    formatCommand (joinWords words) [] false = some words := by
  induction words with
  | nil => rfl
  | cons word words ih =>
      cases words with
      | nil =>
          rw [joinWords, List.intercalate_singleton] at noPercent ⊢
          exact formatCommand_last word (nonempty word List.mem_cons_self) (noSpace word List.mem_cons_self)
            noPercent
      | cons next words =>
          have joined : joinWords (word :: next :: words) = word ++ space :: joinWords (next :: words) := by
            rw [joinWords, List.intercalate_cons_cons, List.append_assoc, List.singleton_append]
            rfl
          have rest : joinWords (next :: words) ≠ [] := by
            have nextNonempty := nonempty next (List.mem_cons_of_mem _ List.mem_cons_self)
            cases words <;> simp [joinWords, List.intercalate, List.intersperse, nextNonempty]
          have split : (word ++ space :: joinWords (next :: words)).dropLast =
              word ++ space :: (joinWords (next :: words)).dropLast := by
            rw [List.dropLast_append_of_ne_nil (List.cons_ne_nil _ _), List.dropLast_cons_of_ne_nil rest]
          rw [joined, split, List.mem_append, List.mem_cons] at noPercent
          have wordNonempty : word.isEmpty = false := by
            simpa using nonempty word List.mem_cons_self
          rw [joined, formatCommand_word word _ [] false (noSpace word List.mem_cons_self)
            (fun h => noPercent (Or.inl h)), wordNonempty, Bool.not_false, Bool.or_true, formatCommand_space,
            ih (fun w h => nonempty w (List.mem_cons_of_mem _ h))
              (fun w h => noSpace w (List.mem_cons_of_mem _ h)) fun h => noPercent (Or.inr (Or.inr h))]
          rfl

/-- Each word stands somewhere in the line. -/
theorem infix_joinWords {word : Bytes} {words : List Bytes} (member : word ∈ words) :
    word <:+: joinWords words := by
  induction words with
  | nil => exact absurd member List.not_mem_nil
  | cons first words ih =>
      cases words with
      | nil =>
          rw [List.mem_singleton.mp member, joinWords, List.intercalate_singleton]
      | cons next words =>
          rw [joinWords, List.intercalate_cons_cons, List.append_assoc]
          cases member with
          | head => exact (List.prefix_append _ _).isInfix
          | tail _ later =>
              exact (ih later).trans ((List.suffix_append _ _).trans (List.suffix_append _ _)).isInfix

/-- What the wrapper joins is what stands between the spaces. -/
theorem joinKeys_eq (table : DbTable) (keys : List (LuaArg ν τ))
    (noNul : ∀ key ∈ keys, (0 : UInt8) ∉ key.tostring text) :
    joinKeys text (tableName table) keys =
      joinWords (keys.map fun key => storeKey table (key.tostring text)) := by
  have formatTable : formatString (tableName table) = tableName table :=
    formatString_eq (tableName_noNul table)
  have word : ∀ key ∈ keys, formatString (tableName table) ++ underlined ::
      formatString (key.tostring text) = storeKey table (key.tostring text) := by
    intro key member
    rw [formatTable, formatString_eq (noNul key member)]
    rfl
  have wordNoNul : ∀ key ∈ keys, (0 : UInt8) ∉ storeKey table (key.tostring text) := by
    intro key member
    rw [storeKey, List.mem_append, List.mem_cons]
    rintro (inTable | under | inKey)
    · exact tableName_noNul table inTable
    · exact absurd under (by decide)
    · exact noNul key member inKey
  -- the loop puts the words behind what it has
  have loop : ∀ (rest : List (LuaArg ν τ)) (strKeys : Bytes), (0 : UInt8) ∉ strKeys →
      (∀ key ∈ rest, key ∈ keys) → moreKeys text (tableName table) strKeys rest =
        joinWords (strKeys :: rest.map fun key => storeKey table (key.tostring text)) := by
    intro rest
    induction rest with
    | nil =>
        intro strKeys _ _
        rw [moreKeys, List.map_nil, joinWords, List.intercalate_singleton]
    | cons key rest ih =>
        intro strKeys clean members
        have inKeys := members key List.mem_cons_self
        have next : formatString strKeys ++ space :: formatString (tableName table) ++
            underlined :: formatString (key.tostring text) =
              strKeys ++ space :: storeKey table (key.tostring text) := by
          rw [formatString_eq clean, List.append_assoc, List.cons_append, word key inKeys]
        have nextClean : (0 : UInt8) ∉ strKeys ++ space :: storeKey table (key.tostring text) := by
          rw [List.mem_append, List.mem_cons]
          rintro (before | sep | after)
          · exact clean before
          · exact absurd sep (by decide)
          · exact wordNoNul key inKeys after
        rw [moreKeys, next, ih _ nextClean fun k h => members k (List.mem_cons_of_mem _ h)]
        cases rest <;> simp [joinWords, List.intercalate_cons_cons]
  cases keys with
  | nil => rfl
  | cons key keys =>
      rw [joinKeys, word key List.mem_cons_self,
        loop keys _ (wordNoNul key List.mem_cons_self) fun k h => List.mem_cons_of_mem _ h]
      rfl

/-! ## What calls do

The command that Redis executes for each kind of call, and the value on its way back.
-/

theorem toCString_string {s : Bytes} (noNul : (0 : UInt8) ∉ s) :
    BindingArg.toCString text (.value (.string s)) = some s :=
  congrArg some (cString_eq noNul)

theorem toNat_tableName (table : DbTable) :
    (UInt32.ofNat (tableName table).length).toNat = (tableName table).length :=
  UInt32.toNat_ofNat_of_lt' (tableName_length table)

theorem toNat_length {s : Bytes} {limit : Nat} (clean : Transparent s limit) (below : limit ≤ 2 ^ 32) :
    (UInt32.ofNat s.length).toNat = s.length :=
  UInt32.toNat_ofNat_of_lt' (Nat.lt_of_lt_of_le clean.short below)

theorem length_storeKey (table : DbTable) (key : Bytes) :
    (tableName table).length + key.length + 1 = (storeKey table key).length := by
  simp [storeKey, Nat.add_assoc]

/-- The command of a written value. -/
theorem onRequest_set {table : DbTable} {key value : Bytes} (head fresh : RequestHead)
    (keyClean : Transparent key (2 ^ 32)) (valueClean : Transparent value (2 ^ 31)) :
    onRequest ((createSetBuffer fresh (tableName table) key value).withHead head) =
      some (.set (storeKey table key) value) := by
  have data : tableName table ++ underlined :: key ++ value = storeKey table key ++ value := rfl
  simp only [createSetBuffer, Request.withHead, onRequest, toNat_tableName,
    toNat_length keyClean (Nat.le_refl _), toNat_length valueClean (by decide), length_storeKey, data,
    List.take_left, List.drop_left, List.take_length]

/-- The command of a key. -/
theorem onRequest_get {table : DbTable} {key : Bytes} (head fresh : RequestHead)
    (keyClean : Transparent key (2 ^ 32)) :
    onRequest ((createGetBuffer fresh (tableName table) key).withHead head) =
      some (.get (storeKey table key)) := by
  have data : tableName table ++ underlined :: key = storeKey table key := rfl
  simp only [createGetBuffer, Request.withHead, onRequest, toNat_tableName,
    toNat_length keyClean (Nat.le_refl _), length_storeKey, data, List.take_length]

/-- The command of several keys, which is taken apart at the spaces. -/
theorem onRequest_gets {table : DbTable} {contents : Contents} {keys : List (LuaArg ν τ)}
    (head fresh : RequestHead) (plain : PlainKeys text contents table keys) :
    onRequest ((createGetsBuffer fresh (joinWords (keys.map fun key =>
        storeKey table (key.tostring text)))).withHead head) =
      some (.mget (keys.map fun key => storeKey table (key.tostring text))) := by
  simp only [createGetsBuffer, Request.withHead, onRequest, toNat_length plain.transparent (Nat.le_refl _),
    List.take_length]
  rw [formatCommand_joinWords _ _ _ plain.noPercent]
  · rfl
  · intro w member
    obtain ⟨key, -, rfl⟩ := List.mem_map.mp member
    simp [storeKey]
  · intro w member
    obtain ⟨key, inKeys, rfl⟩ := List.mem_map.mp member
    rw [storeKey, List.mem_append, List.mem_cons]
    rintro (inTable | under | inKey)
    · cases table <;> exact absurd inTable (by decide)
    · exact absurd under (by decide)
    · exact plain.noSpace key inKeys inKey

/-- A short string without NUL comes back as it is. -/
theorem onDBResponse_text {s : Bytes} (head : RequestHead) (clean : Transparent s (2 ^ 31)) :
    onDBResponse (.common head (Int32.ofNat s.length) s) = some (.text s) := by
  rw [onDBResponse, Int32.toNatClampNeg_ofNat_of_lt clean.short, List.take_length, cString_eq clean.noNul]

/-- The values of a multiple answer are told apart by their lengths. -/
theorem pushMulData_eq (values : List Bytes) (short : ∀ v ∈ values, v.length < 2 ^ 31) :
    pushMulData (values.map fun v => Int32.ofNat v.length) values.flatten = some values := by
  induction values with
  | nil => rfl
  | cons v values ih =>
      have vShort := short v List.mem_cons_self
      have notNegative : ¬ Int32.ofNat v.length < 0 := by
        have order := Int32.ofNat_lt_iff_lt vShort (by decide : 0 < 2 ^ 31)
        exact fun negative => absurd (order.mp negative) (Nat.not_lt_zero _)
      rw [List.map_cons, List.flatten_cons, pushMulData, if_neg notNegative,
        Int32.toNatClampNeg_ofNat_of_lt vShort, List.drop_left, List.take_left,
        ih fun w h => short w (List.mem_cons_of_mem _ h)]
      rfl

/-! ## The map is kept

Redis has what the map has, call after call.
-/

/-- Redis has what the map has, and no value that would be cut on its way back. -/
structure MapInvariant (s : MapState) : Prop where
  agrees : ∀ table key, s.store (storeKey table key) = s.contents table key
  clean : ∀ table key, ∀ value ∈ s.contents table key, Transparent value (2 ^ 31)

/-- The start. -/
theorem mapInvariant_init : MapInvariant .init where
  agrees _ _ := rfl
  clean _ _ _ none := absurd none (by simp [MapState.init])

/-- A value, or the empty string for a key that is not there, comes back as it is. -/
theorem MapInvariant.clean_getD {s : MapState} (inv : MapInvariant s) (table : DbTable) (key : Bytes) :
    Transparent ((s.contents table key).getD []) (2 ^ 31) := by
  cases found : s.contents table key with
  | none => exact ⟨List.not_mem_nil, by decide⟩
  | some value => exact inv.clean table key value found

/-- A value is written. -/
theorem serve_set {s : MapState} {c : DbCall ν τ} {key value : LuaArg ν τ}
    (operation : c.operation = .set key value) (noTable : ∀ t, key ≠ .table t)
    (keyClean : Transparent (key.convert text) (2 ^ 32))
    (valueClean : Transparent (value.convert text) (2 ^ 31)) :
    (serve text s.async s.store c).command = some (.set (storeKey c.table (key.convert text))
        (value.convert text)) ∧
      (serve text s.async s.store c).store =
        Function.update s.store (storeKey c.table (key.convert text)) (some (value.convert text)) := by
  have szKey : BindingArg.toCString text (.value key) = some (key.convert text) := by
    cases key with
    | string k => exact toCString_string text keyClean.noNul
    | number x => exact congrArg some (cString_eq keyClean.noNul)
    | table t => exact absurd rfl (noTable t)
  simp only [serve, DbCall.issue, operation, RedisInterface.setValue, pushRedisSet, szKey,
    toCString_string text (tableName_noNul c.table), toCString_string text valueClean.noNul, serveRequest,
    setBufferHead, onRequest_set _ _ keyClean valueClean]
  exact ⟨trivial, rfl⟩

/-- A value is read. -/
theorem serve_get {s : MapState} (inv : MapInvariant s) {c : DbCall ν τ} {key : LuaArg ν τ}
    (operation : c.operation = .get key) (keyClean : Transparent (key.convert text) (2 ^ 32)) :
    (serve text s.async s.store c).command = some (.get (storeKey c.table (key.convert text))) ∧
      (serve text s.async s.store c).store = s.store ∧
      (serve text s.async s.store c).answer =
        some (.text ((s.contents c.table (key.convert text)).getD [])) := by
  simp only [serve, DbCall.issue, operation, RedisInterface.getValue, pushRedisGet,
    toCString_string text (tableName_noNul c.table), toCString_string text keyClean.noNul, serveRequest,
    setBufferHeadSquence, onRequest_get _ _ keyClean, redis, generateRespond, inv.agrees, Option.bind_some]
  exact ⟨trivial, trivial, onDBResponse_text _ (inv.clean_getD _ _)⟩

/-- A key that is no table is converted as `tostring` writes it, and tables have a space. -/
theorem convert_eq_tostring {key : LuaArg ν τ} (noSpace : space ∉ key.tostring text) :
    key.convert text = key.tostring text := by
  cases key with
  | string s => rfl
  | number x => rfl
  | table t => exact absurd (List.mem_append_left _ (by decide)) noSpace

/-- Several values are read. -/
theorem serve_mget {s : MapState} (inv : MapInvariant s) {c : DbCall ν τ} {keys : List (LuaArg ν τ)}
    (operation : c.operation = .mget keys) (nonempty : keys ≠ [])
    (plain : PlainKeys text s.contents c.table keys) :
    (serve text s.async s.store c).command =
        some (.mget (keys.map fun key => storeKey c.table (key.tostring text))) ∧
      (serve text s.async s.store c).store = s.store ∧
      (serve text s.async s.store c).answer =
        some (.mulData (keys.map fun key => (s.contents c.table (key.convert text)).getD [])) := by
  have length : ¬ keys.length ≤ 0 := fun none => nonempty (List.length_eq_zero_iff.mp (Nat.le_zero.mp none))
  have noNul : ∀ key ∈ keys, (0 : UInt8) ∉ key.tostring text := by
    intro key member zero
    apply plain.transparent.noNul
    -- the word of the key is a part of what is joined
    have part : storeKey c.table (key.tostring text) <:+:
        joinWords (keys.map fun key => storeKey c.table (key.tostring text)) :=
      infix_joinWords (List.mem_map_of_mem member)
    exact part.subset (List.mem_append_right _ (List.mem_cons_of_mem _ zero))
  have szKeys := toCString_string text plain.transparent.noNul
  have values : (keys.map fun key => storeKey c.table (key.tostring text)).map s.store =
      (keys.map fun key => (s.contents c.table (key.convert text)).getD []).map some := by
    rw [List.map_map, List.map_map]
    apply List.map_congr_left
    intro key member
    have present := plain.present key member
    rw [Function.comp_apply, Function.comp_apply, inv.agrees,
      convert_eq_tostring text (plain.noSpace key member)]
    cases found : s.contents c.table (key.tostring text) with
    | none => exact absurd found present
    | some value => rfl
  simp only [serve, DbCall.issue, operation, RedisInterface.mGetValue, if_neg length, pushRedisGets,
    joinKeys_eq text c.table keys noNul, szKeys, serveRequest, setBufferHeadSquence,
    onRequest_gets text _ _ plain, redis, values, generateRespond, Option.bind_some, List.map_map,
    List.flatMap_map]
  refine ⟨trivial, trivial, ?_⟩
  have answer := pushMulData_eq
    (keys.map fun key => (s.contents c.table (key.convert text)).getD []) (by
      intro v member
      obtain ⟨key, -, rfl⟩ := List.mem_map.mp member
      exact (inv.clean_getD _ _).short)
  rw [List.map_map, ← List.flatMap_def] at answer
  simp only [onDBResponse]
  exact (congrArg (Option.map ResponseData.mulData) answer)

/-- A plain call is answered. -/
theorem MapInvariant.answered {s : MapState} (inv : MapInvariant s) {c : DbCall ν τ}
    (plain : Plain text s c) : Answered text s c := by
  cases operation : c.operation with
  | set key value =>
      simp only [Plain, operation] at plain
      obtain ⟨command, -⟩ := serve_set text operation plain.1 plain.2.1 plain.2.2 (s := s)
      exact ⟨fun _ => by simp [command], by simp [Contents.expected, operation]⟩
  | get key =>
      simp only [Plain, operation] at plain
      obtain ⟨command, -, answer⟩ := serve_get text inv operation plain
      refine ⟨fun _ => by simp [command], ?_⟩
      simp only [Contents.expected, operation, Option.mem_def, Option.some.injEq]
      rintro data rfl
      exact answer
  | delete key => simp [Plain, operation] at plain
  | mget keys =>
      simp only [Plain, operation] at plain
      cases keys with
      | nil => exact ⟨fun asks => absurd operation asks, by simp [Contents.expected, operation]⟩
      | cons key keys =>
          obtain ⟨command, -, answer⟩ := serve_mget text inv operation (List.cons_ne_nil _ _)
            (plain.resolve_left (List.cons_ne_nil _ _))
          refine ⟨fun _ => by simp [command], ?_⟩
          simp only [Contents.expected, operation, Option.mem_def, Option.some.injEq]
          rintro data rfl
          exact answer

/-- A plain call keeps Redis and the map together. -/
theorem MapInvariant.step {s : MapState} (inv : MapInvariant s) {c : DbCall ν τ}
    (plain : Plain text s c) : MapInvariant (mapStep text s c) := by
  cases operation : c.operation with
  | set key value =>
      simp only [Plain, operation] at plain
      obtain ⟨-, store⟩ := serve_set text operation plain.1 plain.2.1 plain.2.2 (s := s)
      constructor
      · intro table k
        simp only [mapStep, store, Contents.after, operation, Contents.put]
        by_cases here : table = c.table ∧ k = key.convert text
        · rw [if_pos here, here.1, here.2, Function.update_self]
        · rw [if_neg here, Function.update_of_ne fun same => here (storeKey_inj.mp same)]
          exact inv.agrees table k
      · intro table k v
        simp only [mapStep, Contents.after, operation, Contents.put]
        split
        · intro same
          cases same
          exact plain.2.2
        · exact inv.clean table k v
  | get key =>
      simp only [Plain, operation] at plain
      obtain ⟨-, store, -⟩ := serve_get text inv operation plain
      constructor
      · simp only [mapStep, store, Contents.after, operation]
        exact inv.agrees
      · simp only [mapStep, Contents.after, operation]
        exact inv.clean
  | delete key => simp [Plain, operation] at plain
  | mget keys =>
      simp only [Plain, operation] at plain
      have store : (serve text s.async s.store c).store = s.store := by
        rcases plain with none | keysPlain
        · subst none
          simp [serve, DbCall.issue, operation, RedisInterface.mGetValue]
        · by_cases none : keys = []
          · subst none
            simp [serve, DbCall.issue, operation, RedisInterface.mGetValue]
          · exact (serve_mget text inv operation none keysPlain).2.1
      constructor
      · simp only [mapStep, store, Contents.after, operation]
        exact inv.agrees
      · simp only [mapStep, Contents.after, operation]
        exact inv.clean

/-- In a run of plain calls every call is executed and every reading call has the answer of the map. -/
theorem behavesAsMap (calls : List (DbCall ν τ))
    (plain : Guarded (always (mapStep text)) (Plain text) .init calls) : BehavesAsMap text calls := by
  rintro before c ⟨later, rfl⟩
  have guarded := plain.of_append
  have inv : MapInvariant (before.foldl (mapStep text) .init) := by
    apply guarded_invariant _ mapInvariant_init guarded.of_append (runSteps_always _ _ _)
    intro s call s' inv plain step
    cases step
    exact inv.step text plain
  exact inv.answered text (guarded.last (runSteps_always _ _ _))

/-! ## Deleting

`DeleteValue` asks for the value instead of deleting it, so no run with it is that of a map.
-/

/-- What `DeleteValue` would do with the binding beside the one it calls. -/
theorem pushRedisDel_removes (fresh : RequestHead) (async : AsyncManager) (store : Store)
    (nUserId nEventType : Nat) (table : DbTable) {key : Bytes} (clean : Transparent key (2 ^ 32)) :
    ∃ request, pushRedisDel text fresh [.id nUserId, .id nEventType, .value (.string (tableName table)),
        .value (.string key)] = .pushed request ∧
      (serveRequest async store request).store = Function.update store (storeKey table key) none := by
  simp only [pushRedisDel, toCString_string text (tableName_noNul table), toCString_string text clean.noNul]
  refine ⟨_, rfl, ?_⟩
  have data : tableName table ++ underlined :: key = storeKey table key := rfl
  simp only [serveRequest, setBufferHead, createDelBuffer, Request.withHead, onRequest, toNat_tableName,
    toNat_length clean (Nat.le_refl _), length_storeKey, data, List.take_length, redis]

/-- No `DeleteValue` reaches Redis, whatever it is to delete. -/
theorem deleteValue_dropped (s : MapState) {c : DbCall ν τ} {key : LuaArg ν τ}
    (operation : c.operation = .delete key) :
    (serve text s.async s.store c).command = none ∧ (serve text s.async s.store c).store = s.store := by
  simp [serve, DbCall.issue, operation, RedisInterface.deleteValue, pushRedisGet]

/-- A call for the key `D` of the registrations. -/
def registerCall (operation : DbOperation Int Unit) : DbCall Int Unit :=
  ⟨.register, operation, 0, 0, [], ⟨0, 0, 0⟩⟩

/-- A value is written and read again, alone and together with itself. -/
theorem behavesAsMap_written : BehavesAsMap plainText
    [registerCall (.set (.string (ascii "D")) (.number 7)), registerCall (.get (.string (ascii "D"))),
      registerCall (.mget [.string (ascii "D"), .string (ascii "D")])] := by
  apply behavesAsMap plainText
  have key : Transparent (ascii "D") (2 ^ 32) := ⟨by decide, by decide⟩
  refine ⟨⟨by simp, key, ⟨by decide, by decide⟩⟩, ?_⟩
  rintro _ ⟨⟩
  refine ⟨key, ?_⟩
  rintro _ ⟨⟩
  refine ⟨Or.inr ⟨?_, ?_, by decide, ⟨by decide, by decide⟩⟩, fun _ _ => trivial⟩ <;> decide

/-- The value is still there after `DeleteValue`. -/
theorem deleted_value_stays : ¬ BehavesAsMap plainText
    [registerCall (.set (.string (ascii "D")) (.number 7)), registerCall (.delete (.string (ascii "D"))),
      registerCall (.get (.string (ascii "D")))] := by
  intro answered
  have last := (answered [registerCall (.set (.string (ascii "D")) (.number 7)),
    registerCall (.delete (.string (ascii "D")))] _ List.prefix_rfl).answer
  have empty := last (.text []) rfl
  exact absurd empty (by decide +kernel)

end GameServer.Db
