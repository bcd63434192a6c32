/-
Module: GameServer.Db.MultiData
Purpose: The reply to an `mget` on its way from the Redis worker to the scripts, byte by byte: which replies reach
  them as Redis has answered them.
Trusted boundary: `malloc` has memory; hiredis counts the elements of a reply with an `int`; a table of Lua 5.1
  for more than 2^26 fields raises
Main exports: GetsHead, MGetReply, onRequestGets, onResponsed, Decodes, Decodable, decodes_iff
-/
import Mathlib
import GameServer.Lib.MemoryBlock
import GameServer.Net.KNetPackage

namespace GameServer.Db.MultiData

open Lib Net

abbrev Bytes := List UInt8

/-! ## Layout

The response lies in one piece of memory: heads, the lengths of all values, and then the values.
-/

/-- Where the data of a buffer starts in the memory that `DB_MemoryCreateBuffer` gets for it. -/
def pvData : Nat := sizeofKgBuffer + memoryBufferReserveSize

/-- The memory of a new buffer, whose bytes are arbitrary; none when the `KG_Buffer` in front of it does not
fit. -/
def bufferMemory (fresh : Nat → UInt8) (uSize : Nat) : Option Block :=
  let uBufferSize := (dbMemoryCreateBuffer (uSize % 2 ^ 32)).uBufferSize
  if sizeofKgBuffer ≤ uBufferSize then some ((List.range uBufferSize).map fresh) else none

/-- `sizeof(KP_DBRESPOND_MULTI_DATA)`, which is packed. -/
def sizeofMultiData : Nat := 37

def sizeofInt : Nat := 4

/-- `GetNetPacketReserved()`. -/
def nProtocolReserved : Nat := 0

/-- The response starts behind the byte of the protocol. -/
def pRespond : Nat := pvData + nProtocolReserved + 1

/-- `pRespond->data`. -/
def respondData : Nat := pRespond + 36

/-- An `unsigned` value as an `int`. -/
def toInt (n : Nat) : Int := if n % 2 ^ 32 < 2 ^ 31 then (n % 2 ^ 32 : Nat) else (n % 2 ^ 32 : Nat) - 2 ^ 32

/-! ## The worker

What the worker writes into it, with the sizes as C computes them.
-/

/-- What `OnRequestGets` reads of the request. -/
structure GetsHead where
  bAllowRedisNil : Bool
  lId : UInt64
  lRef : UInt64
  byType : UInt8
  nConnectId : UInt32
  uUserId : UInt32
  uEventType : UInt32
  uSquenceId : UInt32
deriving Repr, DecidableEq

/-- An array of strings and nils. -/
structure MGetReply where
  elements : List (Option Bytes)
  count_lt : elements.length < 2 ^ 31

/-- `uSize`. -/
def replySize (elements : List (Option Bytes)) : Nat :=
  sizeofMultiData + sizeofInt * elements.length + nProtocolReserved +
    (elements.map fun e => (e.getD []).length).sum

/-- `RESPOND_FLAG_NET_PART1` for a reply with a nil that is not allowed, and otherwise
`RESPOND_FLAG_NET_FULL`. -/
def packetType (bAllowNil : Bool) (elements : List (Option Bytes)) : UInt8 :=
  if elements.any Option.isNone && !bAllowNil then 3 else 2

/-- What is written in front of the values: the head of the packet, `PROXY2DRIVE_DATA_GETS`, and the fields of the
response, with `DB_FLAG_REDIS` and `REDIS_REPLY_ARRAY`. -/
def headCopies (request : GetsHead) (elements : List (Option Bytes)) : List (Int × Bytes) :=
  [(pvData - 1, [packetType request.bAllowRedisNil elements]),
    (pvData - 5, leBytes 4 request.nConnectId.toNat),
    (pvData, [6]),
    (pRespond + 20, [1]),
    (pRespond + 21, [2]),
    (pRespond + 22, [request.byType]),
    (pRespond + 32, leBytes 4 elements.length),
    (pRespond, leBytes 8 request.lRef.toNat),
    (pRespond + 24, leBytes 8 request.lId.toNat)]

/-- The loop over the elements: lengths in front, strings behind; a nil has the length -1. -/
def elementCopies : (pnValueLen pTmp : Int) → List (Option Bytes) → List (Int × Bytes)
  | _, _, [] => []
  | pnValueLen, pTmp, some str :: rest =>
      (pnValueLen, leBytes 4 str.length) :: (pTmp, str) ::
        elementCopies (pnValueLen + sizeofInt) (pTmp + toInt str.length) rest
  | pnValueLen, pTmp, none :: rest =>
      (pnValueLen, leBytes 4 (2 ^ 32 - 1)) :: elementCopies (pnValueLen + sizeofInt) pTmp rest

/-- `DB_SetMulDataHead`. -/
def mulDataHeadCopies (request : GetsHead) : List (Int × Bytes) :=
  [(pvData + 1 + 8, leBytes 4 request.uUserId.toNat),
    (pvData + 1 + 12, leBytes 4 request.uEventType.toNat),
    (pvData + 1 + 16, leBytes 4 request.uSquenceId.toNat)]

/-- `_GenMultiDataNetRespond`: the memory of the response; none when something is written outside of it. -/
def genMultiDataNetRespond (fresh : Nat → UInt8) (request : GetsHead) (elements : List (Option Bytes)) :
    Option Block :=
  (bufferMemory fresh (replySize elements)).bind fun block =>
    storeAll block (headCopies request elements ++
      elementCopies respondData (respondData + sizeofInt * elements.length) elements)

/-- `OnRequestGets`, behind the reply. -/
def onRequestGets (fresh : Nat → UInt8) (request : GetsHead) (reply : MGetReply) : Option Block :=
  (genMultiDataNetRespond fresh request reply.elements).bind fun block =>
    storeAll block (mulDataHeadCopies request)

/-! ## The scripts

What the main thread reads of it.
-/

/-- `lua_pushlstring`, whose length is a `size_t`; none when it reads outside of the memory. -/
def pushLString (block : Block) (s : Int) (nLen : Int) : Option Bytes := load block s (nLen % 2 ^ 64).toNat

/-- The loop of `RedisCallLua`, with the number of turns that are left. -/
def pushValues (block : Block) :
    (turns i : Nat) → (pnValueLen pTmp : Int) → (Nat → Option Bytes) → Option (Nat → Option Bytes)
  | 0, _, _, _, table => some table
  | turns + 1, i, pnValueLen, pTmp, table =>
      (load block pnValueLen sizeofInt).bind fun bytes =>
        (pushLString block pTmp (toInt (leValue bytes))).bind fun str =>
          pushValues block turns (i + 1) (pnValueLen + sizeofInt) (pTmp + toInt (leValue bytes))
            (Function.update table i (some str))

/-- `RedisCallLua`: the table.  `lua_createtable` raises for more than 2^26 fields, outside of `lua_pcall`. -/
def redisCallLua (block : Block) (nParamCount : Nat) (szData : Int) : Option (Nat → Option Bytes) :=
  if 2 ^ 26 < nParamCount then none
  else pushValues block nParamCount 1 szData (szData + sizeofInt * nParamCount) fun _ => none

/-- The arguments of `OnRedisMulDataRespone`. -/
structure MulDataCall where
  uSquenceId : UInt32
  uUserId : UInt32
  uEventType : UInt32
  tbMulData : Nat → Option Bytes

def loadUint32 (block : Block) (offset : Int) : Option UInt32 :=
  (load block offset 4).map fun bytes => UInt32.ofNat (leValue bytes)

/-- `OnDBResponse`. -/
def onDBResponse (block : Block) (pMulDataResponse : Int) : Option MulDataCall := do
  let nCount ← (load block (pMulDataResponse + 32) 4).map fun bytes => toInt (leValue bytes)
  let uSquenceId ← loadUint32 block (pMulDataResponse + 16)
  let uUserId ← loadUint32 block (pMulDataResponse + 8)
  let uEventType ← loadUint32 block (pMulDataResponse + 12)
  let tbMulData ← redisCallLua block nCount.toNat (pMulDataResponse + 36)
  return ⟨uSquenceId, uUserId, uEventType, tbMulData⟩

/-- `OnResponsed`, for the three types of packets that have many values; none for the others. -/
def onResponsed (block : Block) : Option MulDataCall := do
  let byPacketType ← load block (pvData - 1) 1
  if byPacketType = [2] ∨ byPacketType = [3] ∨ byPacketType = [4] then
    onDBResponse block (pvData + 1)
  else
    none

/-! ## The property and its condition

The table that the script gets should have what Redis sent.
-/

/-- The table for a reply: the strings at their indices from 1 on, and nothing for a nil. -/
def tableOf (elements : List (Option Bytes)) : Nat → Option Bytes
  | 0 => none
  | i + 1 => elements[i]?.join

/-- Both sides stay in the memory of the response, nothing raises, and the scripts get the request's head and the
reply as Redis gave it. -/
def Decodes (fresh : Nat → UInt8) (request : GetsHead) (reply : MGetReply) : Prop :=
  ∃ block, onRequestGets fresh request reply = some block ∧
    onResponsed block =
      some ⟨request.uSquenceId, request.uUserId, request.uEventType, tableOf reply.elements⟩

/-- A string whose length is an `int`. -/
def pushable : Option Bytes → Bool
  | some str => str.length < 2 ^ 31
  | none => false

/-- There is no nil, no string is too long, there are not too many, and the size of the memory fits its type. -/
structure Decodable (elements : List (Option Bytes)) : Prop where
  strings : elements.all pushable = true
  few : elements.length ≤ 2 ^ 26
  fits : pvData + replySize elements < 2 ^ 32

/-! ## Numbers in memory

Sizes are written as 32 bits and read as `int`.
-/

/-- Below 2^31 nothing changes. -/
theorem toInt_of_lt {n : Nat} (small : n < 2 ^ 31) : toInt n = n := by
  unfold toInt
  rw [Nat.mod_eq_of_lt (by omega), if_pos small]

/-- From there on the number is negative. -/
theorem toInt_of_le {n : Nat} (big : 2 ^ 31 ≤ n) (fits : n < 2 ^ 32) : toInt n = n - 2 ^ 32 := by
  unfold toInt
  rw [Nat.mod_eq_of_lt fits, if_neg (by omega)]

theorem toInt_mod (n : Nat) : toInt (n % 2 ^ 32) = toInt n := by
  unfold toInt
  rw [Nat.mod_mod]

theorem leValue_int (n : Nat) : leValue (leBytes 4 n) = n % 2 ^ 32 := leValue_leBytes 4 n

/-- Writing and reading a size. -/
theorem toInt_leValue (n : Nat) : toInt (leValue (leBytes 4 n)) = toInt n := by
  rw [leValue_int, toInt_mod]

theorem uint32_leValue (v : UInt32) : UInt32.ofNat (leValue (leBytes 4 v.toNat)) = v := by
  rw [leValue_int, Nat.mod_eq_of_lt v.toNat_lt, UInt32.ofNat_toNat]

/-- A negative length is read as one that no memory has. -/
theorem pushLString_of_neg {block : Block} (size : block.length < 2 ^ 32) (s : Int) {nLen : Int} (negative : nLen < 0)
    (small : -2 ^ 32 ≤ nLen) : pushLString block s nLen = none := by
  have huge : 2 ^ 32 ≤ (nLen % 2 ^ 64).toNat := by omega
  unfold pushLString load
  apply if_neg
  intro inside
  unfold InBounds at inside
  omega

theorem pushLString_of_lt (block : Block) (s : Int) {n : Nat} (small : n < 2 ^ 31) :
    pushLString block s n = load block s n := by
  unfold pushLString
  congr 1
  omega

/-! ## Where the values are

Every copy into the memory lies behind the one before it, and inside.
-/

/-- The bytes of the strings. -/
def bodySize (elements : List (Option Bytes)) : Nat := (elements.map fun e => (e.getD []).length).sum

@[simp] theorem bodySize_some (str : Bytes) (rest : List (Option Bytes)) :
    bodySize (some str :: rest) = str.length + bodySize rest := rfl

section Copies

variable {size : Nat} {pnValueLen pTmp : Int} {elements : List (Option Bytes)}

/-- Behind a string that is too long the position is negative. -/
theorem next_behind {front : Int} {str : Bytes} (small : size < 2 ^ 32) (behind : pTmp < 0 ∨ front ≤ pTmp)
    (body : InBounds size pTmp str.length) : pTmp + toInt str.length < 0 ∨ front ≤ pTmp + toInt str.length := by
  rcases body with empty | ⟨positive, fits⟩
  · rw [empty, toInt_of_lt (by norm_num)]
    simpa using behind
  · by_cases short : str.length < 2 ^ 31
    · rw [toInt_of_lt short]
      omega
    · rw [toInt_of_le (by omega) (by omega)]
      omega

/-- Copies that stay inside are lengths at their places, or strings behind `front`, or copy nothing. -/
theorem elementCopies_place (front : Int) (small : size < 2 ^ 32) (behind : pTmp < 0 ∨ front ≤ pTmp)
    (inside : ∀ copy ∈ elementCopies pnValueLen pTmp elements, InBounds size copy.1 copy.2.length) :
    ∀ copy ∈ elementCopies pnValueLen pTmp elements,
      (pnValueLen ≤ copy.1 ∧ copy.1 + copy.2.length ≤ pnValueLen + sizeofInt * elements.length) ∨
        front ≤ copy.1 ∨ copy.2 = [] := by
  induction elements generalizing pnValueLen pTmp with
  | nil => exact fun copy member => absurd member List.not_mem_nil
  | cons e rest ih =>
      have later : ∀ next, (next < 0 ∨ front ≤ next) →
          (∀ copy ∈ elementCopies (pnValueLen + sizeofInt) next rest, InBounds size copy.1 copy.2.length) →
          ∀ copy ∈ elementCopies (pnValueLen + sizeofInt) next rest,
            (pnValueLen ≤ copy.1 ∧ copy.1 + copy.2.length ≤ pnValueLen + sizeofInt * (e :: rest).length) ∨
              front ≤ copy.1 ∨ copy.2 = [] := by
        intro next nextBehind insideRest copy member
        rcases ih nextBehind insideRest copy member with ⟨low, high⟩ | other
        · left
          unfold sizeofInt at low high ⊢
          rw [List.length_cons]
          omega
        · exact Or.inr other
      have first : ∀ bytes : Bytes, bytes.length = 4 →
          pnValueLen ≤ pnValueLen ∧ pnValueLen + bytes.length ≤ pnValueLen + sizeofInt * (e :: rest).length := by
        intro bytes four
        unfold sizeofInt
        rw [four, List.length_cons]
        omega
      cases e with
      | none =>
          intro copy member
          rcases List.mem_cons.mp member with rfl | others
          · exact Or.inl (first _ (leBytes_length 4 _))
          · exact later pTmp behind (fun c m => inside c (List.mem_cons_of_mem _ m)) copy others
      | some str =>
          have body : InBounds size pTmp str.length := inside (pTmp, str) (by simp [elementCopies])
          intro copy member
          rcases List.mem_cons.mp member with rfl | others
          · exact Or.inl (first _ (leBytes_length 4 _))
          rcases List.mem_cons.mp others with rfl | rest'
          · right
            rcases body with empty | ⟨positive, _⟩
            · exact Or.inr (List.length_eq_zero_iff.mp empty)
            · left
              change front ≤ pTmp
              omega
          · refine later _ (next_behind small behind body) (fun c m => inside c ?_) copy rest'
            exact List.mem_cons_of_mem _ (List.mem_cons_of_mem _ m)

theorem all_pushable_cons {e : Option Bytes} {rest : List (Option Bytes)} (good : (e :: rest).all pushable = true) :
    (∃ str, e = some str ∧ str.length < 2 ^ 31) ∧ rest.all pushable = true := by
  rw [List.all_cons, Bool.and_eq_true] at good
  obtain ⟨first, others⟩ := good
  refine ⟨?_, others⟩
  cases e with
  | none => exact absurd first (by simp [pushable])
  | some str => exact ⟨str, rfl, of_decide_eq_true first⟩

/-- Where everything has its place, all copies stay inside. -/
theorem elementCopies_inBounds (good : elements.all pushable = true) (positive : 0 ≤ pnValueLen)
    (apart : pnValueLen + sizeofInt * elements.length ≤ pTmp) (fits : pTmp + bodySize elements ≤ size) :
    ∀ copy ∈ elementCopies pnValueLen pTmp elements, InBounds size copy.1 copy.2.length := by
  induction elements generalizing pnValueLen pTmp with
  | nil => exact fun copy member => absurd member List.not_mem_nil
  | cons e rest ih =>
      obtain ⟨⟨str, rfl, short⟩, others⟩ := all_pushable_cons good
      rw [bodySize_some] at fits
      rw [List.length_cons] at apart
      unfold sizeofInt at apart
      intro copy member
      rcases List.mem_cons.mp member with rfl | behind
      · right
        rw [leBytes_length]
        constructor
        · exact positive
        · omega
      rcases List.mem_cons.mp behind with rfl | later
      · right
        constructor
        · change 0 ≤ pTmp
          omega
        · change pTmp + str.length ≤ size
          omega
      · rw [toInt_of_lt short] at later
        apply ih others _ _ _ copy later
        · unfold sizeofInt
          omega
        · unfold sizeofInt
          omega
        · omega

/-- Where all copies stay inside, everything has its place. -/
theorem elementCopies_fit (good : elements.all pushable = true) (apart : pnValueLen + sizeofInt * elements.length ≤ pTmp)
    (inside : ∀ copy ∈ elementCopies pnValueLen pTmp elements, InBounds size copy.1 copy.2.length) :
    (elements = [] ∨ pnValueLen + sizeofInt * elements.length ≤ size) ∧
      (bodySize elements = 0 ∨ pTmp + bodySize elements ≤ size) := by
  induction elements generalizing pnValueLen pTmp with
  | nil => exact ⟨Or.inl rfl, Or.inl rfl⟩
  | cons e rest ih =>
      obtain ⟨⟨str, rfl, short⟩, others⟩ := all_pushable_cons good
      have lengthInside : InBounds size pnValueLen 4 := by
        have copied := inside (pnValueLen, leBytes 4 str.length) List.mem_cons_self
        rwa [leBytes_length] at copied
      have body : InBounds size pTmp str.length := inside (pTmp, str) (by simp [elementCopies])
      rw [List.length_cons] at apart
      unfold sizeofInt at apart
      have insideRest : ∀ copy ∈ elementCopies (pnValueLen + sizeofInt) (pTmp + str.length) rest,
          InBounds size copy.1 copy.2.length := by
        intro copy member
        apply inside copy
        rw [← toInt_of_lt short] at member
        exact List.mem_cons_of_mem _ (List.mem_cons_of_mem _ member)
      have apartRest : pnValueLen + sizeofInt + sizeofInt * rest.length ≤ pTmp + str.length := by
        unfold sizeofInt
        omega
      obtain ⟨lengths, bodies⟩ := ih others apartRest insideRest
      have lengthFits : pnValueLen + 4 ≤ size := by
        rcases lengthInside with never | ⟨_, fits⟩
        · exact absurd never (by norm_num)
        · exact fits
      constructor
      · right
        rw [List.length_cons]
        rcases lengths with rfl | fits
        · unfold sizeofInt
          rw [List.length_nil]
          omega
        · unfold sizeofInt at fits ⊢
          omega
      · rw [bodySize_some]
        rcases bodies with none | fits
        · rcases body with empty | ⟨_, fits⟩
          · left
            omega
          · right
            omega
        · right
          omega

end Copies

/-! ## Reading the values

The loop that fills the table finds each value where it was written.
-/

/-- The table with the elements from the index on. -/
def fillTable (table : Nat → Option Bytes) : Nat → List (Option Bytes) → Nat → Option Bytes
  | _, [] => table
  | i, e :: rest => fillTable (Function.update table i e) (i + 1) rest

theorem fillTable_apply (table : Nat → Option Bytes) (i : Nat) (elements : List (Option Bytes)) (j : Nat) :
    fillTable table i elements j =
      if i ≤ j ∧ j < i + elements.length then elements[j - i]?.join else table j := by
  induction elements generalizing table i with
  | nil =>
      rw [fillTable, if_neg]
      rw [List.length_nil]
      omega
  | cons e rest ih =>
      rw [fillTable, ih, List.length_cons]
      by_cases here : j = i
      · subst here
        rw [if_neg (by omega), if_pos (by omega), Function.update_self, Nat.sub_self]
        simp
      · rw [Function.update_of_ne here]
        by_cases later : i + 1 ≤ j ∧ j < i + 1 + rest.length
        · rw [if_pos later, if_pos (by omega)]
          have next : j - i = (j - (i + 1)) + 1 := by omega
          rw [next, List.getElem?_cons_succ]
        · rw [if_neg later, if_neg (by omega)]

/-- From index 1 on it is the table of the reply. -/
theorem fillTable_eq_tableOf (elements : List (Option Bytes)) :
    fillTable (fun _ => none) 1 elements = tableOf elements := by
  funext j
  rw [fillTable_apply]
  cases j with
  | zero => simp [tableOf]
  | succ j =>
      rw [tableOf, Nat.add_sub_cancel]
      split
      · rfl
      · next outside =>
        rw [List.getElem?_eq_none (by omega)]
        rfl

/-- The loop reads the values that were written, unless one of them is no string or too long. -/
theorem pushValues_eq {block last : Block} {before after : List (Int × Bytes)} {elements : List (Option Bytes)}
    {pnValueLen pTmp : Int} (size : block.length < 2 ^ 32)
    (stored : storeAll block (before ++ elementCopies pnValueLen pTmp elements ++ after) = some last)
    (positive : 0 ≤ pnValueLen) (apart : pnValueLen + sizeofInt * elements.length ≤ pTmp)
    (front : ∀ copy ∈ after, copy.1 + copy.2.length ≤ pnValueLen) (i : Nat) (table : Nat → Option Bytes) :
    pushValues last elements.length i pnValueLen pTmp table =
      if elements.all pushable then some (fillTable table i elements) else none := by
  induction elements generalizing pnValueLen pTmp before i table with
  | nil => rfl
  | cons e rest ih =>
      have inside := inBounds_of_storeAll stored
      rw [List.length_cons] at apart
      unfold sizeofInt at apart
      have lastSize : last.length < 2 ^ 32 := by
        rw [length_storeAll stored]
        exact size
      -- the length, which no later copy touches
      have readLength : ∀ (n : Nat) (more : List (Int × Bytes)),
          before ++ elementCopies pnValueLen pTmp (e :: rest) ++ after =
            before ++ (pnValueLen, leBytes 4 n) :: more →
          (∀ copy ∈ more, Apart copy pnValueLen 4) → load last pnValueLen sizeofInt = some (leBytes 4 n) := by
        intro n more same elsewhere
        rw [same] at stored
        have read := load_storeAll_last stored (by rwa [leBytes_length])
        rwa [leBytes_length] at read
      have afterApart : ∀ copy ∈ after, Apart copy pnValueLen 4 :=
        fun copy member => Or.inr (Or.inr (Or.inl (front copy member)))
      have laterApart : ∀ next, (next < 0 ∨ pnValueLen + 4 ≤ next) →
          (∀ copy ∈ elementCopies (pnValueLen + sizeofInt) next rest, InBounds block.length copy.1 copy.2.length) →
          ∀ copy ∈ elementCopies (pnValueLen + sizeofInt) next rest ++ after, Apart copy pnValueLen 4 := by
        intro next behind insideRest copy member
        rcases List.mem_append.mp member with values | last
        · rcases elementCopies_place (pnValueLen + 4) size behind insideRest copy values with ⟨low, _⟩ | low | nothing
          · exact Or.inr (Or.inr (Or.inr low))
          · exact Or.inr (Or.inr (Or.inr low))
          · exact Or.inl nothing
        · exact afterApart copy last
      cases e with
      | none =>
          have bytes : load last pnValueLen sizeofInt = some (leBytes 4 (2 ^ 32 - 1)) := by
            apply readLength _ (elementCopies (pnValueLen + sizeofInt) pTmp rest ++ after) (by simp [elementCopies])
            exact laterApart pTmp (Or.inr (by omega)) fun c m => inside c (by simp [elementCopies, m])
          have negative : toInt (leValue (leBytes 4 (2 ^ 32 - 1))) = -1 := by
            rw [toInt_leValue]
            rfl
          rw [List.length_cons, pushValues, bytes, Option.bind_some, negative,
            pushLString_of_neg lastSize pTmp (by omega) (by omega)]
          rfl
      | some str =>
          have body : InBounds block.length pTmp str.length := inside (pTmp, str) (by simp [elementCopies])
          have insideRest : ∀ copy ∈ elementCopies (pnValueLen + sizeofInt) (pTmp + toInt str.length) rest,
              InBounds block.length copy.1 copy.2.length := fun c m => inside c (by simp [elementCopies, m])
          have bytes : load last pnValueLen sizeofInt = some (leBytes 4 str.length) := by
            apply readLength _ ((pTmp, str) :: (elementCopies (pnValueLen + sizeofInt) (pTmp + toInt str.length) rest ++
              after)) (by simp [elementCopies])
            rw [List.forall_mem_cons]
            constructor
            · exact Or.inr (Or.inr (Or.inr (show pnValueLen + 4 ≤ pTmp by omega)))
            · exact laterApart _ (next_behind size (Or.inr (by omega)) body) insideRest
          rw [List.length_cons, pushValues, bytes, Option.bind_some, toInt_leValue, List.all_cons]
          by_cases short : str.length < 2 ^ 31
          · have pushed : pushable (some str) = true := decide_eq_true short
            rw [toInt_of_lt short] at insideRest ⊢
            have written : storeAll block ((before ++ [(pnValueLen, leBytes 4 str.length)]) ++ (pTmp, str) ::
                (elementCopies (pnValueLen + sizeofInt) (pTmp + str.length) rest ++ after)) = some last := by
              rw [elementCopies, toInt_of_lt short] at stored
              simpa using stored
            have text : pushLString last pTmp str.length = some str := by
              rw [pushLString_of_lt last pTmp short]
              apply load_storeAll_last written
              intro copy member
              rcases List.mem_append.mp member with values | behind
              · rcases elementCopies_place (pTmp + str.length) size (Or.inr (by omega)) insideRest copy values with
                  ⟨_, high⟩ | low | nothing
                · unfold sizeofInt at high
                  exact Or.inr (Or.inr (Or.inl (by omega)))
                · exact Or.inr (Or.inr (Or.inr low))
                · exact Or.inl nothing
              · have low := front copy behind
                exact Or.inr (Or.inr (Or.inl (by omega)))
            rw [text, Option.bind_some, pushed, Bool.true_and]
            have next : storeAll block ((before ++ [(pnValueLen, leBytes 4 str.length)] ++ [(pTmp, str)]) ++
                elementCopies (pnValueLen + sizeofInt) (pTmp + str.length) rest ++ after) = some last := by
              simpa using written
            apply ih next
            · unfold sizeofInt
              omega
            · unfold sizeofInt
              omega
            · intro copy member
              have low := front copy member
              unfold sizeofInt
              omega
          · have long : pushable (some str) = false := decide_eq_false short
            have fits : pTmp + str.length ≤ block.length := by
              rcases body with empty | ⟨_, fits⟩
              · omega
              · exact fits
            rw [toInt_of_le (by omega) (by omega), pushLString_of_neg lastSize pTmp (by omega) (by omega), long]
            rfl

/-! ## Replies on their way

The worker and the main thread together.
-/

section Response

variable {fresh : Nat → UInt8} {request : GetsHead} {elements : List (Option Bytes)} {mem block : Block}

/-- Every copy into the memory of a response, in order. -/
def allCopies (request : GetsHead) (elements : List (Option Bytes)) : List (Int × Bytes) :=
  headCopies request elements ++ elementCopies respondData (respondData + sizeofInt * elements.length) elements ++
    mulDataHeadCopies request

/-- The worker makes one copy after the other. -/
theorem onRequestGets_eq (fresh : Nat → UInt8) (request : GetsHead) (reply : MGetReply) :
    onRequestGets fresh request reply =
      (bufferMemory fresh (replySize reply.elements)).bind fun mem =>
        storeAll mem (allCopies request reply.elements) := by
  unfold onRequestGets genMultiDataNetRespond allCopies
  rw [Option.bind_assoc]
  congr 1
  funext mem
  exact (storeAll_append mem _ (mulDataHeadCopies request)).symm

theorem length_bufferMemory {uSize : Nat} (got : bufferMemory fresh uSize = some mem) :
    mem.length = (pvData + uSize) % 2 ^ 32 := by
  unfold bufferMemory dbMemoryCreateBuffer at got
  simp only at got
  split at got
  · rw [← Option.some.inj got, List.length_map, List.length_range]
    unfold pvData
    omega
  · exact absurd got (by simp)

theorem bufferMemory_of_lt (fresh : Nat → UInt8) {uSize : Nat} (fits : pvData + uSize < 2 ^ 32) :
    ∃ mem, bufferMemory fresh uSize = some mem := by
  unfold pvData at fits
  unfold bufferMemory
  refine ⟨_, if_pos ?_⟩
  unfold dbMemoryCreateBuffer
  simp only
  omega

/-- The strings are written behind the fields of the response. -/
theorem elementCopies_behind (small : mem.length < 2 ^ 32)
    (stored : storeAll mem (allCopies request elements) = some block) {offset : Int} {n : Nat}
    (low : offset + n ≤ respondData) :
    ∀ copy ∈ elementCopies respondData (respondData + sizeofInt * elements.length) elements, Apart copy offset n := by
  intro copy member
  have inside : ∀ c ∈ elementCopies respondData (respondData + sizeofInt * elements.length) elements,
      InBounds mem.length c.1 c.2.length :=
    fun c m => inBounds_of_storeAll stored c (List.mem_append_left _ (List.mem_append_right _ m))
  have behind : (respondData : Int) ≤ respondData + sizeofInt * elements.length := by
    unfold sizeofInt
    omega
  rcases elementCopies_place respondData small (Or.inr behind) inside copy member with ⟨first, _⟩ | first | nothing
  · exact Or.inr (Or.inr (Or.inr (by omega)))
  · exact Or.inr (Or.inr (Or.inr (by omega)))
  · exact Or.inl nothing

/-- A field of the response that nothing overwrites. -/
theorem load_head (before more : List (Int × Bytes)) {offset : Int} {src : Bytes} (small : mem.length < 2 ^ 32)
    (stored : storeAll mem (allCopies request elements) = some block)
    (split : headCopies request elements = before ++ (offset, src) :: more)
    (low : offset + src.length ≤ respondData) (apart : ∀ copy ∈ more, Apart copy offset src.length)
    (others : ∀ copy ∈ mulDataHeadCopies request, Apart copy offset src.length) :
    load block offset src.length = some src := by
  have values := elementCopies_behind small stored low
  unfold allCopies at stored
  rw [split, List.append_assoc, List.append_assoc, List.cons_append] at stored
  apply load_storeAll_last stored
  intro copy member
  rcases List.mem_append.mp member with head | rest
  · exact apart copy head
  rcases List.mem_append.mp rest with value | last
  · exact values copy value
  · exact others copy last

/-- Where the fields of the response are. -/
theorem offsets : pvData = 40 ∧ pRespond = 41 ∧ respondData = 77 := ⟨rfl, rfl, rfl⟩

theorem load_packetType (small : mem.length < 2 ^ 32)
    (stored : storeAll mem (allCopies request elements) = some block) :
    load block (pvData - 1) 1 = some [packetType request.bAllowRedisNil elements] := by
  obtain ⟨data, respond, values⟩ := offsets
  apply load_head [] _ small stored (List.nil_append _).symm
  · simp [data, values]
  · simp [Apart, data, respond]
  · simp [mulDataHeadCopies, Apart, data]

/-- The count is read where it was written. -/
theorem load_nCount (small : mem.length < 2 ^ 32)
    (stored : storeAll mem (allCopies request elements) = some block) :
    load block (pRespond + 32) 4 = some (leBytes 4 elements.length) := by
  obtain ⟨data, respond, values⟩ := offsets
  have read : _ → _ → _ → load block (pRespond + 32) (leBytes 4 elements.length).length = _ :=
    load_head ((headCopies request elements).take 6) ((headCopies request elements).drop 7) small stored rfl
  rw [leBytes_length] at read
  apply read
  · simp [respond, values]
  · simp [headCopies, Apart, respond]
  · simp [mulDataHeadCopies, Apart, data, respond]

/-- A field that `DB_SetMulDataHead` has set. -/
theorem loadUint32_mulDataHead (before more : List (Int × Bytes)) {offset : Int} {v : UInt32}
    (stored : storeAll mem (allCopies request elements) = some block)
    (split : mulDataHeadCopies request = before ++ (offset, leBytes 4 v.toNat) :: more)
    (apart : ∀ copy ∈ more, Apart copy offset 4) : loadUint32 block offset = some v := by
  unfold allCopies at stored
  rw [split, ← List.append_assoc] at stored
  have read := load_storeAll_last stored (by rwa [leBytes_length])
  rw [leBytes_length] at read
  rw [loadUint32, read, Option.map_some, uint32_leValue]

/-- What the scripts get of a response. -/
theorem onResponsed_eq (small : mem.length < 2 ^ 32) (count : elements.length < 2 ^ 31)
    (stored : storeAll mem (allCopies request elements) = some block) :
    onResponsed block =
      if elements.length ≤ 2 ^ 26 ∧ elements.all pushable then
        some ⟨request.uSquenceId, request.uUserId, request.uEventType, tableOf elements⟩
      else
        none := by
  obtain ⟨data, respond, values⟩ := offsets
  have kind : [packetType request.bAllowRedisNil elements] = [2] ∨
      [packetType request.bAllowRedisNil elements] = [3] ∨ [packetType request.bAllowRedisNil elements] = [4] := by
    unfold packetType
    split
    · exact Or.inr (Or.inl rfl)
    · exact Or.inl rfl
  have nCount : load block (pvData + 1 + 32) 4 = some (leBytes 4 elements.length) := load_nCount small stored
  have uUserId : loadUint32 block (pvData + 1 + 8) = some request.uUserId := by
    refine loadUint32_mulDataHead [] _ stored (List.nil_append _).symm ?_
    simp [Apart, data]
  have uEventType : loadUint32 block (pvData + 1 + 12) = some request.uEventType := by
    refine loadUint32_mulDataHead ((mulDataHeadCopies request).take 1) _ stored rfl ?_
    simp [Apart, data]
  have uSquenceId : loadUint32 block (pvData + 1 + 16) = some request.uSquenceId := by
    refine loadUint32_mulDataHead ((mulDataHeadCopies request).take 2) _ stored rfl ?_
    simp
  have table : pushValues block elements.length 1 (pvData + 1 + 36)
      (pvData + 1 + 36 + sizeofInt * elements.length) (fun _ => none) =
      if elements.all pushable then some (tableOf elements) else none := by
    have written : storeAll mem (headCopies request elements ++ elementCopies (pvData + 1 + 36)
        (pvData + 1 + 36 + sizeofInt * elements.length) elements ++ mulDataHeadCopies request) = some block := stored
    rw [← fillTable_eq_tableOf]
    apply pushValues_eq small written
    · simp [data]
    · exact le_refl _
    · simp [mulDataHeadCopies, data]
  unfold onResponsed onDBResponse redisCallLua
  rw [load_packetType small stored, nCount, uUserId, uEventType, uSquenceId]
  simp only [Option.bind_eq_bind, Option.bind_some, Option.map_some, if_pos kind, toInt_leValue, toInt_of_lt count,
    Int.toNat_natCast, table]
  by_cases few : elements.length ≤ 2 ^ 26
  · rw [if_neg (by omega)]
    by_cases strings : elements.all pushable = true
    · rw [if_pos strings, if_pos ⟨few, strings⟩]
      rfl
    · rw [if_neg strings, if_neg (fun both => strings both.2)]
      rfl
  · rw [if_pos (by omega), if_neg (fun both => few both.1)]
    rfl

/-- The worker stays inside of the memory when the size of it fits its type. -/
theorem fits_of_stored (good : elements.all pushable = true)
    (got : bufferMemory fresh (replySize elements) = some mem)
    (stored : storeAll mem (allCopies request elements) = some block) : pvData + replySize elements < 2 ^ 32 := by
  have inside := inBounds_of_storeAll stored
  have size := length_bufferMemory got
  have nCount : InBounds mem.length (pRespond + 32) 4 := by
    have copied := inside (pRespond + 32, leBytes 4 elements.length) (by simp [allCopies, headCopies])
    rwa [leBytes_length] at copied
  have head : respondData ≤ mem.length := by
    rcases nCount with never | ⟨_, fits⟩
    · exact absurd never (by norm_num)
    · unfold respondData
      omega
  have total : pvData + replySize elements = respondData + sizeofInt * elements.length + bodySize elements := by
    unfold replySize respondData pRespond sizeofMultiData bodySize
    omega
  have values := elementCopies_fit good (le_refl (respondData + sizeofInt * elements.length : Int))
    fun c m => inside c (List.mem_append_left _ (List.mem_append_right _ m))
  have within : respondData + sizeofInt * elements.length + bodySize elements ≤ mem.length := by
    obtain ⟨lengths, bodies⟩ := values
    rcases bodies with none | fits
    · rcases lengths with rfl | fits
      · rw [none, List.length_nil]
        exact head
      · rw [none]
        exact_mod_cast fits
    · exact_mod_cast fits
  rw [← total, size] at within
  omega

/-- A reply that meets the condition fits into its memory. -/
theorem stored_of_decodable (fresh : Nat → UInt8) (request : GetsHead) (good : Decodable elements) :
    ∃ mem block, bufferMemory fresh (replySize elements) = some mem ∧
      storeAll mem (allCopies request elements) = some block := by
  obtain ⟨mem, got⟩ := bufferMemory_of_lt fresh good.fits
  have size : mem.length = pvData + replySize elements := by
    rw [length_bufferMemory got, Nat.mod_eq_of_lt good.fits]
  have total : pvData + replySize elements = respondData + sizeofInt * elements.length + bodySize elements := by
    unfold replySize respondData pRespond sizeofMultiData bodySize
    omega
  have inside : ∀ copy ∈ allCopies request elements, InBounds mem.length copy.1 copy.2.length := by
    obtain ⟨data, respond, values⟩ := offsets
    have fields : ∀ copy ∈ headCopies request elements ++ mulDataHeadCopies request,
        InBounds 77 copy.1 copy.2.length := by
      simp [headCopies, mulDataHeadCopies, InBounds, data, respond]
    have head : 77 ≤ mem.length := by
      rw [size, total]
      omega
    have wider : ∀ copy ∈ headCopies request elements ++ mulDataHeadCopies request,
        InBounds mem.length copy.1 copy.2.length := by
      intro copy member
      rcases fields copy member with nothing | ⟨positive, ends⟩
      · exact Or.inl nothing
      · exact Or.inr ⟨positive, by omega⟩
    intro copy member
    rcases List.mem_append.mp member with front | last
    · rcases List.mem_append.mp front with field | value
      · exact wider copy (List.mem_append_left _ field)
      · apply elementCopies_inBounds good.strings _ (le_refl _) _ copy value
        · simp [values]
        · rw [size, total]
          push_cast
          exact le_refl _
    · exact wider copy (List.mem_append_right _ last)
  obtain ⟨block, stored⟩ := Option.isSome_iff_exists.mp (storeAll_isSome_iff.mpr inside)
  exact ⟨mem, block, got, stored⟩

end Response

/-- A reply reaches the scripts as Redis gave it exactly when it is decodable. -/
theorem decodes_iff (fresh : Nat → UInt8) (request : GetsHead) (reply : MGetReply) :
    Decodes fresh request reply ↔ Decodable reply.elements := by
  unfold Decodes
  rw [onRequestGets_eq]
  constructor
  · rintro ⟨block, sent, received⟩
    obtain ⟨mem, got, stored⟩ := Option.bind_eq_some_iff.mp sent
    have small : mem.length < 2 ^ 32 := by
      rw [length_bufferMemory got]
      exact Nat.mod_lt _ (by norm_num)
    rw [onResponsed_eq small reply.count_lt stored] at received
    split at received
    · next both => exact ⟨both.2, both.1, fits_of_stored both.2 got stored⟩
    · exact absurd received (by simp)
  · intro good
    obtain ⟨mem, block, got, stored⟩ := stored_of_decodable fresh request good
    have small : mem.length < 2 ^ 32 := by
      rw [length_bufferMemory got]
      exact Nat.mod_lt _ (by norm_num)
    refine ⟨block, Option.bind_eq_some_iff.mpr ⟨mem, got, stored⟩, ?_⟩
    rw [onResponsed_eq small reply.count_lt stored, if_pos ⟨good.few, good.strings⟩]

/-- For a nil in the middle the scripts read 2^64 - 1 bytes. -/
theorem nil_not_decoded :
    ¬ Decodes (fun _ => 0) ⟨true, 1, 0, 0, 1, 10, 3, 7⟩ ⟨[some [97], none, some [98]], by decide⟩ := by
  rintro ⟨block, sent, received⟩
  have result : (onRequestGets (fun _ => 0) ⟨true, 1, 0, 0, 1, 10, 3, 7⟩
      ⟨[some [97], none, some [98]], by decide⟩).bind (fun b => (onResponsed b).map fun _ => ()) = none := by
    decide +kernel
  rw [sent, Option.bind_some, received] at result
  exact absurd result (by simp)

end GameServer.Db.MultiData
