/-
Module: GameServer.Share.User
Purpose: The class `UserData` of the shared scripts: reading and setting fields of its nested game data by a path of
  names, and the gold that is read and set so.
Trusted boundary: no argument is nil; game data is a tree, as it comes from JSON; no string is taken for a number
Main exports: Leaf, Value, Fields, UserData, descend, getGameField, setGameField, getGold, costGold, costGold_spec
-/
import GameServer.Lib.LuaM
import GameServer.Lib.LuaNumber

namespace GameServer.Share

open Lib Lib.LuaM

/-! ## Values

Records are trees of tables, and a field holds a number, a string, a truth value or a function.
-/

/-- A value that is not a table; functions are told by their name in the string library. -/
inductive Leaf where
  | string (s : String)
  | number (n : LuaNumber)
  | boolean (b : Bool)
  | function (name : String)
deriving DecidableEq

/-- A tree of tables. -/
inductive Value where
  | leaf (l : Leaf)
  | table (fields : List (Leaf × Value))

abbrev Fields := List (Leaf × Value)

/-- What a table has under a key. -/
def lookupField (key : Leaf) : Fields → Option Value
  | [] => none
  | (other, value) :: fields => if other = key then some value else lookupField key fields

/-- `t[key] = value`. -/
def setField (key : Leaf) (value : Value) : Fields → Fields
  | [] => [(key, value)]
  | (other, old) :: fields => if other = key then (other, value) :: fields else (other, old) :: setField key value fields

/-- `t[key] = nil`. -/
def eraseField (key : Leaf) (fields : Fields) : Fields := fields.filter fun field => field.1 ≠ key

@[simp] theorem lookupField_setField (key other : Leaf) (value : Value) (fields : Fields) :
    lookupField other (setField key value fields) = if other = key then some value else lookupField other fields := by
  induction fields with
  | nil => simp [setField, lookupField, eq_comm]
  | cons field fields ih =>
      obtain ⟨here, old⟩ := field
      by_cases isKey : here = key
      · subst isKey
        by_cases same : other = here
        · simp [setField, lookupField, same]
        · simp [setField, lookupField, same, Ne.symm same]
      · rw [setField, if_neg isKey, lookupField, lookupField, ih]
        by_cases same : other = key
        · simp [same, isKey]
        · simp [same]

/-- Setting what is there already changes nothing. -/
theorem setField_of_lookup {key : Leaf} {value : Value} {fields : Fields} (found : lookupField key fields = some value) :
    setField key value fields = fields := by
  induction fields with
  | nil => exact absurd found (by simp [lookupField])
  | cons field fields ih =>
      obtain ⟨here, old⟩ := field
      by_cases isKey : here = key
      · subst isKey
        rw [lookupField, if_pos rfl] at found
        rw [setField, if_pos rfl, Option.some.inj found]
      · rw [lookupField, if_neg isKey] at found
        rw [setField, if_neg isKey, ih found]

/-- The functions of the library that strings are indexed in; the scripts add the last two. -/
def stringLibrary : List String :=
  ["byte", "char", "dump", "find", "format", "gfind", "gmatch", "gsub", "len", "lower", "match", "rep", "reverse",
    "sub", "upper", "findLast", "split"]

/-- All values but nil and `false`. -/
def Value.truthy : Value → Bool
  | .leaf (.boolean b) => b
  | _ => true

/-- `IsTable`. -/
def Value.isTable : Value → Bool
  | .table _ => true
  | .leaf _ => false

/-- `t[key]`; nothing stands under NaN. -/
def readField (fields : Fields) (key : Leaf) : Option Value :=
  if key = .number .nan then none else lookupField key fields

@[simp] theorem readField_string (fields : Fields) (name : String) :
    readField fields (.string name) = lookupField (.string name) fields := by
  simp [readField]

/-- `value[key]`, where the inner none is nil: tables and strings can be indexed, and all else raises. -/
def Value.index : Value → Leaf → Option (Option Value)
  | .table fields, key => some (readField fields key)
  | .leaf (.string _), .string name => some (if name ∈ stringLibrary then some (.leaf (.function name)) else none)
  | .leaf (.string _), _ => some none
  | .leaf _, _ => none

/-! ## The class

The methods of `share/user.lua` that lead a path of names through a record.
-/

structure UserData where
  tbGameData : Option Fields
  bIsDirty : Bool

/-- `GetGameTable`. -/
def getGameTable (strTableName : Leaf) : LuaM UserData (Option Value) :=
  match strTableName with
  | .string _ => do
      let u ← get
      match u.tbGameData with
      | none => return none
      | some tbGameData => return lookupField strTableName tbGameData
  | _ => return none

/-- The loop of `GetGameField`: a name that is not found is passed over, and the others are counted. -/
def descend (tbTempData : Value) (nTempTableDepth : Nat) : List Leaf → Option (Value × Nat)
  | [] => some (tbTempData, nTempTableDepth)
  | field :: fields =>
      match tbTempData.index field with
      | none => none
      | some (some value) =>
          if value.truthy then descend value (nTempTableDepth + 1) fields
          else descend tbTempData nTempTableDepth fields
      | some none => descend tbTempData nTempTableDepth fields

/-- `GetGameField`. -/
def getGameField (strTableName : Leaf) (tbFieldArgs : List Leaf) : LuaM UserData (Option Value) :=
  match strTableName with
  | .string _ => do
      match ← getGameTable strTableName with
      | none => return none
      | some tbGameTableData =>
          if !tbGameTableData.truthy then return none
          else if tbFieldArgs.any fun field => field = .boolean false then return none
          else
            match descend tbGameTableData 0 tbFieldArgs with
            | none => raise
            | some (tbTempData, nTempTableDepth) =>
                if tbFieldArgs.length > nTempTableDepth then return none else return some tbTempData
  | _ => return none

/-- The loop of `SetGameField` that finds `bParamIsOk`: it looks every argument up in the same table, and asks about
the last one. -/
def paramIsOk (tbTempData : Value) : List Leaf → Option Bool
  | [] => some false
  | [field] => (tbTempData.index field).map fun found => !(found.any Value.isTable)
  | field :: fields => (tbTempData.index field).bind fun _ => paramIsOk tbTempData fields

/-- `SetFieldRecursively`, on the table that stands under `strTableName`; `SetField` is a global that nothing sets. -/
def setFieldRecursively (strTableName : Leaf) (tb : Value) (args : List Leaf) : LuaM UserData Unit :=
  match args with
  | [] => raise
  | strField :: tbArgs =>
      match tb.index strField with
      | none => raise
      | some found =>
          if found.any Value.isTable then raise
          else
            match tb with
            | .leaf _ => raise
            | .table fields =>
                if strField = .number .nan then raise
                else
                  let changed :=
                    match tbArgs.getLast? with
                    | some val => setField strField (.leaf val) fields
                    | none => eraseField strField fields
                  modify fun u =>
                    { u with tbGameData := u.tbGameData.map (setField strTableName (.table changed)) }

/-- `SetGameField`: the last argument is the value. -/
def setGameField (strTableName : Leaf) (tbFieldArgs : List Leaf) : LuaM UserData Unit :=
  match strTableName with
  | .string _ => do
      match ← getGameTable strTableName with
      | none => pure ()
      | some tbGameTableData =>
          if !tbGameTableData.truthy then pure ()
          else if tbFieldArgs.any fun field => field = .boolean false then pure ()
          else
            match paramIsOk tbGameTableData tbFieldArgs with
            | none => raise
            | some false => pure ()
            | some true => do
                setFieldRecursively strTableName tbGameTableData tbFieldArgs
                modify fun u => { u with bIsDirty := true }
  | _ => pure ()

/-! ## Gold

The methods for gold, among them `CostGold`, which adds a global that nothing sets.
-/

/-- `GetGold`. -/
def getGold : LuaM UserData (Option Value) := getGameField (.string "BaseInfo") [.string "Gold"]

/-- `SetGold`. -/
def setGold (nVal : LuaNumber) : LuaM UserData Unit := setGameField (.string "BaseInfo") [.string "Gold", .number nVal]

/-- `+` of numbers; it raises for nil. -/
def plus : Option Value → Option Value → LuaM UserData LuaNumber
  | some (.leaf (.number a)), some (.leaf (.number b)) => pure (a.add b)
  | _, _ => raise

/-- The global that `CostGold` adds, which is the parameter of `AddGold`: nothing sets it. -/
def nAddVal : Option Value := none

/-- `CostGold`; it returns false or nothing. -/
def costGold (nCostVal : LuaNumber) : LuaM UserData (Option Bool) :=
  if nCostVal.lt 0 then return some false
  else do
    let nVal ← plus (← getGold) nAddVal
    setGold nVal
    return none

/-- Reading a field changes nothing. -/
theorem getGameField_keeps (strTableName : Leaf) (tbFieldArgs : List Leaf) :
    Keeps (· = ·) (getGameField strTableName tbFieldArgs) := by
  have table : Keeps (· = ·) (getGameTable strTableName) := by
    unfold getGameTable
    split
    · refine Keeps.get.bind fun u => ?_
      split <;> exact Keeps.pure _
    · exact Keeps.pure _
  unfold getGameField
  split
  · refine table.bind fun found => ?_
    split
    · exact Keeps.pure _
    · refine Keeps.ite (Keeps.pure _) (Keeps.ite (Keeps.pure _) ?_)
      split
      · exact Keeps.raise
      · exact Keeps.ite (Keeps.pure _) (Keeps.pure _)
  · exact Keeps.pure _

/-- `CostGold` never takes gold: it refuses a negative cost, and raises for every other. -/
theorem costGold_spec (nCostVal : LuaNumber) (u : UserData) :
    wp (costGold nCostVal) (fun refused t => refused = some false ∧ nCostVal.lt 0 = true ∧ t = u) (fun t => t = u) u := by
  unfold costGold
  split
  next negative => exact ⟨rfl, negative, rfl⟩
  next =>
    rw [wp_bind]
    refine wp_mono (getGameField_keeps _ _ u) (fun gold t same => ?_) (fun t same => same.symm)
    subst same
    have raises : plus gold nAddVal = raise := by
      unfold plus nAddVal
      split
      · contradiction
      · rfl
    rw [raises, wp_bind, wp_raise]

end GameServer.Share
