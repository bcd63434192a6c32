/-
Module: GameServer.Logic.RoomService
Purpose: The logic server's `GameSettlement`: which rows of a settlement record reach the stored gold of
  their users, and when all of them do.
Trusted boundary: the database keeps what it is told; `G_UserManager:SaveUserData` hands over the whole
  record, of which the gold is modelled
Main exports: SettlementRow, LogicState, gameSettlement, Applicable, settlement_complete_iff
-/
import GameServer.Lib.LuaM
import GameServer.Script.UserManager

namespace GameServer.Logic

open Lib Lib.LuaM Script
open Arithmetic (rounding)

/-! ## The service

`GameSettlement` on the logic server, row by row; a row whose user is not in the pool raises, and ends the loop.
-/

/-- A row `{nUserId, nCount, nGold}` of a settlement record. -/
structure SettlementRow where
  nUserId : Int
  nCount : ℚ
  nGold : ℚ
deriving DecidableEq

/-- The logic server: its user pool, the gold in the stored records, and the rows that were applied and
saved, which no function reads. -/
structure LogicState where
  pool : UserPool
  stored : Int → ℚ
  applied : List SettlementRow

namespace LogicState

/-- The gold a user has: that of the object in the pool, or else the stored gold. -/
def goldOf (s : LogicState) (nUserId : Int) : ℚ :=
  match s.pool.getUserObject nUserId with
  | some objUser => objUser.gold
  | none => s.stored nUserId

end LogicState

/-- `SaveUserData`. -/
def saveUserData (objUser : UserData) : LuaM LogicState Unit :=
  modify fun s =>
    if objUser.bIsDirty then
      { s with stored := Function.update s.stored objUser.nUserId objUser.gold }
    else
      s

variable (script : UserScript)

section Service

variable [Arithmetic]

/-- The body of the loop of `GameSettlement`.  There is no object for a user who was released, and
calling a method of nil raises. -/
def settleRow (tbUserInfo : SettlementRow) : LuaM LogicState Unit := do
  let s ← get
  match s.pool.getUserObject tbUserInfo.nUserId with
  | none => raise
  | some objUser =>
      match objUser.changeGold script tbUserInfo.nCount with
      | none => raise
      | some changed => do
          modify fun s => { s with pool := s.pool.cacheUserObject changed }
          saveUserData changed
          modify fun s => { s with applied := s.applied ++ [tbUserInfo] }

/-- `ERROR_CODE.SYSTEM.OK`. -/
def okCode : Nat := 0

/-- `GameSettlement`; none stands for nil and for what is not a table.  It returns an error code only
when there is nothing to do. -/
def gameSettlement (tbSettlement : Option (List SettlementRow)) : LuaM LogicState (Option Nat) :=
  match tbSettlement with
  | none => return some okCode
  | some rows =>
      if rows.length ≤ 0 then
        return some okCode
      else do
        forEach (settleRow script) rows
        return none

end Service

/-! ## One row

A row raises exactly where it is not applicable; otherwise only the gold of its user changes.
-/

/-- The row's user is in the pool, and the method the row needs does not raise. -/
def Applicable (s : LogicState) (row : SettlementRow) : Prop :=
  (s.pool.getUserObject row.nUserId).isSome ∧ script.raisesFor row.nUserId row.nCount = false

instance (s : LogicState) (row : SettlementRow) : Decidable (Applicable script s row) :=
  inferInstanceAs (Decidable (_ ∧ _))

/-- `t` is `s` after the rows: the counts of a user's rows were added to the gold in turn. -/
structure Applied [Arithmetic] (s : LogicState) (rows : List SettlementRow) (t : LogicState) : Prop where
  log : t.applied = s.applied ++ rows
  cached : ∀ u, (t.pool.getUserObject u).isSome = (s.pool.getUserObject u).isSome
  gold : ∀ u, t.goldOf u = ((rows.filter (·.nUserId = u)).map (·.nCount)).foldl rounding.add (s.goldOf u)
  saved : ∀ row ∈ rows, t.stored row.nUserId = t.goldOf row.nUserId
  others : ∀ u, (∀ row ∈ rows, row.nUserId ≠ u) → t.stored u = s.stored u

theorem Applied.refl [Arithmetic] (s : LogicState) : Applied s [] s where
  log := by simp
  cached _ := rfl
  gold _ := by simp
  saved _ member := absurd member (by simp)
  others _ _ := rfl

/-- Records that are applied one after the other are applied as one. -/
theorem Applied.trans [Arithmetic] {s t r : LogicState} {xs ys : List SettlementRow} (first : Applied s xs t)
    (second : Applied t ys r) : Applied s (xs ++ ys) r where
  log := by rw [second.log, first.log, List.append_assoc]
  cached u := (second.cached u).trans (first.cached u)
  gold u := by
    rw [second.gold, first.gold, List.filter_append, List.map_append, List.foldl_append]
  saved row member := by
    by_cases later : ∃ other ∈ ys, other.nUserId = row.nUserId
    · obtain ⟨other, inYs, same⟩ := later
      rw [← same]
      exact second.saved other inYs
    · have absent : ∀ other ∈ ys, other.nUserId ≠ row.nUserId :=
        fun other inYs same => later ⟨other, inYs, same⟩
      have noChange : ys.filter (·.nUserId = row.nUserId) = [] := by
        apply List.filter_eq_nil_iff.mpr
        intro other inYs
        simpa using absent other inYs
      have inXs : row ∈ xs := by
        rcases List.mem_append.mp member with here | there
        · exact here
        · exact absurd rfl (absent row there)
      rw [second.others _ absent, first.saved row inXs, second.gold, noChange]
      simp
  others u absent := by
    rw [second.others u fun row member => absent row (List.mem_append_right xs member),
      first.others u fun row member => absent row (List.mem_append_left ys member)]

/-- A row that is not applicable raises, and changes nothing. -/
theorem settleRow_of_not_applicable [Arithmetic] {s : LogicState} {row : SettlementRow}
    (blocked : ¬ Applicable script s row) : exec (settleRow script row) s = (.error (), s) := by
  cases found : s.pool.getUserObject row.nUserId with
  | none => simp [settleRow, exec_bind, found]
  | some objUser =>
      have id_eq : objUser.nUserId = row.nUserId := s.pool.nUserId_of_get found
      have raises : script.raisesFor row.nUserId row.nCount = true := by
        by_contra fine
        exact blocked ⟨by simp [found], by simpa using fine⟩
      simp [settleRow, exec_bind, found, UserData.changeGold_eq, id_eq, raises]

/-- An applicable row changes the gold of its user by its count, in the pool and in the store. -/
theorem settleRow_of_applicable [Arithmetic] {s : LogicState} {row : SettlementRow}
    (applicable : Applicable script s row) :
    ∃ t, exec (settleRow script row) s = (.ok (), t) ∧ Applied s [row] t := by
  obtain ⟨isCached, fine⟩ := applicable
  obtain ⟨objUser, found⟩ := Option.isSome_iff_exists.mp isCached
  have id_eq : objUser.nUserId = row.nUserId := s.pool.nUserId_of_get found
  let changed := objUser.setGold (rounding.add objUser.gold row.nCount)
  let t : LogicState :=
    { pool := s.pool.cacheUserObject changed
      stored := Function.update s.stored row.nUserId changed.gold
      applied := s.applied ++ [row] }
  have object : ∀ u, t.pool.getUserObject u =
      if u = row.nUserId then some changed else s.pool.getUserObject u := by
    intro u
    rw [← id_eq]
    exact s.pool.getUserObject_cache changed u
  have goldBefore : s.goldOf row.nUserId = objUser.gold := by
    simp [LogicState.goldOf, found]
  have goldAfter : t.goldOf row.nUserId = rounding.add objUser.gold row.nCount := by
    simp [LogicState.goldOf, object, changed]
  refine ⟨t, ?_, rfl, ?_, ?_, ?_, ?_⟩
  · simp [settleRow, exec_bind, found, UserData.changeGold_eq, id_eq, fine, saveUserData,
      UserData.setGold, t, changed]
  · intro u
    rw [object]
    split
    · next same => simp [same, found]
    · rfl
  · intro u
    by_cases same : u = row.nUserId
    · subst same
      rw [goldAfter, goldBefore]
      simp
    · have other : ¬ row.nUserId = u := fun eq => same eq.symm
      have stays : t.goldOf u = s.goldOf u := by
        simp [LogicState.goldOf, object, same, t]
      simp [stays, other]
  · intro other member
    rw [List.mem_singleton.mp member, goldAfter]
    simp [t, changed]
  · intro u absent
    have other : u ≠ row.nUserId := fun same => absent row (by simp) same.symm
    simp [t, other]

/-! ## The whole record

The loop applies the rows up to the first that is not applicable, so a record is settled completely exactly where
there is none.
-/

/-- Rows stay applicable while others are applied. -/
theorem Applied.applicable_iff [Arithmetic] {s t : LogicState} {rows : List SettlementRow}
    (applied : Applied s rows t) (row : SettlementRow) :
    Applicable script t row ↔ Applicable script s row := by
  unfold Applicable
  rw [applied.cached]

/-- The loop applies the rows in front of the first one that is not applicable, and raises there. -/
theorem settleRows_spec [Arithmetic] (rows : List SettlementRow) (s : LogicState) :
    ∃ t result, exec (forEach (settleRow script) rows) s = (result, t) ∧
      Applied s (rows.takeWhile fun row => Applicable script s row) t := by
  induction rows generalizing s with
  | nil => exact ⟨s, .ok (), rfl, Applied.refl s⟩
  | cons row rows ih =>
      rw [forEach, exec_bind]
      by_cases applicable : Applicable script s row
      · obtain ⟨m, step, first⟩ := settleRow_of_applicable script applicable
        obtain ⟨t, result, rest, second⟩ := ih m
        refine ⟨t, result, ?_, ?_⟩
        · rw [step]
          exact rest
        · rw [List.takeWhile_cons_of_pos (by simpa using applicable)]
          simp only [first.applicable_iff] at second
          exact first.trans second
      · refine ⟨s, .error (), ?_, ?_⟩
        · rw [settleRow_of_not_applicable script applicable]
        · rw [List.takeWhile_cons_of_neg (by simpa using applicable)]
          exact Applied.refl s

/-- `GameSettlement` applies the rows in front of the first one that is not applicable. -/
theorem gameSettlement_applied [Arithmetic] (rows : List SettlementRow) (s : LogicState) :
    Applied s (rows.takeWhile fun row => Applicable script s row)
      (exec (gameSettlement script (some rows)) s).2 := by
  obtain ⟨t, result, run, applied⟩ := settleRows_spec script rows s
  have final : (exec (gameSettlement script (some rows)) s).2 = t := by
    unfold gameSettlement
    by_cases empty : rows.length ≤ 0
    · obtain rfl := List.length_eq_zero_iff.mp (Nat.le_zero.mp empty)
      cases run
      rfl
    · simp only [if_neg empty, exec_bind, run]
      cases result <;> rfl
  rw [final]
  exact applied

/-- Every row is applied and saved exactly once: the log has the rows, in their order, the counts of every user's rows
were added to the gold, each once and in their order, it is stored, and nobody else's stored gold has changed. -/
def SettledCompletely [Arithmetic] (rows : List SettlementRow) (s : LogicState) : Prop :=
  Applied s rows (exec (gameSettlement script (some rows)) s).2

/-- A record is applied completely exactly when every user in it is in the pool and no method that it
needs raises. -/
theorem settlement_complete_iff [Arithmetic] (rows : List SettlementRow) (s : LogicState) :
    SettledCompletely script rows s ↔ ∀ row ∈ rows, Applicable script s row := by
  have applied := gameSettlement_applied script rows s
  unfold SettledCompletely
  constructor
  · intro complete
    have whole : rows.takeWhile (fun row => Applicable script s row) = rows :=
      List.append_cancel_left (applied.log.symm.trans complete.log)
    intro row member
    rw [← whole] at member
    have applicable := List.mem_takeWhile_imp member
    exact of_decide_eq_true applicable
  · intro all
    have whole : rows.takeWhile (fun row => Applicable script s row) = rows := by
      apply List.takeWhile_eq_self_iff.mpr
      intro row member
      simpa using all row member
    rw [whole] at applied
    exact applied

open scoped DoubleArithmetic

/-- Two players have won; the first has disconnected and was released before the record arrives.  The
second gets nothing. -/
theorem settlement_stops_at_released : ¬ ∀ rows s, SettledCompletely .sound rows s := by
  intro complete
  let pool := ((UserPool.empty.cacheUserObject ⟨1, 100, false⟩).cacheUserObject
    ⟨2, 100, false⟩).releaseUserObject 1
  have log := (complete [⟨1, 5, 105⟩, ⟨2, 5, 105⟩] ⟨pool, fun _ => 100, []⟩).log
  exact absurd log (by decide)

end GameServer.Logic
