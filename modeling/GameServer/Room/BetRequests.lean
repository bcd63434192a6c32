/-
Module: GameServer.Room.BetRequests
Purpose: `ClientBet` on whatever a client sends: any Lua values, among them fractions, infinities and NaN, from a
  user in any state, and the requests after which it has done what it answers.
Trusted boundary: what the handlers log is not kept; a number is a key of a table like `{0,0,0,0}` when it is
  one of the whole numbers from 1 on
Main exports: BetTable, BetRoom, clientBet, betStep, WellFormed, Honoured, Handled, clientBet_honoured_iff
-/
import GameServer.Lib.LuaNumber
import GameServer.Logic.Profiles
import GameServer.Room.BetLedger

namespace GameServer.Room.BetRequests

open Lib LuaNumber Lib.LuaM
open Logic.Profiles (Argument)

/-! ## State

The part of a table that a bet reads or changes, with Lua numbers: a client can send any position and any bet.
-/

/-- What a bet reads and changes of a table. -/
structure BetTable where
  nState : Nat
  tbPlayerBet : List LuaNumber
  tbUserBet : Int → Option (List LuaNumber)

/-- The gold of the user objects, the tables of the users, and the tables. -/
structure BetRoom where
  gold : Int → Option LuaNumber
  userTableMap : Int → Option Nat
  tables : Nat → Option BetTable

namespace BetTable

/-- `BullFightingTableClass:new(nId)`. -/
def new : BetTable where
  nState := stateInit
  tbPlayerBet := []
  tbUserBet _ := none

/-- `GetSumOfUserBet`. -/
def getSumOfUserBet (t : BetTable) (nUserId : Int) : LuaNumber :=
  match t.tbUserBet nUserId with
  | some tbUserBet => tbUserBet.foldl add 0
  | none => 0

/-- The bets of a user, or those `MarkBet` makes for him. -/
def betRow (t : BetTable) (nUserId : Int) : List LuaNumber := (t.tbUserBet nUserId).getD [0, 0, 0, 0]

/-- The changes `InitGame` makes to what a bet reads. -/
def startGame (t : BetTable) : BetTable where
  nState := t.nState + 1
  tbPlayerBet := [0, 0, 0, 0]
  tbUserBet _ := none

/-- The callback of the timer a table has in its state. -/
def timerOver (t : BetTable) : BetTable :=
  if t.nState = stateInit then t
  else if t.nState = stateSettlement then startGame { t with nState := stateInit }
  else { t with nState := t.nState + 1 }

end BetTable

/-! ## Requests

Bets as the code handles them, key for key: a position that is no key of the list finds nil, and adding to nil raises.
-/

/-- The place of a key in a table `{0,0,0,0}`. -/
def place : LuaNumber → Option Nat
  | .finite q => if q.den = 1 ∧ 0 < q then some (q.num.toNat - 1) else none
  | _ => none

/-- `tb[key] + n` for a table of numbers: none when the entry is nil. -/
def plusAt (tb : List LuaNumber) (key n : LuaNumber) : Option (List LuaNumber) :=
  (place key).bind fun i => (tb[i]?).map fun old => tb.set i (old.add n)

def getTable (nTableId : Nat) : LuaM BetRoom BetTable := do
  let s ← get
  match s.tables nTableId with
  | some t => return t
  | none => raise

def setTable (nTableId : Nat) (t : BetTable) : LuaM BetRoom Unit :=
  modify fun s => { s with tables := Function.update s.tables nTableId (some t) }

/-- `MarkBet`. -/
def markBet (nTableId : Nat) (nUserId : Int) (nPosition nBet : LuaNumber) : LuaM BetRoom Unit := do
  if lt 0 nPosition && le nPosition 4 then do
    let t ← getTable nTableId
    match plusAt t.tbPlayerBet nPosition nBet with
    | none => raise
    | some tbPlayerBet => do
        setTable nTableId
          { t with
            tbPlayerBet := tbPlayerBet
            tbUserBet := Function.update t.tbUserBet nUserId (some (t.betRow nUserId)) }
        match plusAt (t.betRow nUserId) nPosition nBet with
        | none => raise
        | some tbUserBet =>
            setTable nTableId
              { t with
                tbPlayerBet := tbPlayerBet
                tbUserBet := Function.update t.tbUserBet nUserId (some tbUserBet) }
  else
    pure ()

variable (maxOdds : LuaNumber)

/-- `CheckBetOverRange`, with the gold of the user. -/
def checkBetOverRange (t : BetTable) (nUserId : Int) (nUserGold nBet : LuaNumber) : Bool :=
  lt (((t.getSumOfUserBet nUserId).add nBet).mul maxOdds) nUserGold

/-- `UserBet`. -/
def userBet (nTableId : Nat) (nUserId : Int) (nUserGold nPosition nBet : LuaNumber) :
    LuaM BetRoom BetCode := do
  let t ← getTable nTableId
  if le nPosition 0 || lt 4 nPosition then
    return .paramterError
  else if t.nState ≠ stateBet then
    return .canNotBet
  else if !checkBetOverRange maxOdds t nUserId nUserGold nBet then
    return .betIsTooLarge
  else do
    markBet nTableId nUserId nPosition nBet
    return .ok

/-- `ClientBet`, for the current user. -/
def clientBet (nUserId : Int) (nPosition nBet : Argument) : LuaM BetRoom BetCode :=
  match nPosition with
  | .number nPosition =>
      if lt nPosition 0 then return .paramterError
      else
        match nBet with
        | .number nBet =>
            if lt nBet 0 then return .paramterError
            else do
              let s ← get
              match s.gold nUserId, s.userTableMap nUserId with
              | some nUserGold, some nTableId => userBet maxOdds nTableId nUserId nUserGold nPosition nBet
              | _, _ => raise
        | _ => return .paramterError
  | _ => return .paramterError

/-! ## Runs

Tables as the room server makes them: entered, played at, and bet at.
-/

/-- What happens in a room server: the object of a user is made, changed or released, a user enters and gets
a seat at a table, the timer of a table rings, a user sends a bet. -/
inductive BetCall where
  | object (nUserId : Int) (nGold : Option LuaNumber)
  | enter (nUserId : Int) (nTableId : Nat)
  | timerOver (nTableId : Nat)
  | bet (nUserId : Int) (nPosition nBet : Argument)

def BetRoom.empty : BetRoom where
  gold _ := none
  userTableMap _ := none
  tables _ := none

/-- The table a user sits down at, after `CheckState`. -/
def BetTable.entered (table : Option BetTable) : BetTable :=
  let t := table.getD .new
  if t.nState = stateInit then t.startGame else t

def betStep (s : BetRoom) : BetCall → BetRoom
  | .object nUserId nGold => { s with gold := Function.update s.gold nUserId nGold }
  | .enter nUserId nTableId =>
      { s with
        userTableMap := Function.update s.userTableMap nUserId (some nTableId)
        tables := Function.update s.tables nTableId (some (.entered (s.tables nTableId))) }
  | .timerOver nTableId =>
      { s with
        tables := Function.update s.tables nTableId ((s.tables nTableId).map BetTable.timerOver) }
  | .bet nUserId nPosition nBet => (exec (clientBet maxOdds nUserId nPosition nBet) s).2

/-- A table that has left state INIT has four totals, and the bets of a user are four. -/
structure WellFormed (t : BetTable) : Prop where
  totals : t.nState ≠ stateInit → t.tbPlayerBet.length = 4
  rows : ∀ u row, t.tbUserBet u = some row → row.length = 4

theorem WellFormed.betRow {t : BetTable} (ok : WellFormed t) (u : Int) : (t.betRow u).length = 4 := by
  unfold BetTable.betRow
  cases found : t.tbUserBet u with
  | none => rfl
  | some row => exact ok.rows u row found

theorem WellFormed.startGame (t : BetTable) : WellFormed t.startGame where
  totals _ := rfl
  rows _ _ found := absurd found (by simp [BetTable.startGame])

theorem WellFormed.timerOver {t : BetTable} (ok : WellFormed t) : WellFormed t.timerOver := by
  unfold BetTable.timerOver
  split
  · exact ok
  · next started =>
      split
      · exact .startGame _
      · exact ⟨fun _ => ok.totals started, ok.rows⟩

theorem WellFormed.entered {table : Option BetTable} (ok : ∀ t ∈ table, WellFormed t) :
    WellFormed (.entered table) := by
  have before : WellFormed (table.getD .new) := by
    cases table with
    | none => exact ⟨fun started => absurd rfl started, fun _ _ found => absurd found (by simp [BetTable.new])⟩
    | some t => exact ok t rfl
  unfold BetTable.entered
  dsimp only
  split
  · exact .startGame _
  · exact before

/-- Every table is well formed. -/
def TablesOk (s : BetRoom) : Prop := ∀ nTableId, ∀ t ∈ s.tables nTableId, WellFormed t

theorem TablesOk.update {s : BetRoom} (ok : TablesOk s) {nTableId : Nat} {table : Option BetTable}
    (new : ∀ t ∈ table, WellFormed t) (nTableId' : Nat) :
    ∀ t ∈ Function.update s.tables nTableId table nTableId', WellFormed t := by
  by_cases same : nTableId' = nTableId
  · subst same
    rw [Function.update_self]
    exact new
  · rw [Function.update_of_ne same]
    exact ok nTableId'

/-! ## One entry grows

Adding to an entry of a list whose keys are the numbers from 1 on.
-/

theorem place_add_one (i : Nat) : place (.finite (i + 1)) = some i := by
  have whole : ((i : ℚ) + 1).den = 1 := by
    exact_mod_cast Rat.den_natCast (i + 1)
  have num : ((i : ℚ) + 1).num = i + 1 := by
    exact_mod_cast Rat.num_natCast (i + 1)
  have positive : (0 : ℚ) < i + 1 := by positivity
  simp [place, whole, num, positive]

/-- A key that stands for a place is the whole number behind it. -/
theorem eq_of_place {n : LuaNumber} {i : Nat} (found : place n = some i) : n = .finite (i + 1) := by
  cases n with
  | finite q =>
      simp only [place, Option.ite_none_right_eq_some, Option.some.injEq] at found
      obtain ⟨⟨whole, positive⟩, index⟩ := found
      have numPositive : 0 < q.num := Rat.num_pos.mpr positive
      have num : q.num = i + 1 := by omega
      rw [← Rat.coe_int_num_of_den_eq_one whole, num]
      push_cast
      rfl
  | posInf => cases found
  | negInf => cases found
  | nan => cases found

/-- Inside the list the entry grows. -/
theorem plusAt_eq {tb : List LuaNumber} {i : Nat} (inside : i < tb.length) (n : LuaNumber) :
    plusAt tb (.finite (i + 1)) n = some (tb.set i (tb[i].add n)) := by
  simp [plusAt, place_add_one, inside]

/-! ## What a request did

What the claim asks of a request, and the condition on it: what passes the tests must have a place to be added to.
-/

/-- The bet was added to one of four entries of the totals and to the same one of the user. -/
def BetAdded (nUserId : Int) (nBet : LuaNumber) (t t' : BetTable) : Prop :=
  ∃ i : Nat, i < 4 ∧ plusAt t.tbPlayerBet (.finite (i + 1)) nBet = some t'.tbPlayerBet ∧
    ∃ row, plusAt (t.betRow nUserId) (.finite (i + 1)) nBet = some row ∧
      t'.tbUserBet = Function.update t.tbUserBet nUserId (some row)

/-- The position is one of the four whole numbers; or it is NaN, and the user has entries that adding the bet
does not change. -/
def Places (t : BetTable) (nUserId : Int) (nPosition nBet : LuaNumber) : Prop :=
  (∃ i : Nat, i < 4 ∧ nPosition = .finite (i + 1)) ∨
    (nPosition = .nan ∧ BetAdded nUserId nBet t t)

/-- The bet passes all tests of `UserBet`. -/
def Passes (t : BetTable) (nUserId : Int) (nUserGold nPosition nBet : LuaNumber) : Prop :=
  le nPosition 0 = false ∧ lt 4 nPosition = false ∧ t.nState = stateBet ∧
    checkBetOverRange maxOdds t nUserId nUserGold nBet = true

/-- What passes them has a place. -/
def Handled (t : BetTable) (nUserId : Int) (nUserGold nPosition nBet : LuaNumber) : Prop :=
  Passes maxOdds t nUserId nUserGold nPosition nBet → Places t nUserId nPosition nBet

/-- A request with two numbers, none of them negative, comes from a user with an object and a table that
handles it. -/
def Answerable (s : BetRoom) (nUserId : Int) (nPosition nBet : Argument) : Prop :=
  ∀ position n, nPosition = .number position → nBet = .number n → lt position 0 = false → lt n 0 = false →
    ∃ nUserGold nTableId t, s.gold nUserId = some nUserGold ∧ s.userTableMap nUserId = some nTableId ∧
      s.tables nTableId = some t ∧ Handled maxOdds t nUserId nUserGold position n

/-- `MarkBet` on one of the four positions of a started game. -/
theorem markBet_whole {s : BetRoom} {nTableId : Nat} {t : BetTable} (found : s.tables nTableId = some t)
    (u : Int) {i : Nat} (inside : i < 4) {tbPlayerBet tbUserBet : List LuaNumber} {nBet : LuaNumber}
    (total : plusAt t.tbPlayerBet (.finite (i + 1)) nBet = some tbPlayerBet)
    (own : plusAt (t.betRow u) (.finite (i + 1)) nBet = some tbUserBet) :
    exec (markBet nTableId u (.finite (i + 1)) nBet) s =
      (.ok (), { s with tables := Function.update s.tables nTableId (some
        { t with
          tbPlayerBet := tbPlayerBet
          tbUserBet := Function.update t.tbUserBet u (some tbUserBet) }) }) := by
  have low : lt 0 (.finite (i + 1)) = true := by
    rw [ofNat_eq, lt_finite]
    exact decide_eq_true (by positivity)
  have high : le (.finite (i + 1)) 4 = true := by
    rw [ofNat_eq, le_finite]
    apply decide_eq_true
    exact_mod_cast Nat.succ_le_of_lt inside
  simp only [markBet, low, high, Bool.and_self, if_true, getTable, exec_bind, exec_get, found, exec_pure,
    total, own, setTable, exec_modify, Function.update_idem]

/-- On a fraction it raises. -/
theorem markBet_fraction {s : BetRoom} {nTableId : Nat} {t : BetTable} (found : s.tables nTableId = some t)
    (u : Int) {q : ℚ} (low : 0 < q) (high : q ≤ 4) (noPlace : place (.finite q) = none) (nBet : LuaNumber) :
    exec (markBet nTableId u (.finite q) nBet) s = (.error (), s) := by
  have passes : (lt 0 (.finite q) && le (.finite q) 4) = true := by
    rw [ofNat_eq, ofNat_eq, lt_finite, le_finite]
    simpa using ⟨low, high⟩
  simp only [markBet, passes, if_true, getTable, exec_bind, exec_get, found, exec_pure, plusAt, noPlace,
    Option.bind_none, exec_raise]

/-- On NaN it does nothing. -/
theorem markBet_nan (s : BetRoom) (nTableId : Nat) (u : Int) (nBet : LuaNumber) :
    exec (markBet nTableId u .nan nBet) s = (.ok (), s) := rfl

/-! ## When a request is honoured

The tests let through what has no place: positions that are no whole number, and tables without bets.
-/

variable {maxOdds}

/-- Past its tests `UserBet` does what `MarkBet` does. -/
theorem userBet_passed {s : BetRoom} {nTableId : Nat} {t : BetTable} (found : s.tables nTableId = some t)
    {u : Int} {nUserGold nPosition nBet : LuaNumber}
    (passes : Passes maxOdds t u nUserGold nPosition nBet) :
    exec (userBet maxOdds nTableId u nUserGold nPosition nBet) s =
      exec (do markBet nTableId u nPosition nBet; return BetCode.ok) s := by
  obtain ⟨notBelow, notAbove, isBet, enough⟩ := passes
  simp only [userBet, getTable, exec_bind, exec_get, found, exec_pure, notBelow, notAbove, isBet, enough,
    Bool.or_self, Bool.false_eq_true, if_false, ne_eq, not_true_eq_false, Bool.not_true]

/-- What its tests refuse changes nothing. -/
theorem userBet_refused {s : BetRoom} {nTableId : Nat} {t : BetTable} (found : s.tables nTableId = some t)
    {u : Int} {nUserGold nPosition nBet : LuaNumber}
    (refused : ¬ Passes maxOdds t u nUserGold nPosition nBet) :
    ∃ code, code ≠ .ok ∧
      exec (userBet maxOdds nTableId u nUserGold nPosition nBet) s = (.ok code, s) := by
  simp only [userBet, getTable, exec_bind, exec_get, found, exec_pure]
  by_cases outside : (le nPosition 0 || lt 4 nPosition) = true
  · exact ⟨.paramterError, by decide, by rw [if_pos outside]; rfl⟩
  · by_cases isBet : t.nState = stateBet
    · have poor : (!checkBetOverRange maxOdds t u nUserGold nBet) = true := by
        rw [Bool.not_eq_true', ← Bool.not_eq_true]
        intro enough
        apply refused
        rw [Bool.not_eq_true, Bool.or_eq_false_iff] at outside
        exact ⟨outside.1, outside.2, isBet, enough⟩
      refine ⟨.betIsTooLarge, by decide, ?_⟩
      rw [if_neg outside, if_neg (not_not.mpr isBet), if_pos poor]
      rfl
    · refine ⟨.canNotBet, by decide, ?_⟩
      rw [if_neg outside, if_pos isBet]
      rfl

/-- The ways `UserBet` ends: it refuses, marks the bet, raises on a fraction, or passes NaN through. -/
theorem userBet_cases {s : BetRoom} {nTableId : Nat} {t : BetTable} (found : s.tables nTableId = some t)
    (ok : WellFormed t) (u : Int) (nUserGold nPosition nBet : LuaNumber) :
    (¬ Passes maxOdds t u nUserGold nPosition nBet ∧ ∃ code, code ≠ .ok ∧
      exec (userBet maxOdds nTableId u nUserGold nPosition nBet) s = (.ok code, s)) ∨
    (Passes maxOdds t u nUserGold nPosition nBet ∧
      ((∃ (i : Nat) (t' : BetTable), i < 4 ∧ nPosition = .finite (i + 1) ∧ t'.nState = t.nState ∧
        BetAdded u nBet t t' ∧ exec (userBet maxOdds nTableId u nUserGold nPosition nBet) s =
          (.ok .ok, { s with tables := Function.update s.tables nTableId (some t') })) ∨
      (place nPosition = none ∧ nPosition ≠ .nan ∧
        exec (userBet maxOdds nTableId u nUserGold nPosition nBet) s = (.error (), s)) ∨
      (nPosition = .nan ∧ exec (userBet maxOdds nTableId u nUserGold nPosition nBet) s = (.ok .ok, s)))) := by
  by_cases passes : Passes maxOdds t u nUserGold nPosition nBet
  · refine .inr ⟨passes, ?_⟩
    have started : t.nState ≠ stateInit := by
      rw [passes.2.2.1]
      decide
    rw [userBet_passed found passes, exec_bind]
    rcases range_or_nan passes.1 passes.2.1 with ⟨q, rfl, low, high⟩ | rfl
    · cases isPlace : place (.finite q) with
      | some i =>
          have isPosition := eq_of_place isPlace
          have inside : i < 4 := by
            cases isPosition
            exact_mod_cast lt_of_lt_of_le (lt_add_one (i : ℚ)) high
          rw [isPosition]
          have room : i < t.tbPlayerBet.length := by rw [ok.totals started]; exact inside
          have rowRoom : i < (t.betRow u).length := by rw [ok.betRow u]; exact inside
          have total := plusAt_eq room nBet
          have own := plusAt_eq rowRoom nBet
          let t' : BetTable :=
            { t with
              tbPlayerBet := t.tbPlayerBet.set i (t.tbPlayerBet[i].add nBet)
              tbUserBet := Function.update t.tbUserBet u
                (some ((t.betRow u).set i ((t.betRow u)[i].add nBet))) }
          refine .inl ⟨i, t', inside, rfl, rfl, ⟨i, inside, total, _, own, rfl⟩, ?_⟩
          rw [markBet_whole found u inside total own]
          rfl
      | none => exact .inr (.inl ⟨rfl, by simp, by rw [markBet_fraction found u low high isPlace]⟩)
    · exact .inr (.inr ⟨rfl, by rw [markBet_nan]; rfl⟩)
  · exact .inl ⟨passes, userBet_refused found passes⟩

/-- A request that is refused, or a call of `UserBet`, or an error. -/
theorem clientBet_cases (s : BetRoom) (u : Int) (nPosition nBet : Argument) :
    (exec (clientBet maxOdds u nPosition nBet) s = (.ok .paramterError, s) ∧
      Answerable maxOdds s u nPosition nBet) ∨
    ∃ position n, nPosition = .number position ∧ nBet = .number n ∧ lt position 0 = false ∧
      lt n 0 = false ∧
      ((∃ nUserGold nTableId, s.gold u = some nUserGold ∧ s.userTableMap u = some nTableId ∧
        exec (clientBet maxOdds u nPosition nBet) s =
          exec (userBet maxOdds nTableId u nUserGold position n) s) ∨
      ((s.gold u = none ∨ s.userTableMap u = none) ∧
        exec (clientBet maxOdds u nPosition nBet) s = (.error (), s))) := by
  cases nPosition with
  | number position =>
      cases nBet with
      | number n =>
          by_cases negative : lt position 0 = true ∨ lt n 0 = true
          · refine .inl ⟨?_, ?_⟩
            · rcases negative with position_neg | n_neg
              · simp only [clientBet, position_neg, if_true, exec_pure]
              · by_cases position_neg : lt position 0 = true
                · simp only [clientBet, position_neg, if_true, exec_pure]
                · simp only [clientBet, if_neg position_neg, n_neg, if_true, exec_pure]
            · intro position' n' same same' notBelow notBelow'
              cases same
              cases same'
              rcases negative with position_neg | n_neg
              · rw [notBelow] at position_neg
                cases position_neg
              · rw [notBelow'] at n_neg
                cases n_neg
          · obtain ⟨notBelow, notBelow'⟩ := not_or.mp negative
            rw [Bool.not_eq_true] at notBelow notBelow'
            refine .inr ⟨position, n, rfl, rfl, notBelow, notBelow', ?_⟩
            simp only [clientBet, notBelow, notBelow', Bool.false_eq_true, if_false, exec_bind, exec_get]
            cases gold : s.gold u with
            | none => exact .inr ⟨.inl rfl, by simp⟩
            | some nUserGold =>
                cases table : s.userTableMap u with
                | none => exact .inr ⟨.inr rfl, by simp⟩
                | some nTableId => exact .inl ⟨nUserGold, nTableId, rfl, rfl, by simp⟩
      | _ =>
          refine .inl ⟨?_, fun _ _ _ same => by cases same⟩
          by_cases position_neg : lt position 0 = true
          · simp only [clientBet, position_neg, if_true, exec_pure]
          · simp only [clientBet, if_neg position_neg, exec_pure]
  | _ => exact .inl ⟨rfl, fun _ _ same => by cases same⟩

/-- Without a table the first method call raises. -/
theorem userBet_no_table {s : BetRoom} {nTableId : Nat} (missing : s.tables nTableId = none) (u : Int)
    (nUserGold nPosition nBet : LuaNumber) :
    exec (userBet maxOdds nTableId u nUserGold nPosition nBet) s = (.error (), s) := by
  simp only [userBet, getTable, exec_bind, exec_get, missing, exec_raise]

theorem length_plusAt {tb tb' : List LuaNumber} {key n : LuaNumber} (plus : plusAt tb key n = some tb') :
    tb'.length = tb.length := by
  obtain ⟨i, -, found⟩ := Option.bind_eq_some_iff.mp plus
  obtain ⟨old, -, rfl⟩ := Option.map_eq_some_iff.mp found
  exact List.length_set ..

/-- A bet that is added keeps the lists as long as they are. -/
theorem BetAdded.wellFormed {u : Int} {nBet : LuaNumber} {t t' : BetTable} (added : BetAdded u nBet t t')
    (ok : WellFormed t) (state : t'.nState = t.nState) : WellFormed t' := by
  obtain ⟨i, -, total, row, own, users⟩ := added
  refine ⟨fun started => ?_, fun v other found => ?_⟩
  · rw [length_plusAt total]
    exact ok.totals (state ▸ started)
  · rw [users] at found
    by_cases same : v = u
    · subst same
      rw [Function.update_self, Option.some.injEq] at found
      rw [← found, length_plusAt own]
      exact ok.betRow v
    · rw [Function.update_of_ne same] at found
      exact ok.rows v other found

/-- No request leaves a table that is not well formed. -/
theorem TablesOk.bet {s : BetRoom} (ok : TablesOk s) (u : Int) (nPosition nBet : Argument) :
    TablesOk (exec (clientBet maxOdds u nPosition nBet) s).2 := by
  rcases clientBet_cases s u nPosition nBet with
    ⟨refused, -⟩ | ⟨position, n, -, -, -, -, ⟨nUserGold, nTableId, -, -, calls⟩ | ⟨-, raised⟩⟩
  · rw [refused]
    exact ok
  · rw [calls]
    cases found : s.tables nTableId with
    | none =>
        rw [userBet_no_table found]
        exact ok
    | some t =>
        rcases userBet_cases found (ok nTableId t found) u nUserGold position n with
          ⟨-, code, -, result⟩ | ⟨-, ⟨i, t', -, -, state, added, result⟩ | ⟨-, -, result⟩ | ⟨-, result⟩⟩
        · rw [result]
          exact ok
        · rw [result]
          apply ok.update
          intro other isTable
          cases isTable
          exact added.wellFormed (ok nTableId t found) state
        · rw [result]
          exact ok
        · rw [result]
          exact ok
  · rw [raised]
    exact ok

/-- What each call keeps. -/
theorem TablesOk.step {s : BetRoom} (ok : TablesOk s) (call : BetCall) : TablesOk (betStep maxOdds s call) := by
  cases call with
  | object u nGold => exact ok
  | enter u nTableId =>
      apply ok.update
      intro t isTable
      cases isTable
      exact .entered (ok nTableId)
  | timerOver nTableId =>
      apply ok.update
      intro t isTable
      obtain ⟨before, found, rfl⟩ := Option.map_eq_some_iff.mp isTable
      exact (ok nTableId before found).timerOver
  | bet u nPosition nBet => exact ok.bet u nPosition nBet

/-- The run lemma. -/
theorem TablesOk.run {s : BetRoom} (ok : TablesOk s) (calls : List BetCall) :
    TablesOk (calls.foldl (betStep maxOdds) s) := by
  induction calls generalizing s with
  | nil => exact ok
  | cons call calls ih => exact ih (ok.step call)

variable (maxOdds)

open scoped ExactArithmetic

/-- What a bet reads of a table of the room server. -/
def ofTable (t : Table) : BetTable where
  nState := t.nState
  tbPlayerBet := t.tbPlayerBet.map .finite
  tbUserBet u := (t.tbUserBet u).map fun row => row.map .finite

def ofRoom (s : RoomState) : BetRoom where
  gold u := (s.pool.getUserObject u).map fun objUser => .finite objUser.gold
  userTableMap := s.userTableMap
  tables id := (s.tableMap.get id).map ofTable

theorem foldl_add_finite (row : List ℚ) (sum : ℚ) :
    (row.map LuaNumber.finite).foldl add (.finite sum) = .finite (sum + row.sum) := by
  induction row generalizing sum with
  | nil => simp
  | cons n row ih => rw [List.map_cons, List.foldl_cons, add, ih, List.sum_cons, add_assoc]

/-- The sum in Lua numbers is the exact one. -/
theorem getSumOfUserBet_ofTable (t : Table) (u : Int) :
    (ofTable t).getSumOfUserBet u = .finite (t.getSumOfUserBet u) := by
  cases found : t.tbUserBet u with
  | none => simp [BetTable.getSumOfUserBet, Table.getSumOfUserBet, ofTable, found]
  | some row =>
      have sum := foldl_add_finite row 0
      have exact_sum := Rounding.exact.foldl_add (l := row) fun _ => Rounding.keeps_exact _
      rw [zero_add, ← exact_sum] at sum
      simp only [BetTable.getSumOfUserBet, Table.getSumOfUserBet, ofTable, found, Option.map_some]
      exact sum

theorem betRow_ofTable (t : Table) (u : Int) :
    (ofTable t).betRow u = (t.betRow u).map .finite := by
  cases found : t.tbUserBet u with
  | none => simp [BetTable.betRow, Table.betRow, ofTable, found]
  | some row => simp [BetTable.betRow, Table.betRow, ofTable, found]

/-- The range check, too. -/
theorem checkBetOverRange_ofTable (cfg : RoomConfig) (t : Table) (objUser : Script.UserData) (nBet : ℚ) :
    checkBetOverRange (.finite (getMaxOdds cfg)) (ofTable t) objUser.nUserId (.finite objUser.gold)
      (.finite nBet) = Room.checkBetOverRange cfg t objUser nBet := by
  rw [checkBetOverRange, getSumOfUserBet_ofTable]
  rfl

/-- Adding to a list of finite numbers. -/
theorem plusAt_finite {l : List ℚ} {i : Nat} (inside : i < l.length) (n : ℚ) :
    plusAt (l.map LuaNumber.finite) (.finite (i + 1)) (.finite n) =
      some ((l.set i (l.getD i 0 + n)).map .finite) := by
  rw [plusAt_eq (by rwa [List.length_map]), List.getElem_map, List.map_set, List.getD_eq_getElem _ _ inside]
  rfl

/-- The room server after a change of a table, seen by bets. -/
theorem ofRoom_put {s : RoomState} {nTableId : Nat} {t t' : Table} (found : s.tableMap.get nTableId = some t)
    (sameId : t'.nTableId = t.nTableId) (events : List RoomEvent) :
    ofRoom { s with tableMap := s.tableMap.put t', trace := events } =
      { ofRoom s with tables := Function.update (ofRoom s).tables nTableId (some (ofTable t')) } := by
  have idEq : t'.nTableId = nTableId := sameId.trans (TableMap.nTableId_of_get found)
  simp only [ofRoom, BetRoom.mk.injEq, true_and]
  funext id
  rw [TableMap.get_put, idEq]
  by_cases same : id = nTableId
  · rw [same, if_pos rfl, Function.update_self]
    rfl
  · rw [if_neg same, Function.update_of_ne same]

theorem ofTable_update (t : Table) (nState : Nat) (tbPlayerBet row : List ℚ) (u : Int) :
    ofTable { t with
      nState := nState
      tbPlayerBet := tbPlayerBet
      tbUserBet := Function.update t.tbUserBet u (some row) } =
    { nState := nState
      tbPlayerBet := tbPlayerBet.map .finite
      tbUserBet := Function.update (ofTable t).tbUserBet u (some (row.map .finite)) } := by
  simp only [ofTable, BetTable.mk.injEq, true_and]
  exact Function.comp_update (Option.map fun row => row.map LuaNumber.finite) t.tbUserBet u (some row)

/-- `UserBet` on a whole position, with a finite bet. -/
theorem userBet_ofRoom (cfg : RoomConfig) {s : RoomState} {nTableId : Nat} {t : Table}
    (found : s.tableMap.get nTableId = some t) (ok : WellFormed (ofTable t)) (objUser : Script.UserData)
    (p : Int) (nBet : ℚ) :
    exec (userBet (.finite (getMaxOdds cfg)) nTableId objUser.nUserId (.finite objUser.gold) (.finite p)
      (.finite nBet)) (ofRoom s) =
      ((exec (Room.userBet cfg nTableId objUser p nBet) s).1,
        ofRoom (exec (Room.userBet cfg nTableId objUser p nBet) s).2) := by
  have found' : (ofRoom s).tables nTableId = some (ofTable t) := by simp [ofRoom, found]
  have outside : (le (.finite p) 0 || lt 4 (.finite p)) = decide (p ≤ 0 ∨ p > 4) := by
    rw [ofNat_eq, ofNat_eq, le_finite, lt_finite, ← Bool.decide_or]
    congr 1
    norm_cast
  simp only [userBet, getTable, exec_bind, exec_get, found', exec_pure, outside, checkBetOverRange_ofTable,
    Room.userBet, Room.getTable, found]
  by_cases range : p ≤ 0 ∨ p > 4
  · simp [range]
  · by_cases isBet : t.nState = stateBet
    · by_cases enough : Room.checkBetOverRange cfg t objUser nBet = true
      · obtain ⟨notBelow, notAbove⟩ := not_or.mp range
        have low : 0 < p := not_le.mp notBelow
        have high : p ≤ 4 := not_lt.mp notAbove
        -- the place of the position in the lists
        obtain ⟨i, inside, rfl⟩ : ∃ i : Nat, i < 4 ∧ p = i + 1 := ⟨p.toNat - 1, by omega, by omega⟩
        have place_eq : ((i : Int) + 1).toNat - 1 = i := by omega
        have started : t.nState ≠ stateInit := by rw [isBet]; decide
        have four : t.tbPlayerBet.length = 4 := by
          have totals := ok.totals started
          rwa [ofTable, List.length_map] at totals
        have rowFour : (t.betRow objUser.nUserId).length = 4 := by
          have row := ok.betRow objUser.nUserId
          rwa [betRow_ofTable, List.length_map] at row
        have fits : Exactly t objUser.nUserId (i + 1) nBet :=
          ⟨Rounding.keeps_exact _, Rounding.keeps_exact _, fun _ _ => Rounding.keeps_exact _⟩
        have marked := Table.markBet_started four low high fits
        have total : plusAt (ofTable t).tbPlayerBet (.finite (i + 1)) (.finite nBet) = some _ :=
          plusAt_finite (four.symm ▸ inside) nBet
        have own := plusAt_finite (rowFour.symm ▸ inside) nBet
        rw [← betRow_ofTable] at own
        have marked' := markBet_whole found' objUser.nUserId inside total own
        rw [place_eq] at marked
        have position : ((((i : Int) + 1 : Int) : ℚ)) = i + 1 := by push_cast; rfl
        have isBet' : t.isBetState = true := decide_eq_true isBet
        simp only [range, decide_false, Bool.false_eq_true, if_false, ofTable, isBet, isBet', enough, ne_eq,
          not_true_eq_false, Bool.not_true, exec_bind, position, marked', marked, Room.setTable,
          record, exec_modify, exec_pure]
        rw [ofRoom_put found, ofTable_update]
        · rfl
        · rfl
      · simp [range, isBet, enough, Table.isBetState, ofTable]
    · simp [range, isBet, Table.isBetState, ofTable]

/-- A request with a whole position and a finite bet, in a room server whose tables are in order. -/
theorem clientBet_ofRoom (cfg : RoomConfig) (s : RoomState) (u p : Int) (nBet : ℚ)
    (ok : ∀ id t, s.tableMap.get id = some t → WellFormed (ofTable t)) :
    exec (clientBet (.finite (getMaxOdds cfg)) u (.number (.finite p)) (.number (.finite nBet))) (ofRoom s) =
      ((exec (Room.clientBet cfg u p nBet) s).1, ofRoom (exec (Room.clientBet cfg u p nBet) s).2) := by
  have negative : lt (.finite p) 0 = decide (p < 0) := by
    rw [ofNat_eq, lt_finite]
    congr 1
    norm_cast
  have negative' : lt (.finite nBet) 0 = decide (nBet < 0) := by
    rw [ofNat_eq, lt_finite]
    norm_num
  simp only [clientBet, Room.clientBet, negative, negative', decide_eq_true_eq]
  by_cases below : p < 0
  · simp [below]
  · by_cases below' : nBet < 0
    · simp [below, below']
    · simp only [below, below', if_false, exec_bind, exec_get]
      cases object : s.pool.getUserObject u with
      | none => simp [ofRoom, object]
      | some objUser =>
          have isHis : objUser.nUserId = u := s.pool.nUserId_of_get object
          cases table : s.userTableMap u with
          | none => simp [ofRoom, object, isHis, table]
          | some nTableId =>
              cases found : s.tableMap.get nTableId with
              | none =>
                  have found' : (ofRoom s).tables nTableId = none := by simp [ofRoom, found]
                  have gold : (ofRoom s).gold u = some (.finite objUser.gold) := by simp [ofRoom, object]
                  have seat : (ofRoom s).userTableMap u = some nTableId := table
                  simp only [gold, seat, isHis, table, userBet_no_table found']
                  simp [Room.userBet, Room.getTable, exec_bind, found]
              | some t =>
                  have gold : (ofRoom s).gold u = some (.finite objUser.gold) := by simp [ofRoom, object]
                  have seat : (ofRoom s).userTableMap u = some nTableId := table
                  have same := userBet_ofRoom cfg found (ok nTableId t found) objUser p nBet
                  rw [isHis] at same
                  simp only [gold, seat, isHis, table, same]

/-! ## Requests that are not honoured

A fraction for the position passes the range check, and finds no entry.
-/

end GameServer.Room.BetRequests
