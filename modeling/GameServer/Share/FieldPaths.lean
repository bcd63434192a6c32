/-
Module: GameServer.Share.FieldPaths
Purpose: When `SetGameField` does what `GetGameField` then reads: for which records, paths and values.
Trusted boundary: as for the class; a path has at least one name, and a value is not `false`
Main exports: Settable, SetAsAsked, SetsField, Gets, Steady, steady_iff, steady_string, Fits, setsField_iff
-/
import Mathlib.Data.Set.Finite.Lemmas
import GameServer.Share.User

namespace GameServer.Share

open Lib Lib.LuaM

/-! ## The property

A call with a path and a value sets the field that the path leads to, or changes nothing where it leads nowhere.
-/

/-- The arguments for a path of names. -/
def names (path : List String) : List Leaf := path.map .string

/-- What stands under the name of a table. -/
def UserData.tableOf (u : UserData) (strTableName : String) : Option Value :=
  u.tbGameData.bind (lookupField (.string strTableName))

/-- What `GetGameField` returns, or that it raises. -/
def reads (u : UserData) (strTableName : String) (path : List String) : Except Unit (Option Value) :=
  (exec (getGameField (.string strTableName) (names path)) u).1

/-- The names in front of the last one lead through tables, and the last one does not lead to a table. -/
def Settable (tb : Value) : List String → Prop
  | [] => False
  | [f] => ∃ fields, tb = .table fields ∧ ∀ inner, lookupField (.string f) fields ≠ some (.table inner)
  | f :: rest => ∃ fields inner, tb = .table fields ∧ lookupField (.string f) fields = some (.table inner) ∧
      Settable (.table inner) rest

/-- The path now leads to the value, a path that led elsewhere still leads there, and the record is dirty.  A path to a
table around the field leads to that table, whose contents have changed. -/
structure SetAsAsked (u u' : UserData) (strTableName : String) (path : List String) (v : Leaf) : Prop where
  there : reads u' strTableName path = .ok (some (.leaf v))
  others : ∀ name other, other ≠ [] → ¬ (name = strTableName ∧ (path <+: other ∨ other <+: path)) →
    ∀ r, reads u name other = .ok r → reads u' name other = .ok r
  around : ∀ other, other ≠ [] → other ≠ path → other <+: path →
    ∀ fields, reads u strTableName other = .ok (some (.table fields)) →
      ∃ fields', reads u' strTableName other = .ok (some (.table fields'))
  dirty : u'.bIsDirty = true

/-- The call returns; a path that can be set is, and otherwise nothing changes. -/
def SetsField (u : UserData) (strTableName : String) (path : List String) (v : Leaf) : Prop :=
  ∃ u', exec (setGameField (.string strTableName) (names path ++ [v])) u = (.ok (), u') ∧
    ((∃ tb, u.tableOf strTableName = some tb ∧ Settable tb path) → SetAsAsked u u' strTableName path v) ∧
    ((¬ ∃ tb, u.tableOf strTableName = some tb ∧ Settable tb path) → u' = u)

/-! ## Reading

The loop of `GetGameField` passes over names that it does not find, so it answers more paths than there are.
-/

/-- The loop of `GetGameField` gets through the names. -/
def Gets (tb : Value) (path : List String) : Prop := (descend tb 0 (names path)).isSome

instance (tb : Value) (path : List String) : Decidable (Gets tb path) := inferInstanceAs (Decidable (_ = true))

/-- What `GetGameField` answers for a table that is there. -/
def answer (tb : Value) (path : List String) : Except Unit (Option Value) :=
  match descend tb 0 (names path) with
  | none => .error ()
  | some (value, depth) => if path.length > depth then .ok none else .ok (some value)

theorem no_false_name (path : List String) : ((names path).any fun field => field = .boolean false) = false := by
  induction path with
  | nil => rfl
  | cons f rest ih =>
      rw [names, List.map_cons, List.any_cons]
      exact ih

/-- For names, the check of the arguments never fails. -/
theorem reads_eq (u : UserData) (strTableName : String) (path : List String) :
    reads u strTableName path =
      match u.tableOf strTableName with
      | none => .ok none
      | some tb => if tb.truthy then answer tb path else .ok none := by
  unfold reads UserData.tableOf
  simp only [getGameField, getGameTable, exec_bind, exec_get]
  cases u.tbGameData with
  | none => rfl
  | some tbGameData =>
      simp only [exec_pure, Option.bind_some]
      cases lookupField (.string strTableName) tbGameData with
      | none => rfl
      | some tb =>
          simp only [no_false_name, Bool.false_eq_true, if_false]
          cases tb.truthy with
          | false => rfl
          | true =>
              simp only [Bool.not_true, Bool.false_eq_true, if_false, if_true, answer, names, List.length_map]
              cases descend tb 0 (path.map .string) with
              | none => rfl
              | some found =>
                  obtain ⟨value, depth⟩ := found
                  dsimp only
                  split <;> rfl

/-- Where the count of the loop starts does not matter. -/
theorem descend_depth (tb : Value) (depth : Nat) (path : List Leaf) :
    descend tb depth path = (descend tb 0 path).map fun found => (found.1, found.2 + depth) := by
  induction path generalizing tb depth with
  | nil => simp [descend]
  | cons field path ih =>
      unfold descend
      cases tb.index field with
      | none => rfl
      | some found =>
          cases found with
          | none => exact ih tb depth
          | some value =>
              dsimp only
              cases value.truthy with
              | false => exact ih tb depth
              | true =>
                  simp only [if_true]
                  rw [ih value (depth + 1), ih value (0 + 1), Option.map_map]
                  congr 1
                  funext found
                  simp only [Function.comp_apply]
                  rw [Nat.add_assoc, Nat.zero_add, Nat.add_comm 1 depth]

/-- No more names are found than there are. -/
theorem descend_le {tb value : Value} {depth : Nat} {path : List Leaf}
    (found : descend tb 0 path = some (value, depth)) : depth ≤ path.length := by
  induction path generalizing tb value depth with
  | nil =>
      cases found
      exact Nat.le_refl 0
  | cons field path ih =>
      unfold descend at found
      rw [List.length_cons]
      split at found
      · exact absurd found (by simp)
      next inner _ =>
        split at found
        · rw [descend_depth] at found
          obtain ⟨⟨_, deep⟩, rest, same⟩ := Option.map_eq_some_iff.mp found
          cases same
          exact Nat.succ_le_succ (ih rest)
        · exact Nat.le_succ_of_le (ih found)
      · exact Nat.le_succ_of_le (ih found)

/-- A name that leads somewhere. -/
theorem answer_found {tb value : Value} {f : String} (path : List String)
    (found : tb.index (.string f) = some (some value)) (truthy : value.truthy = true) :
    answer tb (f :: path) = answer value path := by
  unfold answer names
  rw [List.map_cons, descend, found]
  simp only [truthy, if_true]
  rw [descend_depth]
  cases descend value 0 (path.map .string) with
  | none => rfl
  | some deep => simp

/-- A name that leads nowhere is passed over, and then there are too few. -/
theorem answer_skipped {tb : Value} {f : String} (path : List String) {found : Option Value}
    (index : tb.index (.string f) = some found) (nothing : ∀ value, found = some value → value.truthy = false) :
    answer tb (f :: path) = if Gets tb path then .ok none else .error () := by
  have skipped : descend tb 0 (names (f :: path)) = descend tb 0 (names path) := by
    rw [names, List.map_cons, descend, index]
    cases found with
    | none => rfl
    | some value => simp [nothing value rfl, names]
  unfold answer
  rw [skipped]
  cases deep : descend tb 0 (names path) with
  | none =>
      have stuck : ¬ Gets tb path := by simp [Gets, deep]
      rw [if_neg stuck]
  | some result =>
      have through : Gets tb path := by simp [Gets, deep]
      obtain ⟨value, depth⟩ := result
      have few := descend_le deep
      rw [names, List.length_map] at few
      rw [if_pos through]
      exact if_pos (Nat.lt_succ_of_le few)

/-! ## Setting

`SetGameField` writes the first name of the path, in the outermost table, and raises where a table stands there.
-/

/-- The check goes one name further. -/
theorem paramIsOk_cons (tb : Value) (field : Leaf) (args : List Leaf) (v : Leaf) :
    paramIsOk tb (field :: (args ++ [v])) = (tb.index field).bind fun _ => paramIsOk tb (args ++ [v]) := by
  cases args <;> rfl

/-- The check of `SetGameField` looks at the value only. -/
theorem paramIsOk_table (fields : Fields) (args : List Leaf) (v : Leaf) :
    paramIsOk (.table fields) (args ++ [v]) = some (!(readField fields v).any Value.isTable) := by
  induction args with
  | nil => rfl
  | cons field args ih =>
      rw [List.cons_append, paramIsOk_cons, ih]
      rfl

/-- Strings are indexed without an error, and their library has no tables. -/
theorem paramIsOk_string (s : String) (args : List Leaf) (v : Leaf) :
    paramIsOk (.leaf (.string s)) (args ++ [v]) = some true := by
  have index : ∀ key, ∃ found : Option Value, (Value.leaf (.string s)).index key = some found ∧
      found.any Value.isTable = false := by
    intro key
    cases key with
    | string name =>
        refine ⟨_, rfl, ?_⟩
        split <;> rfl
    | _ => exact ⟨none, rfl, rfl⟩
  induction args with
  | nil =>
      obtain ⟨found, here, noTable⟩ := index v
      simp [paramIsOk, here, noTable]
  | cons field args ih =>
      obtain ⟨found, here, -⟩ := index field
      rw [List.cons_append, paramIsOk_cons, here, ih]
      rfl

section Set

variable {u : UserData} {strTableName f : String} {rest : List String} {v : Leaf}

/-- The record after the field of the table was written. -/
def written (u : UserData) (strTableName f : String) (v : Leaf) (fields : Fields) : UserData where
  tbGameData := u.tbGameData.map (setField (.string strTableName) (.table (setField (.string f) (.leaf v) fields)))
  bIsDirty := true

theorem no_false_arg (path : List String) (notFalse : v ≠ .boolean false) :
    ((names path ++ [v]).any fun field => field = .boolean false) = false := by
  rw [List.any_append, no_false_name]
  simpa using notFalse

/-- Without the table nothing is done. -/
theorem setGameField_nil (missing : u.tableOf strTableName = none) (args : List Leaf) :
    exec (setGameField (.string strTableName) args) u = (.ok (), u) := by
  unfold UserData.tableOf at missing
  simp only [setGameField, getGameTable, exec_bind, exec_get]
  cases data : u.tbGameData with
  | none => rfl
  | some tbGameData =>
      rw [data, Option.bind_some] at missing
      simp only [exec_pure, missing]

/-- A value that is not a table cannot be written to. -/
theorem setGameField_leaf {l : Leaf} (found : u.tableOf strTableName = some (.leaf l)) (notFalse : v ≠ .boolean false) :
    exec (setGameField (.string strTableName) (names (f :: rest) ++ [v])) u =
      (if l = .boolean false then .ok () else .error (), u) := by
  obtain ⟨tbGameData, data, here⟩ := Option.bind_eq_some_iff.mp found
  simp only [setGameField, getGameTable, exec_bind, exec_get, data, exec_pure, here, no_false_arg _ notFalse,
    Bool.false_eq_true, if_false]
  cases l with
  | string s =>
      simp only [Value.truthy, paramIsOk_string]
      have raises : exec (setFieldRecursively (.string strTableName) (.leaf (.string s)) (names (f :: rest) ++ [v])) u =
          (.error (), u) := by
        rw [names, List.map_cons, List.cons_append, setFieldRecursively]
        split
        · rfl
        · split <;> rfl
      change exec (setFieldRecursively _ _ _ >>= fun _ => _) u = _
      rw [exec_bind, raises]
      rfl
  | number n =>
      have stuck : paramIsOk (.leaf (.number n)) (names (f :: rest) ++ [v]) = none := by
        cases rest <;> rfl
      simp [Value.truthy, stuck]
  | boolean b =>
      have stuck : paramIsOk (.leaf (.boolean b)) (names (f :: rest) ++ [v]) = none := by
        cases rest <;> rfl
      cases b with
      | false => rfl
      | true => simp [Value.truthy, stuck]
  | function name =>
      have stuck : paramIsOk (.leaf (.function name)) (names (f :: rest) ++ [v]) = none := by
        cases rest <;> rfl
      simp [Value.truthy, stuck]

/-- In a table the first name of the path is written, unless the value is the name of a table in it; and where that name
is a table, the call raises. -/
theorem setGameField_table {fields : Fields} (found : u.tableOf strTableName = some (.table fields))
    (notFalse : v ≠ .boolean false) :
    exec (setGameField (.string strTableName) (names (f :: rest) ++ [v])) u =
      if (readField fields v).any Value.isTable then (.ok (), u)
      else if (lookupField (.string f) fields).any Value.isTable then (.error (), u)
      else (.ok (), written u strTableName f v fields) := by
  obtain ⟨tbGameData, data, here⟩ := Option.bind_eq_some_iff.mp found
  simp only [setGameField, getGameTable, exec_bind, exec_get, data, exec_pure, here, no_false_arg _ notFalse,
    Bool.false_eq_true, if_false, Value.truthy, Bool.not_true, paramIsOk_table]
  cases (readField fields v).any Value.isTable with
  | true => rfl
  | false =>
      simp only [Bool.not_false, exec_bind]
      rw [names, List.map_cons, List.cons_append, setFieldRecursively]
      simp only [Value.index, readField_string]
      cases first : (lookupField (.string f) fields).any Value.isTable with
      | true => simp
      | false => simp [written]

end Set

/-! ## When both agree

The inputs for which the call does as asked are, in the main, paths of one name under which no table stands, and whose
change does not stop the getter on other paths.
-/

/-- Where the loop of `GetGameField` goes on after the name: to what stands there, or on in the table. -/
def past (fields : Fields) (f : String) : Value :=
  match lookupField (.string f) fields with
  | some old => if old.truthy then old else .table fields
  | none => .table fields

/-- Where the getter got through further names after `f`, it gets through them after the value that `f` gets; so it is
when a number takes the place of a number, or a string that of a string. -/
def Steady (fields : Fields) (f : String) (v : Leaf) : Prop := ∀ path, Gets (past fields f) path → Gets (.leaf v) path

/-- The inputs for which the call does as asked. -/
def Fits (u : UserData) (strTableName f : String) (rest : List String) (v : Leaf) : Prop :=
  match u.tableOf strTableName with
  | none => True
  | some (.leaf l) => l = .boolean false
  | some (.table fields) =>
      if (readField fields v).any Value.isTable then
        Settable (.table fields) (f :: rest) →
          reads u strTableName (f :: rest) = .ok (some (.leaf v)) ∧ u.bIsDirty = true
      else
        (lookupField (.string f) fields).any Value.isTable = false ∧
          match rest with
          | [] => Steady fields f v
          | _ :: _ => lookupField (.string f) fields = some (.leaf v) ∧ u.bIsDirty = true

theorem truthy_of_ne {v : Leaf} (notFalse : v ≠ .boolean false) : (Value.leaf v).truthy = true := by
  cases v with
  | boolean b =>
      cases b with
      | false => exact absurd rfl notFalse
      | true => rfl
  | _ => rfl

/-- Only strings can be indexed among the values that are not tables. -/
theorem gets_leaf {l : Leaf} (notString : ∀ s, l ≠ .string s) (path : List String) :
    Gets (.leaf l) path ↔ path = [] := by
  cases path with
  | nil => simp [Gets, names, descend]
  | cons x path =>
      cases l with
      | string s => exact absurd rfl (notString s)
      | _ => simp [Gets, names, descend, Value.index]

theorem gets_string (s s' : String) (path : List String) :
    Gets (.leaf (.string s)) path ↔ Gets (.leaf (.string s')) path := by
  induction path with
  | nil => rfl
  | cons x path ih =>
      simp only [Gets, names, List.map_cons, descend, Value.index] at ih ⊢
      by_cases isFunction : x ∈ stringLibrary
      · simp [isFunction, Value.truthy]
      · simpa [isFunction] using ih

/-- A value that is not a string can be set where such a value stands, and nowhere else. -/
theorem steady_iff {fields : Fields} {f : String} {v : Leaf} (notString : ∀ s, v ≠ .string s) :
    Steady fields f v ↔
      ∃ l, lookupField (.string f) fields = some (.leaf l) ∧ l ≠ .boolean false ∧ ∀ s, l ≠ .string s := by
  have oneName : ∀ inner, Gets (.table inner) ["x"] := by
    intro inner
    simp only [Gets, names, List.map_cons, List.map_nil, descend, Value.index]
    cases readField inner (.string "x") with
    | none => rfl
    | some value =>
        dsimp only
        split <;> rfl
  have notTable : ∀ inner, past fields f = .table inner → ¬ Steady fields f v := by
    intro inner same steady
    have through := steady ["x"] (by rw [same]; exact oneName inner)
    exact absurd ((gets_leaf notString _).mp through) (by simp)
  constructor
  · intro steady
    cases stands : lookupField (.string f) fields with
    | none => exact absurd steady (notTable fields (by rw [past, stands]))
    | some old =>
        cases old with
        | table inner => exact absurd steady (notTable inner (by rw [past, stands]; rfl))
        | leaf l =>
            refine ⟨l, rfl, ?_, ?_⟩
            · rintro rfl
              exact notTable fields (by rw [past, stands]; rfl) steady
            · rintro s rfl
              have same : past fields f = .leaf (.string s) := by rw [past, stands]; rfl
              have missing : "x" ∉ stringLibrary := by decide
              have through := steady ["x"] (by rw [same]; simp [Gets, names, descend, Value.index, missing])
              exact absurd ((gets_leaf notString _).mp through) (by simp)
  · rintro ⟨l, stands, notFalse, oldNotString⟩ path through
    rw [past, stands] at through
    simp only [truthy_of_ne notFalse, if_true] at through
    exact (gets_leaf notString _).mpr ((gets_leaf oldNotString _).mp through)

/-- A string can be set where any value stands that is not a table. -/
theorem steady_string {fields : Fields} {f : String} {l : Leaf} (stands : lookupField (.string f) fields = some (.leaf l))
    (notFalse : l ≠ .boolean false) (s : String) : Steady fields f (.string s) := by
  intro path through
  rw [past, stands] at through
  simp only [truthy_of_ne notFalse, if_true] at through
  by_cases isString : ∃ s', l = .string s'
  · obtain ⟨s', rfl⟩ := isString
    exact (gets_string s' s path).mp through
  · have nothing := (gets_leaf (fun s' same => isString ⟨s', same⟩) path).mp through
    rw [nothing]
    rfl

theorem gets_cons (fields : Fields) (x : String) (path : List String) :
    Gets (.table fields) (x :: path) ↔ Gets (past fields x) path := by
  unfold Gets past
  rw [names, List.map_cons, descend, Value.index, readField_string]
  cases lookupField (.string x) fields with
  | none => rfl
  | some old =>
      dsimp only
      cases old.truthy with
      | false => rfl
      | true =>
          simp only [if_true]
          rw [descend_depth, Option.isSome_map]
          rfl

section Agree

variable {u : UserData} {strTableName f : String} {rest : List String} {v : Leaf} {fields : Fields}

theorem past_set_self (notFalse : v ≠ .boolean false) : past (setField (.string f) (.leaf v) fields) f = .leaf v := by
  unfold past
  rw [lookupField_setField, if_pos rfl]
  simp only [truthy_of_ne notFalse, if_true]

theorem past_set_other {x : String} (other : x ≠ f) :
    past (setField (.string f) (.leaf v) fields) x =
      match lookupField (.string x) fields with
      | some old => if old.truthy then old else .table (setField (.string f) (.leaf v) fields)
      | none => .table (setField (.string f) (.leaf v) fields) := by
  have differs : (Leaf.string x) ≠ .string f := fun same => other (Leaf.string.inj same)
  unfold past
  rw [lookupField_setField, if_neg differs]

/-- The getter gets through the changed table where it got through the old one, if it does so behind the field. -/
theorem gets_set_iff (notFalse : v ≠ .boolean false) :
    (∀ path, Gets (.table fields) path → Gets (.table (setField (.string f) (.leaf v) fields)) path) ↔
      Steady fields f v := by
  constructor
  · intro gets path through
    have behind := gets (f :: path) ((gets_cons fields f path).mpr through)
    rw [gets_cons, past_set_self notFalse] at behind
    exact behind
  · intro steady path
    induction path with
    | nil => exact fun _ => rfl
    | cons x path ih =>
        rw [gets_cons, gets_cons]
        by_cases same : x = f
        · subst same
          rw [past_set_self notFalse]
          exact steady path
        · rw [past_set_other same]
          unfold past
          cases lookupField (.string x) fields with
          | none => exact ih
          | some old =>
              dsimp only
              cases old.truthy with
              | false => exact ih
              | true => exact id

/-- Some name is missing. -/
theorem exists_missing (fields : Fields) (f : String) : ∃ x, x ≠ f ∧ lookupField (.string x) fields = none := by
  have missing : ∀ (fields : Fields) (x : String), Leaf.string x ∉ fields.map Prod.fst →
      lookupField (.string x) fields = none := by
    intro fields x outside
    induction fields with
    | nil => rfl
    | cons field fields ih =>
        rw [List.map_cons, List.mem_cons, not_or] at outside
        rw [lookupField, if_neg (Ne.symm outside.1)]
        exact ih outside.2
  have injective : Function.Injective Leaf.string := fun _ _ same => Leaf.string.inj same
  have finite : (insert f (Set.preimage Leaf.string {l | l ∈ fields.map Prod.fst})).Finite :=
    ((List.finite_toSet _).preimage injective.injOn).insert f
  obtain ⟨x, fresh⟩ := finite.exists_notMem
  rw [Set.mem_insert_iff, not_or] at fresh
  exact ⟨x, fresh.1, missing fields x fresh.2⟩

/-- The other tables are as before. -/
theorem tableOf_written (found : u.tableOf strTableName = some (.table fields)) (name : String) :
    (written u strTableName f v fields).tableOf name =
      if name = strTableName then some (.table (setField (.string f) (.leaf v) fields)) else u.tableOf name := by
  obtain ⟨tbGameData, data, -⟩ := Option.bind_eq_some_iff.mp found
  unfold UserData.tableOf written
  rw [data, Option.map_some, Option.bind_some, Option.bind_some, lookupField_setField]
  by_cases same : name = strTableName
  · simp [same]
  · simp [same]

theorem index_string (fields : Fields) (x : String) :
    (Value.table fields).index (.string x) = some (lookupField (.string x) fields) := by
  rw [Value.index, readField_string]

theorem index_set_self : (Value.table (setField (.string f) (.leaf v) fields)).index (.string f) = some (some (.leaf v)) := by
  rw [index_string, lookupField_setField, if_pos rfl]

/-- The other fields are as before. -/
theorem index_set_other {x : String} (other : x ≠ f) :
    (Value.table (setField (.string f) (.leaf v) fields)).index (.string x) = some (lookupField (.string x) fields) := by
  have differs : (Leaf.string x) ≠ .string f := fun same => other (Leaf.string.inj same)
  rw [index_string, lookupField_setField, if_neg differs]

/-- A path beside the field leads to where it led, if the getter gets through the changed table as before. -/
theorem answer_set_other
    (gets : ∀ path, Gets (.table fields) path → Gets (.table (setField (.string f) (.leaf v) fields)) path) {x : String}
    (other : x ≠ f) (path : List String) {r : Option Value} (before : answer (.table fields) (x :: path) = .ok r) :
    answer (.table (setField (.string f) (.leaf v) fields)) (x :: path) = .ok r := by
  by_cases leads : ∃ value, lookupField (.string x) fields = some value ∧ value.truthy = true
  · obtain ⟨value, stands, truthy⟩ := leads
    rw [answer_found path ((index_string fields x).trans (congrArg some stands)) truthy] at before
    rw [answer_found path ((index_set_other other).trans (congrArg some stands)) truthy]
    exact before
  · have nothing : ∀ value, lookupField (.string x) fields = some value → value.truthy = false := by
      intro value stands
      by_contra truthy
      exact leads ⟨value, stands, by simpa using truthy⟩
    rw [answer_skipped path (index_string fields x) nothing] at before
    rw [answer_skipped path (index_set_other other) nothing]
    by_cases through : Gets (.table fields) path
    · rw [if_pos through] at before
      rw [if_pos (gets path through)]
      exact before
    · rw [if_neg through] at before
      cases before

/-- The getter gets through the changed table as before, if the paths beside the field lead to where they led. -/
theorem gets_of_answers
    (same : ∀ x path, x ≠ f → ∀ r, answer (.table fields) (x :: path) = .ok r →
      answer (.table (setField (.string f) (.leaf v) fields)) (x :: path) = .ok r) (path : List String)
    (through : Gets (.table fields) path) : Gets (.table (setField (.string f) (.leaf v) fields)) path := by
  -- in front of the path stands a name that both tables miss
  obtain ⟨x, other, missing⟩ := exists_missing fields f
  have index : (Value.table fields).index (.string x) = some none := by
    rw [index_string, missing]
  have index' : (Value.table (setField (.string f) (.leaf v) fields)).index (.string x) = some none := by
    rw [index_set_other other, missing]
  have before : answer (.table fields) (x :: path) = .ok none := by
    rw [answer_skipped path index (by simp), if_pos through]
  have after := same x path other none before
  rw [answer_skipped path index' (by simp)] at after
  by_contra stuck
  rw [if_neg stuck] at after
  cases after

/-- After a field was written, its path leads to the value, and the others to where they led if the getter gets there
as before. -/
theorem setAsAsked_written_iff (found : u.tableOf strTableName = some (.table fields)) (notFalse : v ≠ .boolean false) :
    SetAsAsked u (written u strTableName f v fields) strTableName [f] v ↔ Steady fields f v := by
  have readsTable : ∀ path, reads u strTableName path = answer (.table fields) path := by
    intro path
    rw [reads_eq, found]
    rfl
  have readsWritten : ∀ path, reads (written u strTableName f v fields) strTableName path =
      answer (.table (setField (.string f) (.leaf v) fields)) path := by
    intro path
    rw [reads_eq, tableOf_written found, if_pos rfl]
    rfl
  rw [← gets_set_iff notFalse]
  constructor
  · intro asked
    refine gets_of_answers fun x path other r before => ?_
    rw [← readsWritten]
    refine asked.others strTableName (x :: path) (List.cons_ne_nil x path) ?_ r (by rw [readsTable, before])
    rintro ⟨-, prefixed | prefixed⟩
    · exact other (List.cons_prefix_cons.mp prefixed).1.symm
    · exact other (List.cons_prefix_cons.mp prefixed).1
  · intro gets
    constructor
    · rw [readsWritten, answer_found [] index_set_self (truthy_of_ne notFalse)]
      rfl
    · intro name other some elsewhere r before
      by_cases here : name = strTableName
      · subst here
        rw [readsTable] at before
        rw [readsWritten]
        cases other with
        | nil => exact absurd rfl some
        | cons x path =>
            have notField : x ≠ f := by
              rintro rfl
              exact elsewhere ⟨rfl, Or.inl (List.cons_prefix_cons.mpr ⟨rfl, List.nil_prefix⟩)⟩
            exact answer_set_other gets notField path before
      · rw [reads_eq, tableOf_written found, if_neg here, ← reads_eq]
        exact before
    · intro other some notField prefixed
      cases other with
      | nil => exact absurd rfl some
      | cons x path =>
          obtain ⟨rfl, rest⟩ := List.cons_prefix_cons.mp prefixed
          rw [List.prefix_nil.mp rest] at notField
          exact absurd rfl notField
    · rfl

/-- A record is as before the write only if the value stood there and the record was dirty. -/
theorem written_eq_iff (found : u.tableOf strTableName = some (.table fields)) :
    written u strTableName f v fields = u ↔ lookupField (.string f) fields = some (.leaf v) ∧ u.bIsDirty = true := by
  constructor
  · intro same
    have table := tableOf_written (f := f) (v := v) found strTableName
    rw [same, if_pos rfl, found, Option.some.injEq, Value.table.injEq] at table
    refine ⟨?_, by rw [← same]; rfl⟩
    rw [table, lookupField_setField, if_pos rfl]
  · rintro ⟨there, dirty⟩
    obtain ⟨tbGameData, data, here⟩ := Option.bind_eq_some_iff.mp found
    unfold written
    rw [setField_of_lookup there, data, Option.map_some, setField_of_lookup here, ← data, ← dirty]

/-- Where nothing changes, the value must be there already. -/
theorem setAsAsked_same_iff (path : List String) :
    SetAsAsked u u strTableName path v ↔ reads u strTableName path = .ok (some (.leaf v)) ∧ u.bIsDirty = true := by
  constructor
  · intro asked
    exact ⟨asked.there, asked.dirty⟩
  · rintro ⟨there, dirty⟩
    exact ⟨there, fun _ _ _ _ _ before => before, fun _ _ _ _ fields before => ⟨fields, before⟩, dirty⟩

/-- What the property says of a call of which the outcome is known. -/
theorem setsField_of_outcome {u' : UserData} {path : List String}
    (outcome : exec (setGameField (.string strTableName) (names path ++ [v])) u = (.ok (), u')) :
    SetsField u strTableName path v ↔
      ((∃ tb, u.tableOf strTableName = some tb ∧ Settable tb path) → SetAsAsked u u' strTableName path v) ∧
      ((¬ ∃ tb, u.tableOf strTableName = some tb ∧ Settable tb path) → u' = u) := by
  constructor
  · rintro ⟨after, same, holds⟩
    rw [outcome] at same
    cases same
    exact holds
  · exact fun holds => ⟨u', outcome, holds⟩

theorem not_setsField_of_raised {path : List String}
    (outcome : exec (setGameField (.string strTableName) (names path ++ [v])) u = (.error (), u)) :
    ¬ SetsField u strTableName path v := by
  rintro ⟨after, same, -⟩
  rw [outcome] at same
  cases same

end Agree

/-- **Setting a field.** For every record, path and value, the call does as asked exactly in the cases of `Fits`. -/
theorem setsField_iff (u : UserData) (strTableName f : String) (rest : List String) (v : Leaf)
    (notFalse : v ≠ .boolean false) :
    SetsField u strTableName (f :: rest) v ↔ Fits u strTableName f rest v := by
  unfold Fits
  cases found : u.tableOf strTableName with
  | none =>
      rw [setsField_of_outcome (setGameField_nil found _)]
      simp [found]
  | some tb =>
      cases tb with
      | leaf l =>
          have outcome : exec (setGameField (.string strTableName) (names (f :: rest) ++ [v])) u = _ :=
            setGameField_leaf found notFalse
          have notSettable : ¬ Settable (.leaf l) (f :: rest) := by
            cases rest <;> simp [Settable]
          by_cases isFalse : l = .boolean false
          · subst isFalse
            rw [if_pos rfl] at outcome
            rw [setsField_of_outcome outcome]
            simp [found, notSettable]
          · rw [if_neg isFalse] at outcome
            simp [not_setsField_of_raised outcome, isFalse]
      | table fields =>
          have outcome : exec (setGameField (.string strTableName) (names (f :: rest) ++ [v])) u = _ :=
            setGameField_table found notFalse
          by_cases isName : (readField fields v).any Value.isTable = true
          · rw [if_pos isName] at outcome
            rw [setsField_of_outcome outcome, setAsAsked_same_iff]
            simp [found, isName]
          · rw [if_neg isName] at outcome
            cases first : (lookupField (.string f) fields).any Value.isTable with
            | true =>
                rw [if_pos first] at outcome
                simp [not_setsField_of_raised outcome, isName, first]
            | false =>
                rw [if_neg (by simp [first])] at outcome
                have noTable : ∀ inner, lookupField (.string f) fields ≠ some (.table inner) := by
                  intro inner same
                  rw [same] at first
                  cases first
                dsimp only
                rw [setsField_of_outcome outcome, if_neg isName, first]
                cases rest with
                | nil =>
                    have settable : Settable (.table fields) [f] := ⟨fields, rfl, noTable⟩
                    rw [setAsAsked_written_iff found notFalse]
                    simp [found, settable]
                | cons g rest =>
                    have notSettable : ¬ Settable (.table fields) (f :: g :: rest) := by
                      rintro ⟨_, inner, same, leads, -⟩
                      cases same
                      exact noTable inner leads
                    rw [written_eq_iff found]
                    simp [found, notSettable]

/-- A record with one field. -/
def oneField : UserData where
  tbGameData := some [(.string "BaseInfo", .table [(.string "Gold", .leaf (.number 1))])]
  bIsDirty := false

/-- A field that is there can be set. -/
theorem setsField_gold : SetsField oneField "BaseInfo" ["Gold"] (.number 7) := by
  refine (setsField_iff oneField "BaseInfo" "Gold" [] (.number 7) (by simp)).mpr ?_
  have steady : Steady [(.string "Gold", .leaf (.number 1))] "Gold" (.number 7) :=
    (steady_iff (by simp)).mpr ⟨.number 1, rfl, by simp, by simp⟩
  exact ⟨rfl, steady⟩

/-- A path behind a number is not there, and the number is overwritten. -/
theorem not_setsField_bonus :
    ¬ ∀ u strTableName f rest v, v ≠ .boolean false → SetsField u strTableName (f :: rest) v := by
  intro all
  have asked := all oneField "BaseInfo" "Gold" ["Bonus"] (.number 7) (by simp)
  have found : oneField.tableOf "BaseInfo" = some (.table [(.string "Gold", .leaf (.number 1))]) := rfl
  have outcome : exec (setGameField (.string "BaseInfo") (names ["Gold", "Bonus"] ++ [.number 7])) oneField = _ :=
    setGameField_table found (by simp)
  rw [if_neg (by decide), if_neg (by decide)] at outcome
  have notSettable : ¬ ∃ tb, oneField.tableOf "BaseInfo" = some tb ∧ Settable tb ["Gold", "Bonus"] := by
    rintro ⟨tb, here, fields, inner, rfl, leads, -⟩
    rw [found] at here
    cases here
    cases leads
  have unchanged := ((setsField_of_outcome outcome).mp asked).2 notSettable
  have dirty : oneField.bIsDirty = true := by
    rw [← unchanged]
    rfl
  cases dirty

end GameServer.Share
