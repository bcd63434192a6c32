/-
Module: GameServer.Script.LuaEngine
Purpose: The functions of `LuaEngine` that call scripts, and the height of the Lua stack over any run of them.
Trusted boundary: what the scripts do is the outcome of the call; a string is read from the memory it was put into
Main exports: EngineCall, EngineCall.run, runCalls, gettop_runCalls, gettop_unbounded, Balanced, balanced_iff
-/
import GameServer.Db.Buffers
import GameServer.Lib.LuaStack

namespace GameServer.Script

open Lib Lib.LuaStack
open Db (Bytes cString)

/-! ## The engine

Each function of the engine pushes a global function and its arguments, calls it, and cuts the stack back if the call
was successful.
-/

section Engine

-- what `lua_getglobal` finds under a name
variable (globals : String → LuaSlot)

/-- The test behind `lua_pcall`: after an error the message is printed and the function returns, otherwise the result is
looked at and the stack is cut back. -/
def finish (nTop : Nat) (outcome : PcallOutcome) (s : LuaStack) : LuaStack :=
  if !outcome.isOk then s else settop nTop s

/-- What the functions share: the global function and its arguments are pushed, and it is called. -/
def callGlobal (name : String) (args : List LuaSlot) (outcome : PcallOutcome) (s : LuaStack) : LuaStack :=
  let nTop := gettop s
  finish nTop outcome (pcall args.length outcome (pushAll args (push (globals name) s)))

/-- What `lua_pushnumber` pushes of an unsigned integer. -/
def pushed (n : Nat) : LuaSlot := .number (.finite n)

/-- `UpdateTimer`. -/
def updateTimer (elapse : LuaNumber) : PcallOutcome → LuaStack → LuaStack :=
  callGlobal globals "UpdateTimer" [.number elapse]

/-- `CallCenterRequestLua`. -/
def callCenterRequestLua (uHandlerId uEventType : UInt32) (uSequenceId : UInt16) (pParam : Bytes) :
    PcallOutcome → LuaStack → LuaStack :=
  callGlobal globals "OnCenterRequest"
    [pushed uHandlerId.toNat, pushed uEventType.toNat, pushed uSequenceId.toNat, .string (cString pParam)]

/-- `CallLua`. -/
def callLua (uHandlerId uEventType : UInt32) (uSequenceId : UInt16) (pParam : Bytes) :
    PcallOutcome → LuaStack → LuaStack :=
  callGlobal globals "OnClientRequest"
    [pushed uHandlerId.toNat, pushed uEventType.toNat, pushed uSequenceId.toNat, .string (cString pParam)]

/-- `RedisCallLua` of a response with one string. -/
def redisCallLua (uSquenceId uUserId uEventType : UInt32) (request : Bytes) : PcallOutcome → LuaStack → LuaStack :=
  callGlobal globals "OnRedisRespone"
    [pushed uSquenceId.toNat, pushed uUserId.toNat, pushed uEventType.toNat, .string (cString request)]

/-- The loop of the other `RedisCallLua` from `i` on: the strings are cut out of the data and put into the table on the
top.  A negative length becomes a huge one, and the process ends. -/
def pushStrings : Nat → List Int32 → Bytes → LuaStack → Option LuaStack
  | _, [], _, s => some s
  | i, n :: pnValueLen, pTmp, s =>
      if n < 0 then none
      else
        let value := pTmp.take n.toNatClampNeg
        pushStrings (i + 1) pnValueLen (pTmp.drop n.toNatClampNeg) (settable (push (.string value) (push (pushed i) s)))

/-- `RedisCallLua` of a response with several strings, whose table is made on the stack. -/
def redisCallLuaMul (uSquenceId uUserId uEventType : UInt32) (pnValueLen : List Int32) (szData : Bytes)
    (outcome : PcallOutcome) (s : LuaStack) : Option LuaStack :=
  let nTop := gettop s
  let called := push (globals "OnRedisMulDataRespone") s
  let numbers := pushAll [pushed uSquenceId.toNat, pushed uUserId.toNat, pushed uEventType.toNat] called
  (pushStrings 1 pnValueLen szData (push (.table []) numbers)).map fun table =>
    finish nTop outcome (pcall 4 outcome table)

/-- A call of the engine, with its arguments. -/
inductive EngineCall where
  | updateTimer (elapse : LuaNumber)
  | callLua (uHandlerId uEventType : UInt32) (uSequenceId : UInt16) (pParam : Bytes)
  | callCenterRequestLua (uHandlerId uEventType : UInt32) (uSequenceId : UInt16) (pParam : Bytes)
  | redisCallLua (uSquenceId uUserId uEventType : UInt32) (request : Bytes)
  | redisCallLuaMul (uSquenceId uUserId uEventType : UInt32) (pnValueLen : List Int32) (szData : Bytes)

/-- The stack when the function returns; `none` when the process ends. -/
def EngineCall.run : EngineCall → PcallOutcome → LuaStack → Option LuaStack
  | updateTimer elapse, outcome, s => some (Script.updateTimer globals elapse outcome s)
  | callLua uHandlerId uEventType uSequenceId pParam, outcome, s =>
      some (Script.callLua globals uHandlerId uEventType uSequenceId pParam outcome s)
  | callCenterRequestLua uHandlerId uEventType uSequenceId pParam, outcome, s =>
      some (Script.callCenterRequestLua globals uHandlerId uEventType uSequenceId pParam outcome s)
  | redisCallLua uSquenceId uUserId uEventType request, outcome, s =>
      some (Script.redisCallLua globals uSquenceId uUserId uEventType request outcome s)
  | redisCallLuaMul uSquenceId uUserId uEventType pnValueLen szData, outcome, s =>
      Script.redisCallLuaMul globals uSquenceId uUserId uEventType pnValueLen szData outcome s

/-- The call returns: the process survives its arguments. -/
def EngineCall.returns : EngineCall → Bool
  | redisCallLuaMul _ _ _ pnValueLen _ => pnValueLen.all fun n => !decide (n < 0)
  | _ => true

/-- Calls, one after another, each with how it ends. -/
def runCalls (calls : List (EngineCall × PcallOutcome)) (s : LuaStack) : Option LuaStack :=
  calls.foldlM (fun s call => call.1.run globals call.2 s) s

/-- Every call of the run that returns does so at the height at which it was entered. -/
def Balanced (calls : List (EngineCall × PcallOutcome)) (s : LuaStack) : Prop :=
  ∀ before call outcome after, calls = before ++ (call, outcome) :: after →
    ∀ entered left, runCalls globals before s = some entered → call.run globals outcome entered = some left →
      gettop left = gettop entered

/-! ## One call

What a call leaves on the stack, in one equation for all functions.
-/

/-- What is left of a call: nothing, or the message. -/
def residue : PcallOutcome → List LuaSlot
  | .returned _ => []
  | .failed message => [message]

theorem finish_pcall (outcome : PcallOutcome) (s : LuaStack) :
    finish (gettop s) outcome (push outcome.slot s) = residue outcome ++ s := by
  cases outcome with
  | returned result => exact settop_cons result s
  | failed message => rfl

theorem callGlobal_eq (name : String) (args : List LuaSlot) (outcome : PcallOutcome) (s : LuaStack) :
    callGlobal globals name args outcome s = residue outcome ++ s := by
  rw [callGlobal, pcall_pushAll]
  exact finish_pcall outcome s

/-- The loop keeps one table on the stack. -/
theorem pushStrings_table (i : Nat) (pnValueLen : List Int32) (pTmp : Bytes) (fields : List (LuaSlot × LuaSlot))
    (s : LuaStack) :
    ∃ fields', pushStrings i pnValueLen pTmp (.table fields :: s) =
      if pnValueLen.all fun n => !decide (n < 0) then some (.table fields' :: s) else none := by
  induction pnValueLen generalizing i pTmp fields with
  | nil => exact ⟨fields, rfl⟩
  | cons n pnValueLen ih =>
      obtain ⟨fields', table⟩ := ih (i + 1) (pTmp.drop n.toNatClampNeg)
        (fields ++ [(pushed i, .string (pTmp.take n.toNatClampNeg))])
      refine ⟨fields', ?_⟩
      by_cases negative : n < 0
      · rw [pushStrings, if_pos negative, List.all_cons, decide_eq_true negative]
        rfl
      · rw [pushStrings, if_neg negative, List.all_cons, decide_eq_false negative]
        exact table

theorem redisCallLuaMul_eq (uSquenceId uUserId uEventType : UInt32) (pnValueLen : List Int32) (szData : Bytes)
    (outcome : PcallOutcome) (s : LuaStack) :
    redisCallLuaMul globals uSquenceId uUserId uEventType pnValueLen szData outcome s =
      if pnValueLen.all fun n => !decide (n < 0) then some (residue outcome ++ s) else none := by
  let args := [pushed uSquenceId.toNat, pushed uUserId.toNat, pushed uEventType.toNat]
  obtain ⟨fields, table⟩ := pushStrings_table 1 pnValueLen szData []
    (pushAll args (push (globals "OnRedisMulDataRespone") s))
  have called : pcall 4 outcome (.table fields :: pushAll args (push (globals "OnRedisMulDataRespone") s)) =
      push outcome.slot s :=
    pcall_pushAll outcome (globals "OnRedisMulDataRespone")
      [pushed uSquenceId.toNat, pushed uUserId.toNat, pushed uEventType.toNat, .table fields] s
  change (pushStrings 1 pnValueLen szData (.table [] :: pushAll args (push (globals "OnRedisMulDataRespone") s))).map
    (fun table => finish (gettop s) outcome (pcall 4 outcome table)) = _
  rw [table]
  split
  · rw [Option.map_some, called, finish_pcall]
  · rfl

/-- After a call that returns the stack is as it was, with the message on it when the call failed. -/
theorem run_eq (call : EngineCall) (outcome : PcallOutcome) (s : LuaStack) :
    call.run globals outcome s = if call.returns then some (residue outcome ++ s) else none := by
  cases call with
  | updateTimer elapse => exact congrArg some (callGlobal_eq ..)
  | callLua uHandlerId uEventType uSequenceId pParam => exact congrArg some (callGlobal_eq ..)
  | callCenterRequestLua uHandlerId uEventType uSequenceId pParam => exact congrArg some (callGlobal_eq ..)
  | redisCallLua uSquenceId uUserId uEventType request => exact congrArg some (callGlobal_eq ..)
  | redisCallLuaMul uSquenceId uUserId uEventType pnValueLen szData => exact redisCallLuaMul_eq ..

/-- Nothing is left exactly where the call was successful. -/
theorem gettop_residue (outcome : PcallOutcome) (s : LuaStack) :
    gettop (residue outcome ++ s) = gettop s ↔ outcome.isOk = true := by
  cases outcome with
  | returned result => exact iff_of_true rfl rfl
  | failed message => exact iff_of_false (Nat.succ_ne_self s.length) Bool.false_ne_true

/-! ## Runs

A run leaves one message for each call that failed, so the stack grows with their number.
-/

theorem runCalls_cons (call : EngineCall × PcallOutcome) (calls : List (EngineCall × PcallOutcome)) (s : LuaStack) :
    runCalls globals (call :: calls) s =
      if call.1.returns then runCalls globals calls (residue call.2 ++ s) else none := by
  rw [runCalls, List.foldlM_cons, run_eq]
  split <;> rfl

/-- The run gets to its end when all its calls return. -/
theorem runCalls_isSome (calls : List (EngineCall × PcallOutcome)) (s : LuaStack) :
    (runCalls globals calls s).isSome = calls.all fun call => call.1.returns := by
  induction calls generalizing s with
  | nil => rfl
  | cons call calls ih =>
      rw [runCalls_cons, List.all_cons]
      cases call.1.returns with
      | true => exact ih (residue call.2 ++ s)
      | false => rfl

/-- The calls of the run that failed. -/
def failures (calls : List (EngineCall × PcallOutcome)) : Nat := calls.countP fun call => !call.2.isOk

/-- Every failure of a run stays on the stack. -/
theorem gettop_runCalls (calls : List (EngineCall × PcallOutcome)) (s t : LuaStack)
    (run : runCalls globals calls s = some t) : gettop t = gettop s + failures calls := by
  induction calls generalizing s with
  | nil => exact congrArg List.length (Option.some.inj run).symm
  | cons call calls ih =>
      rw [runCalls_cons] at run
      split at run
      · rw [ih (residue call.2 ++ s) run, failures, failures, List.countP_cons]
        cases call.2 with
        | returned result => rfl
        | failed message =>
            change s.length + 1 + _ = s.length + (_ + 1)
            omega
      · exact absurd run nofun

/-- No height is enough: a failing timer can be repeated. -/
theorem gettop_unbounded (bound : Nat) (message : LuaSlot) (s : LuaStack) :
    ∃ calls t, runCalls globals calls s = some t ∧ bound < gettop t := by
  let calls := List.replicate (bound + 1) (EngineCall.updateTimer 1, PcallOutcome.failed message)
  have returns : (runCalls globals calls s).isSome := by
    rw [runCalls_isSome, List.all_eq_true]
    rintro call member
    rw [List.eq_of_mem_replicate member]
    rfl
  obtain ⟨t, run⟩ := Option.isSome_iff_exists.mp returns
  have failed : failures calls = bound + 1 := List.countP_replicate
  refine ⟨calls, t, run, ?_⟩
  rw [gettop_runCalls globals calls s t run, failed]
  omega

/-- **The Lua stack.** In a run from any stack, every call that returns does so at the height at which it was entered
exactly when no call fails before the process ends. -/
theorem balanced_iff (calls : List (EngineCall × PcallOutcome)) (s : LuaStack) :
    Balanced globals calls s ↔ ∀ call ∈ calls.takeWhile (fun call => call.1.returns), call.2.isOk = true := by
  constructor
  · rintro balanced ⟨call, outcome⟩ member
    obtain ⟨before, after, reached⟩ := List.append_of_mem member
    have all : (before ++ (call, outcome) :: after).all fun call => call.1.returns := by
      rw [← reached]
      exact List.all_takeWhile
    rw [List.all_append, List.all_cons, Bool.and_eq_true, Bool.and_eq_true] at all
    obtain ⟨entered, run⟩ := Option.isSome_iff_exists.mp ((runCalls_isSome globals before s).trans all.1)
    have split : calls = before ++ (call, outcome) :: (after ++ calls.dropWhile fun call => call.1.returns) := by
      rw [← List.cons_append, ← List.append_assoc, ← reached, List.takeWhile_append_dropWhile]
    have left : call.run globals outcome entered = some (residue outcome ++ entered) := by
      rw [run_eq, if_pos all.2.1]
    exact (gettop_residue outcome entered).mp (balanced before call outcome _ split entered _ run left)
  · rintro fine before call outcome after rfl entered left run last
    have all : before.all fun call => call.1.returns := by
      rw [← runCalls_isSome globals before s, run]
      rfl
    rw [run_eq] at last
    split at last
    · rename_i returns
      have reached : (call, outcome) ∈
          (before ++ (call, outcome) :: after).takeWhile fun call => call.1.returns := by
        rw [List.takeWhile_append_of_pos (List.all_eq_true.mp all), List.takeWhile_cons, if_pos returns]
        exact List.mem_append_right _ List.mem_cons_self
      rw [← Option.some.inj last]
      exact (gettop_residue outcome entered).mpr (fine (call, outcome) reached)
    · exact absurd last nofun

end Engine

/-- A client sends text that is no JSON, and the error stays on the stack. -/
theorem not_balanced_malformed : ¬ ∀ globals calls s, Balanced globals calls s := by
  intro all
  have same := all (fun name => .function name) [(.callLua 7 1 0 [123], .failed (.string [101]))] []
    [] (.callLua 7 1 0 [123]) (.failed (.string [101])) [] rfl [] [.string [101]] rfl rfl
  exact absurd same (by decide)

end GameServer.Script
