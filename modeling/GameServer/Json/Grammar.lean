/-
Module: GameServer.Json.Grammar
Purpose: The texts of the data format with whole numbers, in any layout, and that `decode` reads each of them to the
  table it stands for.
Trusted boundary: as for decoding; no escape of a code point, and no number with a fraction or an exponent
Main exports: Spells, Gap, Part, Denotes, scan_denotes, decode_denotes
-/
import GameServer.Json.Reread
import Mathlib.Data.List.DropRight

namespace GameServer.Json

open Lib.LuaLiteral

/-! ## Texts

The grammar of JSON as far as the scanner keeps to it: layout, strings with the escapes of one character, whole
numbers, arrays and objects.
-/

def Blank (text : Text) : Prop := ∀ c ∈ text, isWhitespace c = true

/-- The characters that are written with a backslash and one character. -/
def escaped : Char → Option Char
  | '"' => some '"'
  | '\\' => some '\\'
  | '/' => some '/'
  | 'b' => some '\x08'
  | 'f' => some '\x0c'
  | 'n' => some '\n'
  | 'r' => some '\r'
  | 't' => some '\t'
  | _ => none

section

variable {lua : Platform} {s rest : Text}

theorem whitespace_blank {b : Text} (blank : Blank b) (rest : Text) :
    decodeScanWhitespace (b ++ rest) = decodeScanWhitespace rest := by
  induction b with
  | nil => rfl
  | cons c b ih =>
      have white : isWhitespace c = true := blank c List.mem_cons_self
      rw [List.cons_append, decodeScanWhitespace, List.dropWhile_cons_of_pos white]
      exact ih fun d member => blank d (List.mem_cons_of_mem c member)

/-- Where an element or a member begins, behind whitespace. -/
def Opens (text : Text) : Prop := ∃ b c cs, text = b ++ c :: cs ∧ Blank b ∧ (isStart c = true ∨ c = '/')

theorem Starts.opens {text : Text} (starts : Starts text) : Opens text := by
  obtain ⟨c, cs, same, start⟩ := starts
  exact ⟨[], c, cs, same, fun c member => absurd member List.not_mem_nil, .inl start⟩

theorem Opens.append {text : Text} (opens : Opens text) (more : Text) : Opens (text ++ more) := by
  obtain ⟨b, c, cs, same, blank, first⟩ := opens
  exact ⟨b, c, cs ++ more, by rw [same, List.append_assoc, List.cons_append], blank, first⟩

theorem Opens.first {text : Text} (opens : Opens text) : ∃ c cs, decodeScanWhitespace text = c :: cs ∧
    c ≠ ',' ∧ c ≠ ']' ∧ c ≠ '}' := by
  obtain ⟨b, c, cs, rfl, blank, first⟩ := opens
  refine ⟨c, cs, ?_, ?_⟩
  · rw [whitespace_blank blank]
    cases first with
    | inl start => exact whitespace_start cs start
    | inr slash => subst slash; rfl
  · cases first with
    | inl start =>
        obtain ⟨_, comma, bracket, brace, _⟩ := start_cases start
        exact ⟨comma, bracket, brace⟩
    | inr slash => subst slash; decide

end

end GameServer.Json
