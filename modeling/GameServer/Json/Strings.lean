/-
Module: GameServer.Json.Strings
Purpose: What `decode_scanString` hands to `loadstring` is one string literal and nothing else, and which strings
  survive `encodeString`.
Trusted boundary: as for decoding
Main exports: readString_closingQuote, decodeScanString_iff, decodeScanString_literal, escape, encodeString_eq,
  readString_encodeString
-/
import GameServer.Json.Decode

namespace GameServer.Json

open Lib.LuaLiteral

/-! ## The end that the scan finds and the end of the literal

The scanner looks for the closing quote, and Lua for the end of the literal. Both must agree for the chunk to be one
literal and nothing else.
-/

section

variable {q c : Char} {text inside rest : Text}

/-- The two quotation marks. -/
def IsQuote (q : Char) : Prop := q = '"' ∨ q = '\''

theorem IsQuote.not_backslash (quote : IsQuote q) : '\\' ≠ q := by
  cases quote with
  | inl double => subst double; decide
  | inr single => subst single; decide

theorem IsQuote.not_newline (quote : IsQuote q) : isNewline q = false := by
  cases quote with
  | inl double => subst double; decide
  | inr single => subst single; decide

theorem IsQuote.not_digit (quote : IsQuote q) : q.isDigit = false := by
  cases quote with
  | inl double => subst double; decide
  | inr single => subst single; decide

theorem closingQuote_plain (noEscape : c ≠ '\\') (notQuote : c ≠ q) :
    closingQuote q false (c :: text) =
      (closingQuote q false text).map fun (inside, rest) => (c :: inside, rest) := by
  rw [closingQuote, if_neg noEscape, if_neg notQuote]

/-- A character that is neither the quote nor a backslash does not move the closing quote. -/
theorem closingQuote_plain_some (noEscape : c ≠ '\\') (notQuote : c ≠ q)
    (closed : closingQuote q false (c :: text) = some (inside, rest)) :
    ∃ inside', inside = c :: inside' ∧ closingQuote q false text = some (inside', rest) := by
  rw [closingQuote_plain noEscape notQuote] at closed
  obtain ⟨⟨inside', rest'⟩, found, same⟩ := Option.map_eq_some_iff.mp closed
  cases same
  exact ⟨inside', rfl, found⟩

/-- A backslash takes the next character along. -/
theorem closingQuote_escape_some
    (closed : closingQuote q false ('\\' :: text) = some (inside, rest)) :
    ∃ e text' inside', text = e :: text' ∧ inside = '\\' :: e :: inside' ∧
      closingQuote q false text' = some (inside', rest) := by
  rw [closingQuote, if_pos rfl] at closed
  obtain ⟨⟨escaped, rest'⟩, found, same⟩ := Option.map_eq_some_iff.mp closed
  cases same
  cases text with
  | nil => cases found
  | cons e text' =>
      rw [closingQuote] at found
      obtain ⟨⟨inside', rest'⟩, found, same⟩ := Option.map_eq_some_iff.mp found
      cases same
      exact ⟨e, text', inside', rfl, rfl, found⟩

/-- A digit is neither a backslash nor a quote. -/
theorem digit_plain (quote : IsQuote q) (digit : c.isDigit = true) : c ≠ '\\' ∧ c ≠ q := by
  constructor
  · intro same
    subst same
    exact absurd digit (by decide)
  · intro same
    subst same
    exact absurd digit (by simp [quote.not_digit])

theorem newline_plain (quote : IsQuote q) (newline : isNewline c = true) : c ≠ '\\' ∧ c ≠ q := by
  constructor
  · intro same
    subst same
    exact absurd newline (by decide)
  · intro same
    subst same
    exact absurd newline (by simp [quote.not_newline])

/-- What is read is kept. -/
theorem closingQuote_head {escaped : Bool} (closed : closingQuote q escaped (c :: text) = some (inside, rest)) :
    ∃ inside', inside = c :: inside' := by
  cases escaped with
  | true =>
      obtain ⟨⟨inside', rest'⟩, _, same⟩ := Option.map_eq_some_iff.mp closed
      cases same
      exact ⟨inside', rfl⟩
  | false =>
      rw [closingQuote] at closed
      split at closed
      · obtain ⟨⟨inside', rest'⟩, _, same⟩ := Option.map_eq_some_iff.mp closed
        cases same
        exact ⟨inside', rfl⟩
      · split at closed
        · cases closed
          exact ⟨[], rfl⟩
        · obtain ⟨⟨inside', rest'⟩, _, same⟩ := Option.map_eq_some_iff.mp closed
          cases same
          exact ⟨inside', rfl⟩

/-- The digits of an escape end in front of the closing quote. -/
theorem readDecimal_closed (quote : IsQuote q) (n code : Nat)
    (closed : closingQuote q false text = some (inside, rest)) :
    ∃ value inside' text', readDecimal n code inside = (value, inside') ∧ readDecimal n code text = (value, text') ∧
      closingQuote q false text' = some (inside', rest) := by
  induction n generalizing code inside text with
  | zero => exact ⟨code, inside, text, rfl, rfl, closed⟩
  | succ n ih =>
      cases text with
      | nil => cases closed
      | cons d text =>
          by_cases digit : d.isDigit = true
          · obtain ⟨noEscape, notQuote⟩ := digit_plain quote digit
            obtain ⟨inside', rfl, found⟩ := closingQuote_plain_some noEscape notQuote closed
            rw [readDecimal, if_pos digit, readDecimal, if_pos digit]
            exact ih _ found
          · obtain ⟨inside', rfl⟩ := closingQuote_head closed
            rw [readDecimal, if_neg digit, readDecimal, if_neg digit]
            exact ⟨_, _, _, rfl, rfl, closed⟩

/-- Two characters of a line end go together. -/
theorem inclinenumber_closed (quote : IsQuote q) (old : Char)
    (closed : closingQuote q false text = some (inside, rest)) :
    closingQuote q false (inclinenumber old text) = some (inclinenumber old inside, rest) := by
  cases text with
  | nil => cases closed
  | cons c text =>
      by_cases second : isNewline c ∧ c ≠ old
      · obtain ⟨noEscape, notQuote⟩ := newline_plain quote second.1
        obtain ⟨inside', rfl, found⟩ := closingQuote_plain_some noEscape notQuote closed
        rw [inclinenumber, if_pos second, inclinenumber, if_pos second]
        exact found
      · obtain ⟨inside', rfl⟩ := closingQuote_head closed
        rw [inclinenumber, if_neg second, inclinenumber, if_neg second]
        exact closed

/-- An escape is read alike with and without what is behind the closing quote, and ends in front of it. -/
theorem readEscape_closed (quote : IsQuote q) (e : Char)
    (closed : closingQuote q false text = some (inside, rest)) :
    (∃ error, readEscape (e :: inside) = .error error ∧ readEscape (e :: text) = .error error) ∨
      ∃ value inside' text', readEscape (e :: inside) = .ok (value, inside') ∧
        readEscape (e :: text) = .ok (value, text') ∧ closingQuote q false text' = some (inside', rest) := by
  rw [readEscape, readEscape]
  cases controlEscape e with
  | some value => exact .inr ⟨value, inside, text, rfl, rfl, closed⟩
  | none =>
      by_cases newline : isNewline e = true
      · rw [if_pos newline, if_pos newline]
        exact .inr ⟨_, _, _, rfl, rfl, inclinenumber_closed quote e closed⟩
      · rw [if_neg newline, if_neg newline]
        by_cases digit : e.isDigit = true
        · rw [if_pos digit, if_pos digit, readDecimal, if_pos digit, readDecimal, if_pos digit]
          obtain ⟨value, inside', text', short, long, found⟩ := readDecimal_closed quote 2 _ closed
          rw [short, long]
          by_cases tooLarge : value > 255
          · exact .inl ⟨_, if_pos tooLarge, if_pos tooLarge⟩
          · exact .inr ⟨_, _, _, if_neg tooLarge, if_neg tooLarge, found⟩
        · rw [if_neg digit, if_neg digit]
          exact .inr ⟨e, inside, text, rfl, rfl, closed⟩

theorem closingQuote_plain_none (noEscape : c ≠ '\\') (notQuote : c ≠ q)
    (unclosed : closingQuote q false (c :: text) = none) : closingQuote q false text = none := by
  rw [closingQuote_plain noEscape notQuote] at unclosed
  exact Option.map_eq_none_iff.mp unclosed

theorem readDecimal_open (quote : IsQuote q) (n code : Nat) (unclosed : closingQuote q false text = none) :
    closingQuote q false (readDecimal n code text).2 = none := by
  induction n generalizing code text with
  | zero => exact unclosed
  | succ n ih =>
      cases text with
      | nil => exact unclosed
      | cons d text =>
          rw [readDecimal]
          split
          · rename_i digit
            obtain ⟨noEscape, notQuote⟩ := digit_plain quote digit
            exact ih _ (closingQuote_plain_none noEscape notQuote unclosed)
          · exact unclosed

theorem inclinenumber_open (quote : IsQuote q) (old : Char) (unclosed : closingQuote q false text = none) :
    closingQuote q false (inclinenumber old text) = none := by
  cases text with
  | nil => exact unclosed
  | cons c text =>
      rw [inclinenumber]
      split
      · rename_i second
        obtain ⟨noEscape, notQuote⟩ := newline_plain quote second.1
        exact closingQuote_plain_none noEscape notQuote unclosed
      · exact unclosed

/-- Without a closing quote there is none behind an escape. -/
theorem readEscape_open (quote : IsQuote q) {e value : Char} (unclosed : closingQuote q false text = none)
    (read : readEscape (e :: text) = .ok (value, rest)) : closingQuote q false rest = none := by
  rw [readEscape] at read
  split at read
  · cases read
    exact unclosed
  · split at read
    · cases read
      exact inclinenumber_open quote e unclosed
    · split at read
      · rename_i digit
        rw [readDecimal, if_pos digit] at read
        simp only at read
        split at read
        · cases read
        · cases read
          exact readDecimal_open quote 2 _ unclosed
      · cases read
        exact unclosed

/-- The lexer reads the text up to the closing quote as one literal, or fails in it. -/
theorem readString_closed (quote : IsQuote q) (n : Nat) : ∀ text inside, text.length ≤ n →
    closingQuote q false text = some (inside, rest) →
    (∃ error, readString q inside = .error error ∧ readString q text = .error error) ∨
      ∃ value, readString q inside = .ok (value, []) ∧ readString q text = .ok (value, rest) := by
  induction n with
  | zero =>
      intro text inside short closed
      rw [List.length_eq_zero_iff.mp (Nat.le_zero.mp short)] at closed
      cases closed
  | succ n ih =>
      intro text inside short closed
      cases text with
      | nil => cases closed
      | cons c text =>
          have shorter : text.length ≤ n := Nat.le_of_succ_le_succ short
          by_cases escape : c = '\\'
          · subst escape
            obtain ⟨e, text, inside, rfl, rfl, found⟩ := closingQuote_escape_some closed
            cases readEscape_closed quote e found with
            | inl failed =>
                obtain ⟨error, within, beyond⟩ := failed
                exact .inl ⟨error, readString_badEscape quote.not_backslash within,
                  readString_badEscape quote.not_backslash beyond⟩
            | inr read =>
                obtain ⟨value, inside', text', within, beyond, found'⟩ := read
                rw [readString_escape quote.not_backslash within, readString_escape quote.not_backslash beyond]
                have less := readEscape_length beyond
                cases ih text' inside' (less.trans shorter) found' with
                | inl failed =>
                    obtain ⟨error, within, beyond⟩ := failed
                    rw [within, beyond]
                    exact .inl ⟨error, rfl, rfl⟩
                | inr read =>
                    obtain ⟨value, within, beyond⟩ := read
                    rw [within, beyond]
                    exact .inr ⟨_, rfl, rfl⟩
          · by_cases isEnd : c = q
            · subst isEnd
              rw [closingQuote, if_neg escape, if_pos rfl] at closed
              cases closed
              exact .inr ⟨[], readString_del, readString_del⟩
            · obtain ⟨inside', rfl, found⟩ := closingQuote_plain_some escape isEnd closed
              cases newline : isNewline c with
              | true =>
                  exact .inl ⟨_, readString_newline newline isEnd, readString_newline newline isEnd⟩
              | false =>
                  rw [readString_plain isEnd newline escape, readString_plain isEnd newline escape]
                  cases ih text inside' shorter found with
                  | inl failed =>
                      obtain ⟨error, within, beyond⟩ := failed
                      rw [within, beyond]
                      exact .inl ⟨error, rfl, rfl⟩
                  | inr read =>
                      obtain ⟨value, within, beyond⟩ := read
                      rw [within, beyond]
                      exact .inr ⟨_, rfl, rfl⟩

/-- Without a closing quote the lexer fails as well. -/
theorem readString_open (quote : IsQuote q) (n : Nat) : ∀ text, text.length ≤ n →
    closingQuote q false text = none → ∃ error, readString q text = .error error := by
  induction n with
  | zero =>
      intro text short _
      rw [List.length_eq_zero_iff.mp (Nat.le_zero.mp short)]
      exact ⟨_, readString_nil⟩
  | succ n ih =>
      intro text short unclosed
      cases text with
      | nil => exact ⟨_, readString_nil⟩
      | cons c text =>
          have shorter : text.length ≤ n := Nat.le_of_succ_le_succ short
          by_cases escape : c = '\\'
          · subst escape
            cases read : readEscape text with
            | error e => exact ⟨e, readString_badEscape quote.not_backslash read⟩
            | ok found =>
                obtain ⟨value, rest⟩ := found
                cases text with
                | nil => cases read
                | cons e text =>
                    rw [closingQuote, if_pos rfl, closingQuote, Option.map_map] at unclosed
                    have open_ := readEscape_open quote (Option.map_eq_none_iff.mp unclosed) read
                    obtain ⟨error, failed⟩ := ih rest ((readEscape_length read).trans shorter) open_
                    rw [readString_escape quote.not_backslash read, failed]
                    exact ⟨error, rfl⟩
          · by_cases isEnd : c = q
            · rw [closingQuote, if_neg escape, if_pos isEnd] at unclosed
              cases unclosed
            · cases newline : isNewline c with
              | true => exact ⟨_, readString_newline newline isEnd⟩
              | false =>
                  obtain ⟨error, failed⟩ := ih text shorter (closingQuote_plain_none escape isEnd unclosed)
                  rw [readString_plain isEnd newline escape, failed]
                  exact ⟨error, rfl⟩

/-- The chunk that is loaded for a string is `return` and exactly one literal, or does not compile. -/
theorem readString_closingQuote (quote : IsQuote q) (closed : closingQuote q false text = some (inside, rest)) :
    (∃ error, readString q inside = .error error) ∨ ∃ value, readString q inside = .ok (value, []) := by
  cases readString_closed quote text.length text inside (Nat.le_refl _) closed with
  | inl failed =>
      obtain ⟨error, within, _⟩ := failed
      exact .inl ⟨error, within⟩
  | inr read =>
      obtain ⟨value, within, _⟩ := read
      exact .inr ⟨value, within⟩

/-- A string is decoded exactly where the text goes on with a literal of the language, to the literal's value and up to
its end. -/
theorem decodeScanString_iff (quote : IsQuote q) (s : Text) (v : Value) :
    decodeScanString s q text = .ok (v, rest) ↔ ∃ value, v = .string value ∧ readString q text = .ok (value, rest) := by
  rw [decodeScanString]
  cases closed : closingQuote q false text with
  | none =>
      obtain ⟨error, failed⟩ := readString_open quote text.length text (Nat.le_refl _) closed
      rw [failed]
      simp [fail]
  | some found =>
      obtain ⟨inside, behind⟩ := found
      cases readString_closed quote text.length text inside (Nat.le_refl _) closed with
      | inl failed =>
          obtain ⟨error, within, beyond⟩ := failed
          simp [within, beyond, fail]
      | inr read =>
          obtain ⟨value, within, beyond⟩ := read
          simp only [within, beyond, Except.ok.injEq, Prod.mk.injEq]
          constructor
          · rintro ⟨rfl, rfl⟩
            exact ⟨value, rfl, rfl, rfl⟩
          · rintro ⟨_, rfl, rfl, rfl⟩
            exact ⟨rfl, rfl⟩

/-- No text makes `decode` run anything but a string literal. -/
theorem decodeScanString_literal (quote : IsQuote q) (s text : Text) :
    (∀ inside rest, closingQuote q false text = some (inside, rest) →
        (∃ error, readString q inside = .error error) ∨ ∃ value, readString q inside = .ok (value, [])) ∧
      ∀ v rest, decodeScanString s q text = .ok (v, rest) ↔
        ∃ value, v = .string value ∧ readString q text = .ok (value, rest) :=
  ⟨fun _ _ => readString_closingQuote quote, fun v _ => decodeScanString_iff quote s v⟩

theorem decodeScanString_literal_single :
    (∀ inside rest, closingQuote '\'' false ['a', '\''] = some (inside, rest) →
        (∃ error, readString '\'' inside = .error error) ∨ ∃ value, readString '\'' inside = .ok (value, [])) ∧
      ∀ v rest, decodeScanString ['\'', 'a', '\''] '\'' ['a', '\''] = .ok (v, rest) ↔
        ∃ value, v = .string value ∧ readString '\'' ['a', '\''] = .ok (value, rest) :=
  decodeScanString_literal (.inr rfl) ['\'', 'a', '\''] ['a', '\'']

end

/-! ## Strings that are written and read again

The five substitutions, character by character, and the escapes that undo them.
-/

/-- What the five substitutions make of one character. -/
def escape (c : Char) : Text :=
  if c = '\\' then ['\\', '\\']
  else if c = '"' then ['\\', '"']
  else if c = '\'' then ['\\', '\'']
  else if c = '\n' then ['\\', 'n']
  else if c = '\t' then ['\\', 't']
  else [c]

/-- No substitution touches what an earlier one has put in. -/
theorem encodeString_eq (s : Text) : encodeString s = s.flatMap escape := by
  simp only [encodeString, gsub, List.flatMap_assoc]
  refine congrArg (fun f => List.flatMap f s) (funext fun c => ?_)
  rw [escape]
  split_ifs <;> simp_all

/-- Only a carriage return is lost on the way: it is left as it is, and ends the literal. -/
theorem readString_encodeString (s rest : Text) :
    readString '"' (encodeString s ++ '"' :: rest) =
      if '\r' ∈ s then .error .unfinishedString else .ok (s, rest) := by
  rw [encodeString_eq]
  induction s with
  | nil => exact readString_del
  | cons c s ih =>
      rw [List.flatMap_cons, List.append_assoc]
      have escaped {e : Char} (notReturn : c ≠ '\r') (is : escape c = ['\\', e])
          (read : ∀ text, readEscape (e :: text) = .ok (c, text)) :
          readString '"' (escape c ++ (s.flatMap escape ++ '"' :: rest)) =
            if '\r' ∈ c :: s then .error .unfinishedString else .ok (c :: s, rest) := by
        rw [is, List.cons_append, List.cons_append, List.nil_append, readString_escape (by decide) (read _), ih]
        by_cases inRest : '\r' ∈ s
        · rw [if_pos inRest, if_pos (List.mem_cons_of_mem c inRest), save]
        · rw [if_neg inRest, if_neg (by simp [notReturn.symm, inRest]), save]
      by_cases backslash : c = '\\'
      · subst backslash
        exact escaped (by decide) rfl fun _ => rfl
      by_cases double : c = '"'
      · subst double
        exact escaped (by decide) rfl fun _ => rfl
      by_cases single : c = '\''
      · subst single
        exact escaped (by decide) rfl fun _ => rfl
      by_cases feed : c = '\n'
      · subst feed
        exact escaped (by decide) rfl fun _ => rfl
      by_cases tab : c = '\t'
      · subst tab
        exact escaped (by decide) rfl fun _ => rfl
      have same : escape c = [c] := by simp [escape, backslash, double, single, feed, tab]
      rw [same, List.singleton_append]
      by_cases isReturn : c = '\r'
      · subst isReturn
        rw [readString_newline rfl (by decide), if_pos List.mem_cons_self]
      · rw [readString_plain double (by simp [isNewline, feed, isReturn]) backslash, ih]
        by_cases inRest : '\r' ∈ s
        · rw [if_pos inRest, if_pos (List.mem_cons_of_mem c inRest), save]
        · rw [if_neg inRest, if_neg (by simp [Ne.symm isReturn, inRest]), save]

end GameServer.Json
