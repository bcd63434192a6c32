/-
Module: GameServer.Json.Decode
Purpose: `json.decode` of the scripts with its scanning functions and their errors, and its equations without the
  bound on the recursion.
Trusted boundary: a number from 2^53 on or with a fraction or an exponent is left to the platform
Main exports: Stop, position, closingQuote, decodeScanString, decodeFrom, decodeScanArray, decodeScanObject, decode,
  decodeFrom_ends, scan, scanArray, scanObject, scan_eq, scanArray_eq, scanObject_eq, decode_returns_or_raises
-/
import GameServer.Json.Encode

namespace GameServer.Json

open Lib.LuaLiteral

/-! ## Errors and positions

Every error of the scanner names a position in the text.
-/

/-- How a call ends that does not return.  Only the bound of the model on the recursion is `outOfFuel`. -/
inductive Stop where
  | raised (message : String)
  | outOfFuel

/-- The position in `s` where what is left to scan begins. -/
def position (s rest : Text) : Nat := s.length + 1 - rest.length

def shown (t : Text) : String := String.ofList t

def fail {α : Type} (message : String) : Except Stop α := .error (.raised message)

/-! ## Scanning without recursion

Whitespace, comments, constants, numbers and strings. Numbers and strings are given to `loadstring`.
-/

def isWhitespace (c : Char) : Bool := c ∈ [' ', '\n', '\r', '\t']

def decodeScanWhitespace (rest : Text) : Text := rest.dropWhile isWhitespace

/-- The characters of `"+-0123456789.e"`. -/
def isAcceptable (c : Char) : Bool := c ∈ ['+', '-', '0', '1', '2', '3', '4', '5', '6', '7', '8', '9', '.', 'e']

/-- What is behind the first `*/`. -/
def behindComment : Text → Option Text
  | [] => none
  | c :: rest => if c = '*' ∧ rest.head? = some '/' then some rest.tail else behindComment rest

/-- From behind the `/*`. -/
def decodeScanComment (s rest : Text) : Except Stop Text :=
  match behindComment rest with
  | some behind => .ok behind
  | none => fail ("Unterminated comment in string at " ++ toString (position s rest - 2))

def decodeScanConstant (s rest : Text) : Except Stop (Value × Text) :=
  if ['t', 'r', 'u', 'e'].isPrefixOf rest then .ok (.boolean true, rest.drop 4)
  else if ['f', 'a', 'l', 's', 'e'].isPrefixOf rest then .ok (.boolean false, rest.drop 5)
  else if ['n', 'u', 'l', 'l'].isPrefixOf rest then .ok (.nil, rest.drop 4)
  else
    fail ("Failed to scan constant from string " ++ shown s ++ " at starting position " ++ toString (position s rest))

/-- `loadstring` of `return` and the text, and a call of the chunk. -/
def loadNumber (lua : Platform) (text : Text) : Evaluated :=
  match numeral text with
  | some n => .value (.number n)
  | none => lua.evaluate text

/-- The first character is taken as it is. -/
def decodeScanNumber (lua : Platform) (s : Text) (curChar : Char) (behind : Text) : Except Stop (Value × Text) :=
  let text := curChar :: behind.takeWhile isAcceptable
  let rest := behind.dropWhile isAcceptable
  match loadNumber lua text with
  | .value v => .ok (v, rest)
  | .raises message => fail message
  | .syntaxError =>
      fail ("Failed to scan number [ return " ++ shown text ++ "] in JSON string at position " ++
        toString (position s (curChar :: behind)) ++ " : " ++ toString (position s rest))

/-- The text up to the first `startChar` without a backslash in front of it, that one included, and the rest. -/
def closingQuote (startChar : Char) : Bool → Text → Option (Text × Text)
  | _, [] => none
  | true, c :: cs => (closingQuote startChar false cs).map fun (inside, rest) => (c :: inside, rest)
  | false, c :: cs =>
      if c = '\\' then (closingQuote startChar true cs).map fun (inside, rest) => (c :: inside, rest)
      else if c = startChar then some ([c], cs)
      else (closingQuote startChar false cs).map fun (inside, rest) => (c :: inside, rest)

/-- The chunk is `return` and the quoted text, which is one literal (`readString_closingQuote`). -/
def decodeScanString (s : Text) (startChar : Char) (behind : Text) : Except Stop (Value × Text) :=
  match closingQuote startChar false behind with
  | none => fail ("String decoding failed: unterminated string at position " ++ toString (s.length + 2))
  | some (inside, rest) =>
      match readString startChar inside with
      | .ok (value, _) => .ok (.string value, rest)
      | .error _ =>
          fail ("Failed to load string [ return " ++ shown (startChar :: inside) ++
            "] in JSON4Lua.decode_scanString at position " ++ toString (position s (startChar :: behind)) ++ " : " ++
            toString (position s rest))

/-! ## Tables

Arrays and objects, whose elements are decoded in turn. The recursion is bounded by a fuel argument.
-/

/-- `table.insert(array, object)`, which does nothing for nil. -/
def insert (array : List Value) : Value → List Value
  | .nil => array
  | object => array ++ [object]

/-- The entries of an array from the index `i`. -/
def entriesFrom : Nat → List Value → Entries
  | _, [] => []
  | i, v :: rest => (.number i, v) :: entriesFrom (i + 1) rest

def arrayTable (array : List Value) : Value := .table (entriesFrom 1 array)

/-- `t[key] = value` for a value that is not nil. -/
def Entries.set (key : Key) (value : Value) : Entries → Entries
  | [] => [(key, value)]
  | (other, old) :: entries =>
      if other = key then (other, value) :: entries else (other, old) :: Entries.set key value entries

/-- `object[key] = value`. -/
def assign (object : Entries) (key : Key) : Value → Entries
  | .nil => object.filter fun entry => entry.1 ≠ key
  | value => Entries.set key value object

def Value.typeName : Value → String
  | .nil => "nil"
  | .null => "function"
  | .boolean _ => "boolean"
  | .number _ => "number"
  | .string _ => "string"
  | .table _ => "table"
  | .unsupported => "userdata"

/-- The messages of `decode_scanObject` are put together before they are needed, so that a key must be a string or a
number. -/
def asKey (lua : Platform) : Value → Except Stop (Key × Text)
  | .string t => .ok (.string t, t)
  | .number q => .ok (.number q, tostring lua q)
  | v => fail ("attempt to concatenate local 'key' (a " ++ v.typeName ++ " value)")

/-- The rest behind the colon and the whitespace around it, where a value is to begin. -/
def scanColon (s keyText rest : Text) : Except Stop Text :=
  match decodeScanWhitespace rest with
  | [] => fail ("JSON string ended unexpectedly searching for value of key " ++ shown keyText)
  | c :: behind =>
      if c ≠ ':' then fail ("JSON object key-value assignment mal-formed at " ++ toString (position s (c :: behind)))
      else if decodeScanWhitespace behind = [] then
        fail ("JSON string ended unexpectedly searching for value of key " ++ shown keyText)
      else .ok (decodeScanWhitespace behind)

/-- Where the next element or key begins: behind whitespace, and behind a comma and the whitespace after it; none at
the closing bracket, with the rest behind it. -/
def nextItem (close : Char) (ended endedAtComma : String) (rest : Text) : Except Stop (Sum Text Text) :=
  match decodeScanWhitespace rest with
  | [] => fail ended
  | curChar :: behind =>
      if curChar = close then .ok (.inl behind)
      else if curChar = ',' then
        if decodeScanWhitespace behind = [] then fail endedAtComma else .ok (.inr (decodeScanWhitespace behind))
      else .ok (.inr (curChar :: behind))

def nextElement : Text → Except Stop (Sum Text Text) :=
  nextItem ']' "JSON String ended unexpectedly scanning array." "JSON String ended unexpectedly scanning array."

def nextKey : Text → Except Stop (Sum Text Text) :=
  nextItem '}' "JSON string ended unexpectedly while scanning object."
    "JSON string ended unexpectedly scanning object."

section

variable (lua : Platform) (s : Text)

mutual

/-- `decode` from a position on, at most `fuel` calls deep. -/
def decodeFrom : Nat → Text → Except Stop (Value × Text)
  | 0, _ => .error .outOfFuel
  | fuel + 1, rest =>
      match decodeScanWhitespace rest with
      | [] => fail ("Unterminated JSON encoded object found at position in [" ++ shown s ++ "]")
      | curChar :: behind =>
          if curChar = '{' then decodeScanObject fuel [] behind
          else if curChar = '[' then decodeScanArray fuel [] behind
          else if isAcceptable curChar then decodeScanNumber lua s curChar behind
          else if curChar = '"' ∨ curChar = '\'' then decodeScanString s curChar behind
          else if curChar = '/' ∧ behind.head? = some '*' then do
            let rest ← decodeScanComment s behind.tail
            decodeFrom fuel rest
          else decodeScanConstant s (curChar :: behind)

/-- The loop of `decode_scanArray` with the elements it has so far. -/
def decodeScanArray : Nat → List Value → Text → Except Stop (Value × Text)
  | 0, _, _ => .error .outOfFuel
  | fuel + 1, array, rest => do
      match ← nextElement rest with
      | .inl behind => return (arrayTable array, behind)
      | .inr start =>
          let (object, rest) ← decodeFrom fuel start
          decodeScanArray fuel (insert array object) rest

/-- The loop of `decode_scanObject` with the entries it has so far. -/
def decodeScanObject : Nat → Entries → Text → Except Stop (Value × Text)
  | 0, _, _ => .error .outOfFuel
  | fuel + 1, object, rest => do
      match ← nextKey rest with
      | .inl behind => return (.table object, behind)
      | .inr start =>
          let (key, rest) ← decodeFrom fuel start
          let (key, keyText) ← asKey lua key
          if rest = [] then fail ("JSON string ended unexpectedly searching for value of key " ++ shown keyText)
          else
            let rest ← scanColon s keyText rest
            let (value, rest) ← decodeFrom fuel rest
            decodeScanObject fuel (assign object key value) rest

end

end

/-- The value and the position behind it. -/
def decode (lua : Platform) (s : Text) : Except Stop (Value × Nat) :=
  (decodeFrom lua s (2 * s.length + 1) s).map fun (v, rest) => (v, position s rest)

/-! ## What is left is shorter

Every scan takes something off the text, so the length of the text bounds the recursion.
-/

/-- A part of the text further behind. -/
def Behind (rest' rest : Text) : Prop := rest' <:+ rest ∧ rest'.length < rest.length

theorem Behind.of_suffix {a b c : Text} (first : a <:+ b) (further : Behind b c) : Behind a c :=
  ⟨first.trans further.1, Nat.lt_of_le_of_lt first.length_le further.2⟩

theorem Behind.suffix {a b c : Text} (first : Behind a b) (further : b <:+ c) : Behind a c :=
  ⟨first.1.trans further, Nat.lt_of_lt_of_le first.2 further.length_le⟩

theorem Behind.trans {a b c : Text} (first : Behind a b) (further : Behind b c) : Behind a c :=
  .of_suffix first.1 further

theorem behind_cons (c : Char) (rest : Text) : Behind rest (c :: rest) :=
  ⟨List.suffix_cons c rest, Nat.lt_succ_self _⟩

/-- Whitespace is taken off in front. -/
theorem whitespace_suffix (rest : Text) : decodeScanWhitespace rest <:+ rest := List.dropWhile_suffix _

/-- Behind whitespace and one character. -/
theorem behind_of_whitespace {rest behind : Text} {c : Char} (found : decodeScanWhitespace rest = c :: behind) :
    Behind behind rest :=
  (found ▸ behind_cons c behind : Behind behind (decodeScanWhitespace rest)).suffix (whitespace_suffix rest)

theorem behindComment_suffix {rest behind : Text} (found : behindComment rest = some behind) : behind <:+ rest := by
  induction rest with
  | nil => cases found
  | cons c rest ih =>
      rw [behindComment] at found
      split at found
      · cases found
        exact (List.tail_suffix rest).trans (List.suffix_cons c rest)
      · exact (ih found).trans (List.suffix_cons c rest)

theorem drop_behind {word rest : Text} (nonempty : word ≠ []) (here : word.isPrefixOf rest = true) :
    Behind (rest.drop word.length) rest := by
  have fits := (List.isPrefixOf_iff_prefix.mp here).length_le
  have positive := List.length_pos_of_ne_nil nonempty
  refine ⟨List.drop_suffix _ rest, ?_⟩
  rw [List.length_drop]
  omega

/-- A constant takes its word off. -/
theorem decodeScanConstant_behind {s rest rest' : Text} {v : Value}
    (scanned : decodeScanConstant s rest = .ok (v, rest')) : Behind rest' rest := by
  rw [decodeScanConstant] at scanned
  split at scanned
  · rename_i here
    cases scanned
    have behind := drop_behind (List.cons_ne_nil _ _) here
    exact behind
  · split at scanned
    · rename_i here
      cases scanned
      have behind := drop_behind (List.cons_ne_nil _ _) here
      exact behind
    · split at scanned
      · rename_i here
        cases scanned
        have behind := drop_behind (List.cons_ne_nil _ _) here
        exact behind
      · cases scanned

/-- What is inside the quotes, and the rest, are the text. -/
theorem closingQuote_append {startChar : Char} {escaped : Bool} {text inside rest : Text}
    (found : closingQuote startChar escaped text = some (inside, rest)) : text = inside ++ rest := by
  induction text generalizing escaped inside with
  | nil => cases escaped <;> cases found
  | cons c text ih =>
      have step {next : Bool}
          (here : (closingQuote startChar next text).map (fun (inside, rest) => (c :: inside, rest)) =
            some (inside, rest)) : c :: text = inside ++ rest := by
        obtain ⟨⟨inside', rest'⟩, more, same⟩ := Option.map_eq_some_iff.mp here
        cases same
        rw [ih more, List.cons_append]
      cases escaped with
      | true => exact step found
      | false =>
          rw [closingQuote] at found
          split at found
          · exact step found
          · split at found
            · cases found
              rfl
            · exact step found

/-- A string takes its quotes off the text at least. -/
theorem decodeScanString_behind {s behind rest' : Text} {c : Char} {v : Value}
    (scanned : decodeScanString s c behind = .ok (v, rest')) : Behind rest' (c :: behind) := by
  rw [decodeScanString] at scanned
  split at scanned
  · cases scanned
  · rename_i inside rest found
    split at scanned
    · cases scanned
      exact .of_suffix ⟨inside, (closingQuote_append found).symm⟩ (behind_cons c behind)
    · cases scanned

/-- A number takes its first character off at least. -/
theorem decodeScanNumber_behind {lua : Platform} {s behind rest' : Text} {c : Char} {v : Value}
    (scanned : decodeScanNumber lua s c behind = .ok (v, rest')) : Behind rest' (c :: behind) := by
  rw [decodeScanNumber] at scanned
  split at scanned
  · cases scanned
    exact .of_suffix (List.dropWhile_suffix _) (behind_cons c behind)
  · cases scanned
  · cases scanned

theorem nextItem_start {close : Char} {e e' : String} {rest start : Text}
    (next : nextItem close e e' rest = .ok (.inr start)) : start <:+ rest := by
  rw [nextItem] at next
  split at next
  · cases next
  · rename_i c behind found
    split at next
    · cases next
    · split at next
      · split at next
        · cases next
        · cases next
          exact (whitespace_suffix behind).trans (behind_of_whitespace found).1
      · cases next
        exact found ▸ whitespace_suffix rest

theorem nextItem_close {close : Char} {e e' : String} {rest behind : Text}
    (next : nextItem close e e' rest = .ok (.inl behind)) : Behind behind rest := by
  rw [nextItem] at next
  split at next
  · cases next
  · rename_i c behind' found
    split at next
    · cases next
      exact behind_of_whitespace found
    · split at next
      · split at next
        · cases next
        · cases next
      · cases next

theorem scanColon_behind {s keyText rest rest' : Text} (scanned : scanColon s keyText rest = .ok rest') :
    Behind rest' rest := by
  rw [scanColon] at scanned
  split at scanned
  · cases scanned
  · rename_i c behind found
    split at scanned
    · cases scanned
    · split at scanned
      · cases scanned
      · cases scanned
        exact .of_suffix (whitespace_suffix behind) (behind_of_whitespace found)

section

variable {α β : Type} {m m' : Except Stop α} {f g : α → Except Stop β}

theorem bind_ok {b : β} (ended : m >>= f = .ok b) : ∃ a, m = .ok a ∧ f a = .ok b := by
  cases m with
  | ok a => exact ⟨a, rfl, ended⟩
  | error e => cases ended

theorem bind_same (first : m = m') (further : ∀ a, m = .ok a → f a = g a) : (m >>= f) = (m' >>= g) := by
  subst first
  cases m with
  | ok a => exact further a rfl
  | error e => rfl

/-- The bound is reached in one of the two parts, or not at all. -/
theorem bind_not_outOfFuel (first : m ≠ .error .outOfFuel) (further : ∀ a, m = .ok a → f a ≠ .error .outOfFuel) :
    (m >>= f) ≠ .error .outOfFuel := by
  cases m with
  | ok a => exact further a rfl
  | error e => exact fun ended => first (congrArg Except.error (Except.error.inj ended))

end

section

variable {lua : Platform} {s : Text}

/-- Every scan that returns has moved on. -/
theorem decodeFrom_behind (fuel : Nat) :
    (∀ rest v rest', decodeFrom lua s fuel rest = .ok (v, rest') → Behind rest' rest) ∧
    (∀ array rest v rest', decodeScanArray lua s fuel array rest = .ok (v, rest') → Behind rest' rest) ∧
    (∀ object rest v rest', decodeScanObject lua s fuel object rest = .ok (v, rest') → Behind rest' rest) := by
  induction fuel with
  | zero =>
      refine ⟨?_, ?_, ?_⟩
      · intro rest v rest' scanned
        rw [decodeFrom] at scanned
        cases scanned
      · intro array rest v rest' scanned
        rw [decodeScanArray] at scanned
        cases scanned
      · intro object rest v rest' scanned
        rw [decodeScanObject] at scanned
        cases scanned
  | succ fuel ih =>
      obtain ⟨value, array, object⟩ := ih
      refine ⟨?_, ?_, ?_⟩
      · intro rest v rest' scanned
        rw [decodeFrom] at scanned
        split at scanned
        · cases scanned
        · rename_i c behind found
          have here : Behind behind rest := behind_of_whitespace found
          have whole : c :: behind <:+ rest := found ▸ whitespace_suffix rest
          split at scanned
          · exact (object _ _ _ _ scanned).trans here
          split at scanned
          · exact (array _ _ _ _ scanned).trans here
          split at scanned
          · exact (decodeScanNumber_behind scanned).suffix whole
          split at scanned
          · exact (decodeScanString_behind scanned).suffix whole
          split at scanned
          · obtain ⟨after, comment, scanned⟩ := bind_ok scanned
            have commented : after <:+ behind := by
              rw [decodeScanComment] at comment
              split at comment
              · rename_i closed
                cases comment
                exact (behindComment_suffix closed).trans (List.tail_suffix behind)
              · cases comment
            exact ((value _ _ _ scanned).suffix commented).trans here
          · exact (decodeScanConstant_behind scanned).suffix whole
      · intro items rest v rest' scanned
        rw [decodeScanArray] at scanned
        obtain ⟨next, atNext, scanned⟩ := bind_ok scanned
        cases next with
        | inl behind =>
            cases scanned
            exact nextItem_close atNext
        | inr start =>
            obtain ⟨element, atElement, scanned⟩ := bind_ok scanned
            exact ((array _ _ _ _ scanned).trans (value _ _ _ atElement)).suffix (nextItem_start atNext)
      · intro entries rest v rest' scanned
        rw [decodeScanObject] at scanned
        obtain ⟨next, atNext, scanned⟩ := bind_ok scanned
        cases next with
        | inl behind =>
            cases scanned
            exact nextItem_close atNext
        | inr start =>
            obtain ⟨key, atKey, scanned⟩ := bind_ok scanned
            obtain ⟨name, named, scanned⟩ := bind_ok scanned
            simp only at scanned
            split at scanned
            · cases scanned
            · obtain ⟨colon, atColon, scanned⟩ := bind_ok scanned
              obtain ⟨element, atElement, scanned⟩ := bind_ok scanned
              have behindValue := (object _ _ _ _ scanned).trans (value _ _ _ atElement)
              have behindKey := (behindValue.trans (scanColon_behind atColon)).trans (value _ _ _ atKey)
              exact behindKey.suffix (nextItem_start atNext)

theorem decodeScanComment_suffix {rest after : Text} (comment : decodeScanComment s rest = .ok after) :
    after <:+ rest := by
  rw [decodeScanComment] at comment
  split at comment
  · rename_i closed
    cases comment
    exact behindComment_suffix closed
  · cases comment

/-- Beyond twice the length the bound on the recursion does not matter. -/
theorem decodeFrom_fuel (fuel : Nat) : ∀ more, fuel ≤ more →
    (∀ rest, 2 * rest.length + 1 ≤ fuel → decodeFrom lua s more rest = decodeFrom lua s fuel rest) ∧
    (∀ array rest, 2 * rest.length + 2 ≤ fuel →
      decodeScanArray lua s more array rest = decodeScanArray lua s fuel array rest) ∧
    (∀ object rest, 2 * rest.length + 2 ≤ fuel →
      decodeScanObject lua s more object rest = decodeScanObject lua s fuel object rest) := by
  induction fuel with
  | zero =>
      intro more _
      exact ⟨fun _ none => absurd none (by omega), fun _ _ none => absurd none (by omega),
        fun _ _ none => absurd none (by omega)⟩
  | succ fuel ih =>
      intro more enough
      obtain ⟨more, rfl⟩ : ∃ m, more = m + 1 := ⟨more - 1, by omega⟩
      obtain ⟨value, array, object⟩ := ih more (Nat.le_of_succ_le_succ enough)
      refine ⟨?_, ?_, ?_⟩
      · intro rest bound
        rw [decodeFrom, decodeFrom]
        cases found : decodeScanWhitespace rest with
        | nil => rfl
        | cons c behind =>
            have shorter := (behind_of_whitespace found).2
            refine if_congr Iff.rfl (object _ _ (by omega)) (if_congr Iff.rfl (array _ _ (by omega))
              (if_congr Iff.rfl rfl (if_congr Iff.rfl rfl (if_congr Iff.rfl ?_ rfl))))
            refine bind_same rfl fun after comment => value _ ?_
            have commented := ((decodeScanComment_suffix comment).trans (List.tail_suffix behind)).length_le
            omega
      · intro items rest bound
        rw [decodeScanArray, decodeScanArray]
        refine bind_same rfl fun next atNext => ?_
        cases next with
        | inl behind => rfl
        | inr start =>
            have later := (nextItem_start atNext).length_le
            refine bind_same (value _ (by omega)) fun element atElement => array _ _ ?_
            have shorter := ((decodeFrom_behind more).1 _ _ _ atElement).2
            omega
      · intro entries rest bound
        rw [decodeScanObject, decodeScanObject]
        refine bind_same rfl fun next atNext => ?_
        cases next with
        | inl behind => rfl
        | inr start =>
            have later := (nextItem_start atNext).length_le
            refine bind_same (value _ (by omega)) fun key atKey => bind_same rfl fun name named => ?_
            have shorter := ((decodeFrom_behind more).1 _ _ _ atKey).2
            refine if_congr Iff.rfl rfl (bind_same rfl fun colon atColon => ?_)
            have behindColon := (scanColon_behind atColon).2
            refine bind_same (value _ (by omega)) fun element atElement => object _ _ ?_
            have behindValue := ((decodeFrom_behind more).1 _ _ _ atElement).2
            omega

/-! ## No bound is reached

With as much fuel as there are characters the scanner never stops for want of it.
-/

theorem fail_ends {α : Type} (message : String) : (fail message : Except Stop α) ≠ .error .outOfFuel := by
  intro same
  cases same

theorem ok_ends {α : Type} (a : α) : (.ok a : Except Stop α) ≠ .error .outOfFuel := by
  intro same
  cases same

theorem nextItem_ends (close : Char) (e e' : String) (rest : Text) :
    nextItem close e e' rest ≠ .error .outOfFuel := by
  rw [nextItem]
  split
  · exact fail_ends _
  · split
    · exact ok_ends _
    · split
      · split
        · exact fail_ends _
        · exact ok_ends _
      · exact ok_ends _

theorem scanColon_ends (keyText rest : Text) : scanColon s keyText rest ≠ .error .outOfFuel := by
  rw [scanColon]
  split
  · exact fail_ends _
  · split
    · exact fail_ends _
    · split
      · exact fail_ends _
      · exact ok_ends _

theorem asKey_ends (v : Value) : asKey lua v ≠ .error .outOfFuel := by
  cases v with
  | string t => exact ok_ends _
  | number q => exact ok_ends _
  | _ => exact fail_ends _

theorem decodeScanComment_ends (rest : Text) : decodeScanComment s rest ≠ .error .outOfFuel := by
  rw [decodeScanComment]
  split
  · exact ok_ends _
  · exact fail_ends _

theorem decodeScanConstant_ends (rest : Text) : decodeScanConstant s rest ≠ .error .outOfFuel := by
  rw [decodeScanConstant]
  split
  · exact ok_ends _
  · split
    · exact ok_ends _
    · split
      · exact ok_ends _
      · exact fail_ends _

theorem decodeScanNumber_ends (c : Char) (behind : Text) :
    decodeScanNumber lua s c behind ≠ .error .outOfFuel := by
  rw [decodeScanNumber]
  split
  · exact ok_ends _
  · exact fail_ends _
  · exact fail_ends _

theorem decodeScanString_ends (c : Char) (behind : Text) : decodeScanString s c behind ≠ .error .outOfFuel := by
  rw [decodeScanString]
  split
  · exact fail_ends _
  · split
    · exact ok_ends _
    · exact fail_ends _

/-- The bound is not reached where it is beyond twice the length. -/
theorem decodeFrom_ends (fuel : Nat) :
    (∀ rest, 2 * rest.length + 1 ≤ fuel → decodeFrom lua s fuel rest ≠ .error .outOfFuel) ∧
    (∀ array rest, 2 * rest.length + 2 ≤ fuel → decodeScanArray lua s fuel array rest ≠ .error .outOfFuel) ∧
    (∀ object rest, 2 * rest.length + 2 ≤ fuel → decodeScanObject lua s fuel object rest ≠ .error .outOfFuel) := by
  induction fuel with
  | zero =>
      exact ⟨fun _ none => absurd none (by omega), fun _ _ none => absurd none (by omega),
        fun _ _ none => absurd none (by omega)⟩
  | succ fuel ih =>
      obtain ⟨value, array, object⟩ := ih
      refine ⟨?_, ?_, ?_⟩
      · intro rest bound
        rw [decodeFrom]
        split
        · exact fail_ends _
        · rename_i c behind found
          have shorter := (behind_of_whitespace found).2
          split
          · exact object _ _ (by omega)
          split
          · exact array _ _ (by omega)
          split
          · exact decodeScanNumber_ends _ _
          split
          · exact decodeScanString_ends _ _
          split
          · refine bind_not_outOfFuel (decodeScanComment_ends _) fun after comment => value _ ?_
            have commented := ((decodeScanComment_suffix comment).trans (List.tail_suffix behind)).length_le
            omega
          · exact decodeScanConstant_ends _
      · intro items rest bound
        rw [decodeScanArray]
        refine bind_not_outOfFuel (nextItem_ends _ _ _ _) fun next atNext => ?_
        cases next with
        | inl behind => exact ok_ends _
        | inr start =>
            have later := (nextItem_start atNext).length_le
            refine bind_not_outOfFuel (value _ (by omega)) fun element atElement => array _ _ ?_
            have shorter := ((decodeFrom_behind fuel).1 _ _ _ atElement).2
            omega
      · intro entries rest bound
        rw [decodeScanObject]
        refine bind_not_outOfFuel (nextItem_ends _ _ _ _) fun next atNext => ?_
        cases next with
        | inl behind => exact ok_ends _
        | inr start =>
            have later := (nextItem_start atNext).length_le
            refine bind_not_outOfFuel (value _ (by omega)) fun key atKey =>
              bind_not_outOfFuel (asKey_ends _) fun name named => ?_
            have shorter := ((decodeFrom_behind fuel).1 _ _ _ atKey).2
            simp only
            split
            · exact fail_ends _
            refine bind_not_outOfFuel (scanColon_ends _ _) fun colon atColon => ?_
            have behindColon := (scanColon_behind atColon).2
            refine bind_not_outOfFuel (value _ (by omega)) fun element atElement => object _ _ ?_
            have behindValue := ((decodeFrom_behind fuel).1 _ _ _ atElement).2
            omega

end

/-! ## The scans without a bound

The scanner without its fuel, and the equations by which later modules unfold it.
-/

section

variable (lua : Platform) (s : Text)

/-- `decode` from where `rest` begins. -/
def scan (rest : Text) : Except Stop (Value × Text) := decodeFrom lua s (2 * rest.length + 1) rest

def scanArray (array : List Value) (rest : Text) : Except Stop (Value × Text) :=
  decodeScanArray lua s (2 * rest.length + 2) array rest

def scanObject (object : Entries) (rest : Text) : Except Stop (Value × Text) :=
  decodeScanObject lua s (2 * rest.length + 2) object rest

/-- What `decode` does at the first character that is not whitespace. -/
def scanAt (curChar : Char) (behind : Text) : Except Stop (Value × Text) :=
  if curChar = '{' then scanObject lua s [] behind
  else if curChar = '[' then scanArray lua s [] behind
  else if isAcceptable curChar then decodeScanNumber lua s curChar behind
  else if curChar = '"' ∨ curChar = '\'' then decodeScanString s curChar behind
  else if curChar = '/' ∧ behind.head? = some '*' then do
    let rest ← decodeScanComment s behind.tail
    scan lua s rest
  else decodeScanConstant s (curChar :: behind)

variable {lua s}

/-- A value begins at the first character that is not whitespace. -/
theorem scan_eq {rest behind : Text} {c : Char} (found : decodeScanWhitespace rest = c :: behind) :
    scan lua s rest = scanAt lua s c behind := by
  have shorter := (behind_of_whitespace found).2
  rw [scan, decodeFrom, found]
  refine if_congr Iff.rfl ((decodeFrom_fuel _ _ ?_).2.2 _ _ (Nat.le_refl _)) (if_congr Iff.rfl
    ((decodeFrom_fuel _ _ ?_).2.1 _ _ (Nat.le_refl _)) (if_congr Iff.rfl rfl (if_congr Iff.rfl rfl
      (if_congr Iff.rfl (bind_same rfl fun after comment => (decodeFrom_fuel _ _ ?_).1 _ (Nat.le_refl _)) rfl))))
  · omega
  · omega
  · have commented := ((decodeScanComment_suffix comment).trans (List.tail_suffix behind)).length_le
    omega

theorem scan_behind {rest rest' : Text} {v : Value} (scanned : scan lua s rest = .ok (v, rest')) :
    Behind rest' rest :=
  (decodeFrom_behind _).1 _ _ _ scanned

/-- The next element, or the end of the array. -/
theorem scanArray_eq (array : List Value) (rest : Text) :
    scanArray lua s array rest = (do
      match ← nextElement rest with
      | .inl behind => return (arrayTable array, behind)
      | .inr start =>
          let (object, rest) ← scan lua s start
          scanArray lua s (insert array object) rest) := by
  rw [scanArray, decodeScanArray]
  refine bind_same rfl fun next atNext => ?_
  cases next with
  | inl behind => rfl
  | inr start =>
      have later := (nextItem_start atNext).length_le
      have same : decodeFrom lua s (2 * rest.length + 1) start = scan lua s start :=
        (decodeFrom_fuel _ _ (by omega)).1 _ (Nat.le_refl _)
      refine bind_same same fun element atElement => (decodeFrom_fuel _ _ ?_).2.1 _ _ (Nat.le_refl _)
      have shorter := (scan_behind (same ▸ atElement)).2
      omega

/-- The next member, or the end of the object. -/
theorem scanObject_eq (object : Entries) (rest : Text) :
    scanObject lua s object rest = (do
      match ← nextKey rest with
      | .inl behind => return (.table object, behind)
      | .inr start =>
          let (key, rest) ← scan lua s start
          let (key, keyText) ← asKey lua key
          if rest = [] then fail ("JSON string ended unexpectedly searching for value of key " ++ shown keyText)
          else
            let rest ← scanColon s keyText rest
            let (value, rest) ← scan lua s rest
            scanObject lua s (assign object key value) rest) := by
  rw [scanObject, decodeScanObject]
  refine bind_same rfl fun next atNext => ?_
  cases next with
  | inl behind => rfl
  | inr start =>
      have later := (nextItem_start atNext).length_le
      have sameKey : decodeFrom lua s (2 * rest.length + 1) start = scan lua s start :=
        (decodeFrom_fuel _ _ (by omega)).1 _ (Nat.le_refl _)
      refine bind_same sameKey fun key atKey => bind_same rfl fun name named => ?_
      have shorter := (scan_behind (sameKey ▸ atKey)).2
      refine if_congr Iff.rfl rfl (bind_same rfl fun colon atColon => ?_)
      have behindColon := (scanColon_behind atColon).2
      have sameValue : decodeFrom lua s (2 * rest.length + 1) colon = scan lua s colon :=
        (decodeFrom_fuel _ _ (by omega)).1 _ (Nat.le_refl _)
      refine bind_same sameValue fun element atElement => (decodeFrom_fuel _ _ ?_).2.2 _ _ (Nat.le_refl _)
      have behindValue := (scan_behind (sameValue ▸ atElement)).2
      omega

/-- Decoding ends on every text: it returns with a position behind the value and not behind the text, or raises. -/
theorem decode_returns_or_raises (lua : Platform) (s : Text) :
    ((∃ v p, decode lua s = .ok (v, p) ∧ 1 < p ∧ p ≤ s.length + 1) ∨ ∃ message, decode lua s = fail message) ∧
      ∀ fuel, 2 * s.length + 1 ≤ fuel → decodeFrom lua s fuel s = decodeFrom lua s (2 * s.length + 1) s := by
  refine ⟨?_, fun fuel enough => (decodeFrom_fuel _ fuel enough).1 s (Nat.le_refl _)⟩
  rw [decode]
  cases scanned : decodeFrom lua s (2 * s.length + 1) s with
  | ok found =>
      obtain ⟨v, rest⟩ := found
      have shorter := ((decodeFrom_behind _).1 _ _ _ scanned).2
      refine .inl ⟨v, position s rest, rfl, ?_, ?_⟩
      · rw [position]
        omega
      · rw [position]
        omega
  | error stop =>
      cases stop with
      | raised message => exact .inr ⟨message, rfl⟩
      | outOfFuel => exact absurd scanned ((decodeFrom_ends _).1 s (Nat.le_refl _))

/-- `decode` scans a value and counts how far it came. -/
theorem decode_eq (s : Text) : decode lua s = (scan lua s s).map fun (v, rest) => (v, position s rest) := rfl

end

end GameServer.Json
