/-
Module: GameServer.Json.Reread
Purpose: What becomes of a value that is encoded and decoded again: `scan` of a text that `encode` wrote.
Trusted boundary: the numbers in the value are whole and have at most 14 digits
Main exports: Value.induct, Within, Everywhere, IsShort, Kept, rereads, scan_encode, decode_encode
-/
import GameServer.Json.Strings
import Mathlib.Data.Rat.Lemmas
import Mathlib.Tactic.IntervalCases

namespace GameServer.Json

open Lib.LuaLiteral

/-! ## Values and the values in them

Properties of a value and of everything inside its tables, with the induction rule for them.
-/

theorem Value.induct {P : Value → Prop} (leaf : ∀ v, (∀ entries, v ≠ .table entries) → P v)
    (table : ∀ entries : Entries, (∀ entry ∈ entries, P entry.2) → P (.table entries)) (v : Value) : P v := by
  refine @Value.rec P (fun entries => ∀ entry ∈ entries, P entry.2) (fun entry => P entry.2)
    ?_ ?_ ?_ ?_ ?_ ?_ ?_ ?_ ?_ ?_ v
  · exact leaf _ fun _ same => by cases same
  · exact leaf _ fun _ same => by cases same
  · exact fun _ => leaf _ fun _ same => by cases same
  · exact fun _ => leaf _ fun _ same => by cases same
  · exact fun _ => leaf _ fun _ same => by cases same
  · exact fun entries inside => table entries inside
  · exact leaf _ fun _ same => by cases same
  · exact fun entry member => absurd member List.not_mem_nil
  · intro entry entries here inside other member
    cases member with
    | head => exact here
    | tail _ member => exact inside other member
  · exact fun _ _ here => here

/-- A value is the other, or in one of its tables. -/
inductive Within (u : Value) : Value → Prop where
  | here : Within u u
  | entry {entries : Entries} {k : Key} {v : Value} (member : (k, v) ∈ entries) (inside : Within u v) :
      Within u (.table entries)

/-- The property holds of the value and of all that is in it. -/
def Everywhere (p : Value → Prop) (v : Value) : Prop := ∀ u, Within u v → p u

theorem Everywhere.here {p : Value → Prop} {v : Value} (everywhere : Everywhere p v) : p v := everywhere v .here

theorem Everywhere.entry {p : Value → Prop} {entries : Entries} {k : Key} {v : Value}
    (everywhere : Everywhere p (.table entries)) (member : (k, v) ∈ entries) : Everywhere p v :=
  fun u inside => everywhere u (.entry member inside)

/-- A table and everything in it. -/
theorem everywhere_table {p : Value → Prop} {entries : Entries} (here : p (.table entries))
    (inside : ∀ entry ∈ entries, Everywhere p entry.2) : Everywhere p (.table entries) := by
  intro u within
  cases within with
  | here => exact here
  | entry member within => exact inside _ member u within

theorem everywhere_leaf {p : Value → Prop} {v : Value} (leaf : ∀ entries, v ≠ .table entries) (here : p v) :
    Everywhere p v := by
  intro u within
  cases within with
  | here => exact here
  | entry member within => exact absurd rfl (leaf _)

/-- Printed with all its digits. -/
def IsShort (q : ℚ) : Prop := q.den = 1 ∧ q.num.natAbs < 10 ^ 14

/-- What a value is by itself that the scripts keep: its numbers are short, and a table has a key once and no nil. -/
def Kept : Value → Prop
  | .number q => IsShort q
  | .table entries => (entries.map Prod.fst).Nodup ∧ ∀ k v, (k, v) ∈ entries → v ≠ .nil
  | _ => True

/-! ## What becomes of a value

What is read where a value was written: the same up to what encoding loses.
-/

section

variable (lua : Platform)

mutual

/-- What encoding and decoding make of a value; none where one of them raises. -/
def rereads : Value → Option Value
  | .nil => some .nil
  | .null => some .nil
  | .boolean b => some (.boolean b)
  | .number q => some (.number q)
  | .string s => if '\r' ∈ s then none else some (.string s)
  | .table entries =>
      match isArray lua entries with
      | some maxCount =>
          let elements := (List.range maxCount).mapM fun i =>
            Entries.get (some .nil) (.number (i + 1 : Nat)) (rereadsEntries entries)
          elements.map fun elements => arrayTable (elements.foldl insert [])
      | none => (rereadsPairs [] entries).map .table
  | .unsupported => none

def rereadsEntries : Entries → List (Key × Option Value)
  | [] => []
  | (k, v) :: rest => (k, rereads v) :: rereadsEntries rest

/-- The object with the pairs added. -/
def rereadsPairs (object : Entries) : Entries → Option Entries
  | [] => some object
  | (k, v) :: rest =>
      if isEncodable v then do
        let i ← keyText lua k
        let w ← rereads v
        if '\r' ∈ i then none else rereadsPairs (assign object (.string i) w) rest
      else rereadsPairs object rest

end

end

/-! ## Single values

Constants, strings and numbers, whatever text follows them.
-/

/-- A scan ends with the value where there is one, and otherwise with an error. -/
def Ends (result : Except Stop (Value × Text)) (expected : Option Value) (rest : Text) : Prop :=
  match expected with
  | some v => result = .ok (v, rest)
  | none => ∃ message, result = fail message

/-- No number goes on there. -/
def Follows (rest : Text) : Prop := ∀ c ∈ rest.head?, isAcceptable c = false

/-- The texts of values begin with one of these characters. -/
def isStart (c : Char) : Bool := isAcceptable c ∨ c ∈ ['n', 't', 'f', '"', '[', '{']

def Starts (text : Text) : Prop := ∃ c cs, text = c :: cs ∧ isStart c = true

theorem start_cases {c : Char} (start : isStart c = true) :
    isWhitespace c = false ∧ c ≠ ',' ∧ c ≠ ']' ∧ c ≠ '}' ∧ c ≠ ':' := by
  simp only [isStart, isAcceptable, decide_eq_true_eq, List.mem_cons, List.not_mem_nil, or_false] at start
  rcases start with (h | h | h | h | h | h | h | h | h | h | h | h | h | h) | h | h | h | h | h | h <;>
    (subst h; decide)

theorem whitespace_start {c : Char} (cs : Text) (start : isStart c = true) :
    decodeScanWhitespace (c :: cs) = c :: cs := by
  rw [decodeScanWhitespace, List.dropWhile_cons, (start_cases start).1]
  rfl

section

variable {lua : Platform} {s : Text} {rest : Text}

/-- The first character decides what is scanned. -/
theorem scan_start {c : Char} {cs : Text} (start : isStart c = true) :
    scan lua s (c :: cs) = scanAt lua s c cs :=
  scan_eq (whitespace_start cs start)

theorem scan_constant {c : Char} (cs : Text) (first : c = 't' ∨ c = 'f' ∨ c = 'n') :
    scan lua s (c :: cs) = decodeScanConstant s (c :: cs) := by
  rcases first with h | h | h <;> subst h <;> rw [scan_start (by decide), scanAt, if_neg (by decide),
    if_neg (by decide), if_neg (by decide), if_neg (by decide), if_neg (by simp)]

theorem scan_null : scan lua s (['n', 'u', 'l', 'l'] ++ rest) = .ok (.nil, rest) := by
  rw [List.cons_append, scan_constant _ (by simp)]
  simp [decodeScanConstant, List.isPrefixOf]

theorem scan_boolean (b : Bool) :
    scan lua s ((if b then ['t', 'r', 'u', 'e'] else ['f', 'a', 'l', 's', 'e']) ++ rest) =
      .ok (.boolean b, rest) := by
  cases b with
  | true =>
      rw [if_pos rfl, List.cons_append, scan_constant _ (by simp)]
      simp [decodeScanConstant, List.isPrefixOf]
  | false =>
      rw [if_neg (by decide), List.cons_append, scan_constant _ (by simp)]
      simp [decodeScanConstant, List.isPrefixOf]

/-- A string comes back, unless it has a carriage return. -/
theorem scan_string (t : Text) :
    Ends (scan lua s ('"' :: encodeString t ++ '"' :: rest)) (if '\r' ∈ t then none else some (.string t)) rest := by
  rw [List.cons_append, scan_start (by decide), scanAt, if_neg (by decide), if_neg (by decide), if_neg (by decide),
    if_pos (.inl rfl)]
  have read := readString_encodeString t rest
  by_cases lost : '\r' ∈ t
  · rw [if_pos lost] at read
    rw [if_pos lost]
    cases scanned : decodeScanString s '"' (encodeString t ++ '"' :: rest) with
    | ok found =>
        obtain ⟨v, rest'⟩ := found
        obtain ⟨value, rfl, read'⟩ := (decodeScanString_iff (.inl rfl) s v).mp scanned
        rw [read] at read'
        cases read'
    | error stop =>
        cases stop with
        | raised message => exact ⟨message, rfl⟩
        | outOfFuel => exact absurd scanned (decodeScanString_ends _ _)
  · rw [if_neg lost] at read
    rw [if_neg lost]
    exact (decodeScanString_iff (.inl rfl) s _).mpr ⟨t, rfl, read⟩

theorem acceptable_of_digit {c : Char} (digit : c.isDigit = true) : isAcceptable c = true := by
  have range : 48 ≤ c.toNat ∧ c.toNat ≤ 57 := by
    simpa [Char.isDigit, UInt32.le_iff_toNat_le] using digit
  have isChar (n : Nat) (same : c.toNat = n) : c = Char.ofNat n := by
    rw [← same, Char.ofNat_toNat]
  obtain ⟨low, high⟩ := range
  interval_cases code : c.toNat <;> (rw [isChar _ rfl]; decide)

theorem takeWhile_all {p : Char → Bool} {text rest : Text} (all : ∀ c ∈ text, p c = true)
    (stops : ∀ c ∈ rest.head?, p c = false) :
    (text ++ rest).takeWhile p = text ∧ (text ++ rest).dropWhile p = rest := by
  induction text with
  | nil =>
      cases rest with
      | nil => exact ⟨rfl, rfl⟩
      | cons c rest =>
          have stop : p c = false := stops c rfl
          simp [stop]
  | cons c text ih =>
      have here : p c = true := all c List.mem_cons_self
      have inside := ih fun d member => all d (List.mem_cons_of_mem c member)
      simp [here, inside]

theorem acceptable_decimal {n : Int} {c : Char} (member : c ∈ decimal n) : isAcceptable c = true := by
  have digit {m : Nat} {d : Char} (member : d ∈ Nat.toDigits 10 m) : isAcceptable d = true :=
    acceptable_of_digit (Nat.isDigit_of_mem_toDigits (by decide) (by decide) member)
  rw [decimal] at member
  split at member
  · cases List.mem_cons.mp member with
    | inl minus => subst minus; decide
    | inr member => exact digit member
  · exact digit member

theorem decimal_ne_nil (n : Int) : decimal n ≠ [] := by
  rw [decimal]
  split
  · exact List.cons_ne_nil _ _
  · exact Nat.toDigits_ne_nil

/-- A whole number comes back from its digits. -/
theorem scan_decimal {n : Int} (exact_ : n.natAbs < 2 ^ 53) (follows : Follows rest) :
    scan lua s (decimal n ++ rest) = .ok (.number n, rest) := by
  have value : loadNumber lua (decimal n) = .value (.number n) := by
    rw [loadNumber, numeral_decimal exact_]
  cases text : decimal n with
  | nil => exact absurd text (decimal_ne_nil _)
  | cons c cs =>
      rw [text] at value
      have first : isAcceptable c = true := acceptable_decimal (text ▸ List.mem_cons_self)
      have others : ∀ d ∈ cs, isAcceptable d = true := fun d member =>
        acceptable_decimal (text ▸ List.mem_cons_of_mem c member)
      have start : isStart c = true := by simp [isStart, first]
      have split := takeWhile_all others follows
      rw [List.cons_append, scan_start start, scanAt, if_neg, if_neg, if_pos first, decodeScanNumber, split.1, split.2,
        value]
      · intro isBracket
        subst isBracket
        exact absurd first (by decide)
      · intro isBrace
        subst isBrace
        exact absurd first (by decide)

theorem decimal_starts (n : Int) : ∃ c cs, decimal n = c :: cs ∧ isStart c = true := by
  cases text : decimal n with
  | nil => exact absurd text (decimal_ne_nil _)
  | cons c cs => exact ⟨c, cs, rfl, by simp [isStart, acceptable_decimal (text ▸ List.mem_cons_self)]⟩

/-- So does a short one. -/
theorem scan_number {q : ℚ} (short : IsShort q) (follows : Follows rest) :
    scan lua s (tostring lua q ++ rest) = .ok (.number q, rest) := by
  rw [tostring, if_pos ⟨short.1, short.2⟩, scan_decimal (short.2.trans (by decide)) follows,
    (Rat.den_eq_one_iff q).mp short.1]

end

/-! ## Tables

Elements with their commas, read by the loops of the scanner one by one.
-/

/-- The text is one that is scanned to the value whatever follows it. -/
def Writes (lua : Platform) (text : Text) (expected : Option Value) : Prop :=
  Starts text ∧ ∀ s rest, Follows rest → Ends (scan lua s (text ++ rest)) expected rest

section

variable {lua : Platform} {s : Text} {rest : Text}

theorem writes_null : Writes lua ['n', 'u', 'l', 'l'] (some .nil) :=
  ⟨⟨_, _, rfl, by decide⟩, fun _ _ _ => scan_null⟩

theorem follows_cons {c : Char} (stops : isAcceptable c = false) : Follows (c :: rest) := by
  intro d member
  cases member
  exact stops

/-- Where an element begins, and a comma in front of it makes no difference. -/
theorem nextItem_starts {close : Char} {e e' : String} {text : Text} (starts : Starts text)
    (notClose : close = ']' ∨ close = '}') :
    nextItem close e e' (text ++ rest) = .ok (.inr (text ++ rest)) ∧
      nextItem close e e' (',' :: (text ++ rest)) = .ok (.inr (text ++ rest)) := by
  obtain ⟨c, cs, rfl, start⟩ := starts
  obtain ⟨_, notComma, notBracket, notBrace, _⟩ := start_cases start
  have other : c ≠ close := by
    cases notClose with
    | inl bracket => rw [bracket]; exact notBracket
    | inr brace => rw [brace]; exact notBrace
  have comma : ',' ≠ close := by
    cases notClose with
    | inl bracket => rw [bracket]; decide
    | inr brace => rw [brace]; decide
  have here := whitespace_start (cs ++ rest) start
  constructor
  · rw [List.cons_append, nextItem, here]
    simp only
    rw [if_neg other, if_neg notComma]
  · have atComma : decodeScanWhitespace (',' :: (c :: (cs ++ rest))) = ',' :: (c :: (cs ++ rest)) := rfl
    rw [List.cons_append, nextItem, atComma]
    simp only
    rw [if_neg comma, if_pos trivial, here, if_neg (List.cons_ne_nil _ _)]

theorem nextItem_closes {close : Char} {e e' : String} (notBlank : isWhitespace close = false) :
    nextItem close e e' (close :: rest) = .ok (.inl rest) := by
  have here : decodeScanWhitespace (close :: rest) = close :: rest := by
    rw [decodeScanWhitespace, List.dropWhile_cons, notBlank]
    rfl
  rw [nextItem, here]
  simp

/-- The texts with a comma in front of each. -/
def tail (texts : List Text) : Text := texts.flatMap fun text => ',' :: text

theorem concat_cons (text : Text) (texts : List Text) : concat (text :: texts) = text ++ tail texts := by
  induction texts generalizing text with
  | nil => simp [concat, tail, List.intercalate]
  | cons next texts ih =>
      have further := ih next
      simp only [concat, List.intercalate, List.intersperse_cons_cons, List.flatten_cons] at further ⊢
      rw [further]
      simp [tail]

theorem scanArray_closes (array : List Value) :
    scanArray lua s array (']' :: rest) = .ok (arrayTable array, rest) := by
  rw [scanArray_eq, nextElement, nextItem_closes rfl]
  rfl

theorem scanArray_comma (array : List Value) {text : Text} (starts : Starts text) :
    scanArray lua s array (',' :: (text ++ rest)) = scanArray lua s array (text ++ rest) := by
  rw [scanArray_eq, scanArray_eq, nextElement, (nextItem_starts starts (.inl rfl)).1,
    (nextItem_starts starts (.inl rfl)).2]

/-- One element behind a comma. -/
theorem scanArray_element (array : List Value) {text : Text} {v : Value} (writes : Writes lua text (some v))
    (follows : Follows rest) :
    scanArray lua s array (',' :: (text ++ rest)) = scanArray lua s (insert array v) rest := by
  have scanned : scan lua s (text ++ rest) = .ok (v, rest) := writes.2 s rest follows
  rw [scanArray_eq, nextElement, (nextItem_starts writes.1 (.inl rfl)).2]
  change (scan lua s (text ++ rest) >>= fun found => scanArray lua s (insert array found.1) found.2) = _
  rw [scanned]
  rfl

/-- An element that is not read ends the array with an error. -/
theorem scanArray_raises (array : List Value) {text : Text} (writes : Writes lua text none) (follows : Follows rest) :
    ∃ message, scanArray lua s array (',' :: (text ++ rest)) = fail message := by
  obtain ⟨message, raised⟩ := writes.2 s rest follows
  refine ⟨message, ?_⟩
  rw [scanArray_eq, nextElement, (nextItem_starts writes.1 (.inl rfl)).2]
  change (scan lua s (text ++ rest) >>= fun found => scanArray lua s (insert array found.1) found.2) = _
  rw [raised]
  rfl

theorem follows_tail (texts : List Text) {c : Char} (stops : isAcceptable c = false) :
    Follows (tail texts ++ c :: rest) := by
  cases texts with
  | nil => exact follows_cons stops
  | cons text texts => exact follows_cons (by decide)

/-- The elements behind the first one. -/
theorem scanArray_tail {ι : Type} {write : ι → Option Text} {expect : ι → Option Value}
    (writes : ∀ i text, write i = some text → Writes lua text (expect i)) (indices : List ι) (array : List Value)
    (texts : List Text) (written : indices.mapM write = some texts) :
    Ends (scanArray lua s array (tail texts ++ ']' :: rest))
      ((indices.mapM expect).map fun elements => arrayTable (elements.foldl insert array)) rest := by
  induction indices generalizing array texts with
  | nil =>
      rw [List.mapM_nil] at written
      cases written
      exact scanArray_closes array
  | cons i indices ih =>
      rw [List.mapM_cons] at written
      obtain ⟨text, first, written⟩ := Option.bind_eq_some_iff.mp written
      obtain ⟨others, more, same⟩ := Option.bind_eq_some_iff.mp written
      cases same
      have here := writes i text first
      have further : tail (text :: others) ++ ']' :: rest = ',' :: (text ++ (tail others ++ ']' :: rest)) := by
        simp [tail]
      rw [further, List.mapM_cons]
      cases expected : expect i with
      | none =>
          rw [expected] at here
          exact scanArray_raises array here (follows_tail others (by decide))
      | some v =>
          rw [expected] at here
          rw [scanArray_element array here (follows_tail others (by decide))]
          have rest := ih (insert array v) others more
          simp only [bind, Option.bind, pure]
          cases elements : indices.mapM expect with
          | none =>
              rw [elements] at rest
              exact rest
          | some elements' =>
              rw [elements] at rest
              exact rest

theorem scanObject_closes (object : Entries) :
    scanObject lua s object ('}' :: rest) = .ok (.table object, rest) := by
  rw [scanObject_eq, nextKey, nextItem_closes rfl]
  rfl

theorem scanObject_comma (object : Entries) {text : Text} (starts : Starts text) :
    scanObject lua s object (',' :: (text ++ rest)) = scanObject lua s object (text ++ rest) := by
  rw [scanObject_eq, scanObject_eq, nextKey, (nextItem_starts starts (.inr rfl)).1,
    (nextItem_starts starts (.inr rfl)).2]

theorem scanColon_starts (keyText : Text) {text : Text} (starts : Starts text) :
    scanColon s keyText (':' :: (text ++ rest)) = .ok (text ++ rest) := by
  obtain ⟨c, cs, rfl, start⟩ := starts
  have colon : decodeScanWhitespace (':' :: (c :: cs ++ rest)) = ':' :: (c :: cs ++ rest) := rfl
  have here : decodeScanWhitespace (c :: cs ++ rest) = c :: cs ++ rest := whitespace_start (cs ++ rest) start
  rw [scanColon, colon]
  simp only [ne_eq, not_true_eq_false, if_false, here]
  rw [if_neg]
  exact List.cons_ne_nil _ _

/-- The text of a pair. -/
def pairText (i j : Text) : Text := '"' :: encodeString i ++ ['"', ':'] ++ j

theorem pairText_starts (i j : Text) : Starts (pairText i j) := ⟨'"', _, rfl, by decide⟩

theorem pairText_append (i j : Text) : pairText i j ++ rest = '"' :: encodeString i ++ '"' :: (':' :: (j ++ rest)) := by
  simp [pairText]

/-- What the loop does from the beginning of a key on. -/
theorem scanObject_start (object : Entries) (i j : Text) :
    scanObject lua s object (',' :: (pairText i j ++ rest)) = (do
      let (key, rest) ← scan lua s (pairText i j ++ rest)
      let (key, keyText) ← asKey lua key
      if rest = [] then fail ("JSON string ended unexpectedly searching for value of key " ++ shown keyText)
      else
        let rest ← scanColon s keyText rest
        let (value, rest) ← scan lua s rest
        scanObject lua s (assign object key value) rest) := by
  rw [scanObject_comma _ (pairText_starts i j), scanObject_eq, nextKey,
    (nextItem_starts (pairText_starts i j) (.inr rfl)).1]
  rfl

theorem scan_pair (i j : Text) :
    Ends (scan lua s (pairText i j ++ rest)) (if '\r' ∈ i then none else some (.string i)) (':' :: (j ++ rest)) := by
  rw [pairText_append]
  exact scan_string i

/-- One member behind a comma. -/
theorem scanObject_pair (object : Entries) {i j : Text} {expected : Option Value} (readable : '\r' ∉ i)
    (writes : Writes lua j expected) :
    scanObject lua s object (',' :: (pairText i j ++ rest)) =
      scan lua s (j ++ rest) >>= fun found => scanObject lua s (assign object (.string i) found.1) found.2 := by
  have key : scan lua s (pairText i j ++ rest) = .ok (.string i, ':' :: (j ++ rest)) := by
    have scanned : Ends (scan lua s (pairText i j ++ rest)) _ _ := scan_pair i j
    rw [if_neg readable] at scanned
    exact scanned
  rw [scanObject_start, key]
  simp only [bind, Except.bind, asKey, reduceCtorEq, if_false, scanColon_starts i writes.1]

/-- A name with a carriage return is not read. -/
theorem scanObject_carriageReturn (object : Entries) {i : Text} (j : Text) (lost : '\r' ∈ i) :
    ∃ message, scanObject lua s object (',' :: (pairText i j ++ rest)) = fail message := by
  have key : Ends (scan lua s (pairText i j ++ rest)) _ _ := scan_pair i j
  rw [if_pos lost] at key
  obtain ⟨message, raised⟩ := key
  rw [scanObject_start, raised]
  exact ⟨message, rfl⟩

/-- The pairs behind the first one. -/
theorem scanObject_tail (entries : Entries)
    (writes : ∀ k v text, (k, v) ∈ entries → encode lua v = some text → Writes lua text (rereads lua v))
    (object : Entries) (texts : List Text) (written : encodePairs lua entries = some texts) :
    Ends (scanObject lua s object (tail texts ++ '}' :: rest)) ((rereadsPairs lua object entries).map .table) rest := by
  induction entries generalizing object texts with
  | nil =>
      rw [encodePairs] at written
      cases written
      rw [rereadsPairs]
      exact scanObject_closes object
  | cons entry entries ih =>
      obtain ⟨k, v⟩ := entry
      have inside := ih fun k' v' text member => writes k' v' text (List.mem_cons_of_mem _ member)
      rw [encodePairs] at written
      rw [rereadsPairs]
      split at written
      · rename_i encodable
        rw [if_pos encodable]
        obtain ⟨pair, first, written⟩ := Option.bind_eq_some_iff.mp written
        obtain ⟨others, more, same⟩ := Option.bind_eq_some_iff.mp written
        cases same
        obtain ⟨i, keyIs, first⟩ := Option.bind_eq_some_iff.mp first
        obtain ⟨j, valueIs, same⟩ := Option.bind_eq_some_iff.mp first
        cases same
        have here := writes k v j List.mem_cons_self valueIs
        have further : tail (pairText i j :: others) ++ '}' :: rest =
            ',' :: (pairText i j ++ (tail others ++ '}' :: rest)) := by
          simp [tail]
        have follows : Follows (tail others ++ '}' :: rest) := follows_tail others (by decide)
        rw [keyIs]
        change Ends (scanObject lua s object (tail (pairText i j :: others) ++ '}' :: rest)) _ _
        rw [further]
        simp only [bind, Option.bind]
        have scanned := here.2 s _ follows
        by_cases lost : '\r' ∈ i
        · have raises : ∃ message, scanObject lua s object (',' :: (pairText i j ++ (tail others ++ '}' :: rest))) =
              fail message := scanObject_carriageReturn object j lost
          cases rereads lua v with
          | none => exact raises
          | some w =>
              simp only [if_pos lost]
              exact raises
        · rw [scanObject_pair object lost here]
          cases expected : rereads lua v with
          | none =>
              rw [expected] at scanned
              obtain ⟨message, raised⟩ := scanned
              rw [raised]
              exact ⟨message, rfl⟩
          | some w =>
              rw [expected] at scanned
              have value : scan lua s (j ++ (tail others ++ '}' :: rest)) = .ok (w, _) := scanned
              rw [value]
              simp only [if_neg lost]
              exact inside _ others more
      · rename_i skipped
        rw [if_neg skipped]
        exact inside object texts written

/-! ## Whole values

By induction on the value: its text is scanned to what becomes of it.
-/

/-- What stands under a key, as text and as what becomes of it. -/
theorem get_encodeEntries (k : Key) (entries : Entries) :
    (Entries.get (some ['n', 'u', 'l', 'l']) k (encodeEntries lua entries) = some ['n', 'u', 'l', 'l'] ∧
        Entries.get (some .nil) k (rereadsEntries lua entries) = some .nil) ∨
      ∃ v, (k, v) ∈ entries ∧ Entries.get (some ['n', 'u', 'l', 'l']) k (encodeEntries lua entries) = encode lua v ∧
        Entries.get (some .nil) k (rereadsEntries lua entries) = rereads lua v := by
  induction entries with
  | nil => exact .inl ⟨rfl, rfl⟩
  | cons entry entries ih =>
      obtain ⟨other, v⟩ := entry
      rw [encodeEntries, rereadsEntries, Entries.get, Entries.get]
      by_cases here : other = k
      · rw [if_pos here, if_pos here]
        exact .inr ⟨v, here ▸ List.mem_cons_self, rfl, rfl⟩
      · rw [if_neg here, if_neg here]
        cases ih with
        | inl absent => exact .inl absent
        | inr found =>
            obtain ⟨u, member, text, outcome⟩ := found
            exact .inr ⟨u, List.mem_cons_of_mem _ member, text, outcome⟩

theorem tail_cons (text : Text) (texts : List Text) : tail (text :: texts) = ',' :: (text ++ tail texts) := rfl

/-- The elements between the brackets. -/
theorem scan_array {ι : Type} {write : ι → Option Text} {expect : ι → Option Value}
    (writes : ∀ i text, write i = some text → Writes lua text (expect i)) (indices : List ι) (texts : List Text)
    (written : indices.mapM write = some texts) :
    Ends (scan lua s ('[' :: concat texts ++ [']'] ++ rest))
      ((indices.mapM expect).map fun elements => arrayTable (elements.foldl insert [])) rest := by
  have opened : scan lua s ('[' :: concat texts ++ [']'] ++ rest) =
      scanArray lua s [] (concat texts ++ ']' :: rest) := by
    rw [List.append_assoc, List.cons_append, scan_start (by decide), scanAt, if_neg (by decide), if_pos rfl]
    rfl
  have scanned : Ends (scanArray lua s [] (tail texts ++ ']' :: rest)) _ rest :=
    scanArray_tail writes indices [] texts written
  rw [opened]
  cases texts with
  | nil => exact scanned
  | cons text others =>
      have starts : Starts text := by
        cases indices with
        | nil => cases written
        | cons i indices =>
            rw [List.mapM_cons] at written
            obtain ⟨first, here, written⟩ := Option.bind_eq_some_iff.mp written
            obtain ⟨_, _, same⟩ := Option.bind_eq_some_iff.mp written
            cases same
            exact (writes i text here).1
      rw [tail_cons, List.cons_append, List.append_assoc, scanArray_comma [] starts] at scanned
      rw [concat_cons, List.append_assoc]
      exact scanned

/-- The pairs between the braces. -/
theorem scan_object (entries : Entries)
    (writes : ∀ k v text, (k, v) ∈ entries → encode lua v = some text → Writes lua text (rereads lua v))
    (texts : List Text) (written : encodePairs lua entries = some texts)
    (pairs : ∀ text ∈ texts, Starts text) :
    Ends (scan lua s ('{' :: concat texts ++ ['}'] ++ rest)) ((rereadsPairs lua [] entries).map .table) rest := by
  have opened : scan lua s ('{' :: concat texts ++ ['}'] ++ rest) =
      scanObject lua s [] (concat texts ++ '}' :: rest) := by
    rw [List.append_assoc, List.cons_append, scan_start (by decide), scanAt, if_pos rfl]
    rfl
  have scanned : Ends (scanObject lua s [] (tail texts ++ '}' :: rest)) _ rest :=
    scanObject_tail entries writes [] texts written
  rw [opened]
  cases texts with
  | nil => exact scanned
  | cons text others =>
      have starts := pairs text List.mem_cons_self
      rw [tail_cons, List.cons_append, List.append_assoc, scanObject_comma [] starts] at scanned
      rw [concat_cons, List.append_assoc]
      exact scanned

/-- The texts of members begin with a quote. -/
theorem encodePairs_starts (entries : Entries) : ∀ texts, encodePairs lua entries = some texts →
    ∀ text ∈ texts, Starts text := by
  induction entries with
  | nil =>
      intro texts written
      rw [encodePairs] at written
      cases written
      exact fun text member => absurd member List.not_mem_nil
  | cons entry entries ih =>
      intro texts written
      obtain ⟨k, v⟩ := entry
      rw [encodePairs] at written
      split at written
      · obtain ⟨pair, first, written⟩ := Option.bind_eq_some_iff.mp written
        obtain ⟨others, more, same⟩ := Option.bind_eq_some_iff.mp written
        cases same
        obtain ⟨i, _, first⟩ := Option.bind_eq_some_iff.mp first
        obtain ⟨j, _, same⟩ := Option.bind_eq_some_iff.mp first
        cases same
        intro text member
        cases List.mem_cons.mp member with
        | inl isPair => rw [isPair]; exact pairText_starts i j
        | inr member => exact ih others more text member
      · exact ih texts written

/-- A text that `encode` wrote is scanned to what becomes of the value, whatever follows it. -/
theorem scan_encode (v : Value) : ∀ t, Everywhere Kept v → encode lua v = some t → Writes lua t (rereads lua v) := by
  induction v using Value.induct with
  | leaf v leaf =>
      intro t kept written
      cases v with
      | nil => cases written; exact writes_null
      | null => cases written; exact writes_null
      | boolean b =>
          cases written
          refine ⟨?_, fun s rest _ => scan_boolean b⟩
          cases b with
          | true => exact ⟨_, _, rfl, by decide⟩
          | false => exact ⟨_, _, rfl, by decide⟩
      | number q =>
          cases written
          have short : IsShort q := kept.here
          refine ⟨?_, fun s rest follows => scan_number short follows⟩
          rw [tostring, if_pos ⟨short.1, short.2⟩]
          exact decimal_starts q.num
      | string s' =>
          cases written
          refine ⟨⟨_, _, rfl, by decide⟩, fun s rest _ => ?_⟩
          have scanned : Ends (scan lua s ('"' :: encodeString s' ++ '"' :: rest)) _ rest := scan_string s'
          rw [List.append_assoc]
          exact scanned
      | table entries => exact absurd rfl (leaf entries)
      | unsupported => cases written
  | table entries inside =>
      intro t kept written
      have writes (k : Key) (v : Value) (text : Text) (member : (k, v) ∈ entries) (here : encode lua v = some text) :
          Writes lua text (rereads lua v) := inside _ member _ (kept.entry member) here
      rw [encode] at written
      split at written
      · rename_i maxCount isList
        obtain ⟨texts, listed, same⟩ := Option.bind_eq_some_iff.mp written
        cases same
        rw [rereads, isList]
        refine ⟨⟨_, _, rfl, by decide⟩, fun s rest _ => ?_⟩
        refine scan_array (fun i text here => ?_) (List.range maxCount) texts listed
        cases get_encodeEntries (.number (i + 1 : Nat)) entries with
        | inl absent =>
            obtain ⟨isNull, isNil⟩ := absent
            rw [isNull] at here
            cases here
            rw [isNil]
            exact writes_null
        | inr found =>
            obtain ⟨v, member, isText, outcome⟩ := found
            rw [isText] at here
            rw [outcome]
            exact writes _ v text member here
      · rename_i notList
        obtain ⟨texts, listed, same⟩ := Option.bind_eq_some_iff.mp written
        cases same
        rw [rereads, notList]
        refine ⟨⟨_, _, rfl, by decide⟩, fun s rest _ => ?_⟩
        exact scan_object entries writes texts listed (encodePairs_starts entries texts listed)

/-- The whole text is read. -/
theorem decode_encode {v : Value} {t : Text} (kept : Everywhere Kept v) (written : encode lua v = some t) :
    match rereads lua v with
    | some w => decode lua t = .ok (w, t.length + 1)
    | none => ∃ message, decode lua t = fail message := by
  have scanned : Ends (scan lua t (t ++ [])) (rereads lua v) [] :=
    (scan_encode v t kept written).2 t [] fun _ member => by cases member
  rw [List.append_nil] at scanned
  rw [decode_eq]
  cases expected : rereads lua v with
  | none =>
      rw [expected] at scanned
      obtain ⟨message, raised⟩ := scanned
      rw [raised]
      exact ⟨message, rfl⟩
  | some w =>
      rw [expected] at scanned
      have value : scan lua t t = .ok (w, []) := scanned
      rw [value]
      rfl

end

end GameServer.Json
