/-
Module: GameServer.Json.RoundTrip
Purpose: Which values the scripts get back from a text they have written: exactly when decoding undoes encoding.
Trusted boundary: as for `Reread`
Main exports: Value.look, Same, IsList, IsRecord, Survives, rereads_same_iff, decode_encode_iff
-/
import GameServer.Json.Reread
import Mathlib.Data.List.Nodup
import Mathlib.Tactic.Linarith

namespace GameServer.Json

open Lib.LuaLiteral

/-! ## The same table

Two tables are the same to the scripts when they find the same under every path of keys.
-/

/-- A value without what is in it. -/
def Value.shape : Value → Value
  | .table _ => .table []
  | v => v

/-- What stands under a path of keys. -/
def Value.look : Value → List Key → Value
  | v, [] => v.shape
  | .table entries, k :: path => (Entries.get .nil k entries).look path
  | _, _ :: _ => .nil

/-- The scripts find the same under every path, in whatever order `pairs` lists the tables. -/
def Same (v w : Value) : Prop := ∀ path, v.look path = w.look path

/-- A table with the keys 1 to n. -/
def IsList (entries : Entries) : Prop := ∃ items, entries.Perm (entriesFrom 1 items)

/-- A key that is a string without a carriage return. -/
def IsName (k : Key) : Prop := ∃ s, k = .string s ∧ '\r' ∉ s

/-- A table with such keys only, and not the one that is taken for an empty array with its length under `n`. -/
def IsRecord (entries : Entries) : Prop :=
  (∀ k v, (k, v) ∈ entries → IsName k) ∧ entries ≠ [(.string ['n'], .number 0)]

/-- What a value is by itself that comes back from its text. -/
def Survives : Value → Prop
  | .null => False
  | .unsupported => False
  | .string s => '\r' ∉ s
  | .table entries => IsList entries ∨ IsRecord entries
  | _ => True

/-! ## Entries

Tables that are built by one assignment after another, and what is found in them.
-/

section

variable {α : Type} {d : α} {k : Key} {v : α} {entries : List (Key × α)}

/-- An entry is found under its key. -/
theorem get_of_mem (once : (entries.map Prod.fst).Nodup) (member : (k, v) ∈ entries) :
    Entries.get d k entries = v := by
  induction entries with
  | nil => cases member
  | cons entry entries ih =>
      obtain ⟨other, u⟩ := entry
      rw [List.map_cons, List.nodup_cons] at once
      rw [Entries.get]
      cases List.mem_cons.mp member with
      | inl here =>
          cases here
          exact if_pos rfl
      | inr further =>
          have notHere : other ≠ k := by
            intro here
            exact once.1 (List.mem_map.mpr ⟨(k, v), further, here.symm⟩)
          rw [if_neg notHere]
          exact ih once.2 further

theorem get_absent (absent : ∀ v, (k, v) ∉ entries) : Entries.get d k entries = d := by
  induction entries with
  | nil => rfl
  | cons entry entries ih =>
      obtain ⟨other, u⟩ := entry
      have notHere : other ≠ k := by
        intro here
        subst here
        exact absent u List.mem_cons_self
      rw [Entries.get, if_neg notHere]
      exact ih fun v member => absent v (List.mem_cons_of_mem _ member)

/-- What is found is in the table. -/
theorem mem_of_get (found : Entries.get d k entries ≠ d) : (k, Entries.get d k entries) ∈ entries := by
  by_cases present : ∃ v, (k, v) ∈ entries
  · induction entries with
    | nil => exact absurd rfl found
    | cons entry entries ih =>
        obtain ⟨other, u⟩ := entry
        rw [Entries.get] at found ⊢
        by_cases here : other = k
        · subst here
          rw [if_pos rfl]
          exact List.mem_cons_self
        · rw [if_neg here] at found ⊢
          refine List.mem_cons_of_mem _ (ih found ?_)
          obtain ⟨v, member⟩ := present
          cases List.mem_cons.mp member with
          | inl same => cases same; exact absurd rfl here
          | inr member => exact ⟨v, member⟩
  · exact absurd (get_absent fun v member => present ⟨v, member⟩) found

end

section

variable {k : Key} {v w : Value} {entries : Entries} {items : List Value}

theorem get_set (key : Key) (value : Value) (entries : Entries) :
    Entries.get .nil k (Entries.set key value entries) = if k = key then value else Entries.get .nil k entries := by
  induction entries with
  | nil =>
      simp only [Entries.set, Entries.get]
      by_cases here : key = k
      · rw [if_pos here, if_pos here.symm]
      · rw [if_neg here, if_neg (Ne.symm here)]
  | cons entry entries ih =>
      obtain ⟨other, old⟩ := entry
      rw [Entries.set]
      by_cases here : other = key
      · subst here
        rw [if_pos rfl, Entries.get, Entries.get]
        by_cases found : other = k
        · rw [if_pos found, if_pos found.symm]
        · rw [if_neg found, if_neg (Ne.symm found), if_neg found]
      · rw [if_neg here, Entries.get, Entries.get, ih]
        by_cases found : other = k
        · subst found
          rw [if_pos rfl, if_pos rfl, if_neg here]
        · rw [if_neg found, if_neg found]

theorem get_filter (key : Key) (entries : Entries) :
    Entries.get .nil k (entries.filter fun entry => entry.1 ≠ key) =
      if k = key then .nil else Entries.get .nil k entries := by
  induction entries with
  | nil => exact (ite_self _).symm
  | cons entry entries ih =>
      obtain ⟨other, old⟩ := entry
      by_cases here : other = key
      · subst here
        rw [List.filter_cons_of_neg (by simp), ih, Entries.get]
        by_cases found : k = other
        · rw [if_pos found, if_pos found]
        · rw [if_neg found, if_neg found, if_neg (Ne.symm found)]
      · rw [List.filter_cons_of_pos (by simpa using here), Entries.get, Entries.get, ih]
        by_cases found : other = k
        · subst found
          rw [if_pos rfl, if_pos rfl, if_neg here]
        · rw [if_neg found, if_neg found]

/-- An assignment changes one key. -/
theorem get_assign (object : Entries) (key : Key) (value : Value) :
    Entries.get .nil k (assign object key value) = if k = key then value else Entries.get .nil k object := by
  cases value with
  | nil => exact get_filter key object
  | _ => exact get_set key _ object

/-- The entries of a list are its items under their indices. -/
theorem mem_entriesFrom {i : Nat} :
    (k, v) ∈ entriesFrom i items ↔ ∃ n, items[n]? = some v ∧ k = .number ((i + n : Nat) : ℚ) := by
  induction items generalizing i with
  | nil => simp [entriesFrom]
  | cons item items ih =>
      rw [entriesFrom, List.mem_cons, ih]
      constructor
      · intro found
        cases found with
        | inl here =>
            cases here
            exact ⟨0, rfl, rfl⟩
        | inr further =>
            obtain ⟨n, isItem, isKey⟩ := further
            refine ⟨n + 1, isItem, ?_⟩
            rw [isKey, Nat.add_right_comm, Nat.add_assoc]
      · intro found
        obtain ⟨n, isItem, isKey⟩ := found
        cases n with
        | zero =>
            left
            rw [isKey, Option.some.inj isItem]
            rfl
        | succ n =>
            right
            refine ⟨n, isItem, ?_⟩
            rw [isKey, Nat.add_right_comm, Nat.add_assoc]

theorem nodup_entriesFrom (i : Nat) (items : List Value) : ((entriesFrom i items).map Prod.fst).Nodup := by
  induction items generalizing i with
  | nil => exact List.nodup_nil
  | cons item items ih =>
      rw [entriesFrom, List.map_cons, List.nodup_cons]
      refine ⟨fun member => ?_, ih (i + 1)⟩
      obtain ⟨⟨k, v⟩, member, same⟩ := List.mem_map.mp member
      obtain ⟨n, _, isKey⟩ := mem_entriesFrom.mp member
      rw [isKey] at same
      have equal : ((i + 1 + n : Nat) : ℚ) = (i : Nat) := Key.number.inj same
      have natural : i + 1 + n = i := by exact_mod_cast equal
      omega

theorem get_entriesFrom {n : Nat} (item : items[n]? = some v) :
    Entries.get .nil (.number ((n + 1 : Nat) : ℚ)) (entriesFrom 1 items) = v := by
  refine get_of_mem (nodup_entriesFrom 1 items) (mem_entriesFrom.mpr ⟨n, item, ?_⟩)
  rw [Nat.add_comm]

end

/-! ## Arrays and objects

When `isArray` takes a table for an array.
-/

section

variable {lua : Platform} {k : Key} {v w : Value} {entries : Entries}

theorem index_number (n : Nat) : (Key.number ((n + 1 : Nat) : ℚ)).index = some (n + 1) := by
  have large : (1 : ℚ) ≤ ((n + 1 : Nat) : ℚ) := by exact_mod_cast Nat.le_add_left 1 n
  rw [Key.index, if_pos ⟨Rat.den_natCast _, large⟩, Rat.num_natCast, Int.toNat_natCast]

/-- What `isArray` asks of a pair. -/
def Fits (lua : Platform) (t : Entries) (k : Key) (v : Value) : Prop :=
  match k.index with
  | some _ => isEncodable v = true
  | none => if k = .string ['n'] then isLength lua t v = true else isEncodable v = false

theorem isArrayFrom_some {t : Entries} (rest : Entries) : ∀ start m, isArrayFrom lua t start rest = some m →
    (∀ k v, (k, v) ∈ rest → Fits lua t k v) ∧ start ≤ m ∧ (∀ k v i, (k, v) ∈ rest → k.index = some i → i ≤ m) ∧
      (m = start ∨ ∃ k v, (k, v) ∈ rest ∧ k.index = some m) := by
  induction rest with
  | nil =>
      intro start m found
      cases found
      exact ⟨fun _ _ member => absurd member List.not_mem_nil, Nat.le_refl _,
        fun _ _ _ member => absurd member List.not_mem_nil, .inl rfl⟩
  | cons entry rest ih =>
      intro start m found
      obtain ⟨key, value⟩ := entry
      rw [isArrayFrom] at found
      cases index : key.index with
      | some i =>
          simp only [index] at found
          split at found
          · cases found
          · rename_i encodable
            obtain ⟨fits, above, bound, reached⟩ := ih _ _ found
            have fitsHere : Fits lua t key value := by
              rw [Fits, index]
              exact not_not.mp encodable
            refine ⟨?_, by omega, ?_, ?_⟩
            · intro k v member
              cases List.mem_cons.mp member with
              | inl here => cases here; exact fitsHere
              | inr further => exact fits k v further
            · intro k v j member isIndex
              cases List.mem_cons.mp member with
              | inl here =>
                  cases here
                  rw [index] at isIndex
                  have same := Option.some.inj isIndex
                  omega
              | inr further => exact bound k v j further isIndex
            · cases reached with
              | inl isMax =>
                  cases Nat.le_total i start with
                  | inl below => exact .inl (isMax.trans (max_eq_left below))
                  | inr above' =>
                      refine .inr ⟨key, value, List.mem_cons_self, ?_⟩
                      rw [index, isMax, max_eq_right above']
              | inr found =>
                  obtain ⟨k, v, member, isIndex⟩ := found
                  exact .inr ⟨k, v, List.mem_cons_of_mem _ member, isIndex⟩
      | none =>
          simp only [index] at found
          have more (fitsHere : Fits lua t key value) (found : isArrayFrom lua t start rest = some m) :
              (∀ k v, (k, v) ∈ (key, value) :: rest → Fits lua t k v) ∧ start ≤ m ∧
                (∀ k v i, (k, v) ∈ (key, value) :: rest → k.index = some i → i ≤ m) ∧
                (m = start ∨ ∃ k v, (k, v) ∈ (key, value) :: rest ∧ k.index = some m) := by
            obtain ⟨fits, above, bound, reached⟩ := ih _ _ found
            refine ⟨?_, above, ?_, ?_⟩
            · intro k v member
              cases List.mem_cons.mp member with
              | inl here => cases here; exact fitsHere
              | inr further => exact fits k v further
            · intro k v j member isIndex
              cases List.mem_cons.mp member with
              | inl here => cases here; rw [index] at isIndex; cases isIndex
              | inr further => exact bound k v j further isIndex
            · cases reached with
              | inl isMax => exact .inl isMax
              | inr found =>
                  obtain ⟨k, v, member, isIndex⟩ := found
                  exact .inr ⟨k, v, List.mem_cons_of_mem _ member, isIndex⟩
          split at found
          · rename_i isN
            split at found
            · cases found
            · rename_i isLength
              refine more ?_ found
              rw [Fits, index]
              simp only [if_pos isN]
              exact not_not.mp isLength
          · rename_i notN
            split at found
            · cases found
            · rename_i skipped
              refine more ?_ found
              rw [Fits, index]
              simp only [if_neg notN]
              exact Bool.eq_false_of_not_eq_true skipped

theorem isArrayFrom_fits {t : Entries} (rest : Entries) : ∀ start, (∀ k v, (k, v) ∈ rest → Fits lua t k v) →
    ∃ m, isArrayFrom lua t start rest = some m := by
  induction rest with
  | nil => exact fun start _ => ⟨start, rfl⟩
  | cons entry rest ih =>
      intro start fits
      obtain ⟨key, value⟩ := entry
      have here := fits key value List.mem_cons_self
      have further : ∀ k v, (k, v) ∈ rest → Fits lua t k v := fun k v member => fits k v (List.mem_cons_of_mem _ member)
      rw [isArrayFrom]
      rw [Fits] at here
      cases index : key.index with
      | some i =>
          simp only [index] at here
          simp only [here, not_true_eq_false, if_false]
          exact ih _ further
      | none =>
          simp only [index] at here
          by_cases isN : key = .string ['n']
          · rw [if_pos isN] at here
            simp only [if_pos isN, here, not_true_eq_false, if_false]
            exact ih _ further
          · rw [if_neg isN] at here
            simp only [if_neg isN, here, Bool.false_eq_true, if_false]
            exact ih _ further

/-! ## Values that are the same

Sameness, table by table.
-/

/-- Values that are the same are of one kind. -/
theorem Same.shape (same : Same w v) : w.shape = v.shape := by
  have root := same []
  cases w <;> cases v <;> exact root

/-- Tables are the same when their entries are. -/
theorem same_table_iff {others : Entries} :
    Same (.table others) (.table entries) ↔ ∀ k, Same (Entries.get .nil k others) (Entries.get .nil k entries) := by
  constructor
  · exact fun same k path => same (k :: path)
  · intro same path
    cases path with
    | nil => rfl
    | cons k path => exact same k path

/-- What is the same as a table is one. -/
theorem Same.table (same : Same w (.table entries)) : ∃ others, w = .table others := by
  have root := same.shape
  cases w with
  | table others => exact ⟨others, rfl⟩
  | _ => cases root

theorem Same.ne_nil (same : Same w v) (some_ : v ≠ .nil) : w ≠ .nil := by
  intro isNil
  subst isNil
  have root := same.shape
  cases v with
  | nil => exact some_ rfl
  | _ => cases root

theorem Same.of_nil (same : Same .nil v) : v = .nil := by
  have root := same.shape
  cases v with
  | nil => rfl
  | _ => cases root

/-! ## What becomes of the entries

The elements of a list come back in their places, when each of them does.
-/

/-- The value under a key, written and read. -/
theorem get_rereadsEntries (once : (entries.map Prod.fst).Nodup) (member : (k, v) ∈ entries) :
    Entries.get (some .nil) k (rereadsEntries lua entries) = rereads lua v := by
  induction entries with
  | nil => cases member
  | cons entry entries ih =>
      obtain ⟨other, u⟩ := entry
      rw [List.map_cons, List.nodup_cons] at once
      rw [rereadsEntries, Entries.get]
      cases List.mem_cons.mp member with
      | inl here =>
          cases here
          exact if_pos rfl
      | inr further =>
          have notHere : other ≠ k := by
            intro here
            exact once.1 (List.mem_map.mpr ⟨(k, v), further, here.symm⟩)
          rw [if_neg notHere]
          exact ih once.2 further

/-- The elements of an array: one for every index. -/
def elements (lua : Platform) (entries : Entries) (maxCount : Nat) : Option (List Value) :=
  (List.range maxCount).mapM fun i =>
    Entries.get (some .nil) (.number ((i + 1 : Nat) : ℚ)) (rereadsEntries lua entries)

theorem mapM_some {ι β : Type} {f : ι → Option β} (indices : List ι) (found : List β)
    (all : indices.mapM f = some found) : found.length = indices.length ∧ ∀ (n : Nat) (i : ι), indices[n]? = some i →
      ∃ b : β, found[n]? = some b ∧ f i = some b := by
  induction indices generalizing found with
  | nil =>
      cases all
      exact ⟨rfl, fun n i atEnd => by cases atEnd⟩
  | cons i indices ih =>
      rw [List.mapM_cons] at all
      obtain ⟨b, here, all⟩ := Option.bind_eq_some_iff.mp all
      obtain ⟨others, more, same⟩ := Option.bind_eq_some_iff.mp all
      cases same
      obtain ⟨long, each⟩ := ih others more
      refine ⟨congrArg Nat.succ long, fun n j atIndex => ?_⟩
      cases n with
      | zero =>
          cases atIndex
          exact ⟨b, rfl, here⟩
      | succ n => exact each n j atIndex

theorem mapM_of_each {ι β : Type} {f : ι → Option β} (indices : List ι) (each : ∀ i ∈ indices, ∃ b, f i = some b) :
    ∃ found, indices.mapM f = some found := by
  induction indices with
  | nil => exact ⟨[], rfl⟩
  | cons i indices ih =>
      obtain ⟨b, here⟩ := each i List.mem_cons_self
      obtain ⟨found, more⟩ := ih fun j member => each j (List.mem_cons_of_mem i member)
      exact ⟨b :: found, by rw [List.mapM_cons, here, more]; rfl⟩

def Value.notNil : Value → Bool
  | .nil => false
  | _ => true

theorem notNil_iff : v.notNil = true ↔ v ≠ .nil := by
  cases v <;> simp [Value.notNil]

/-- Nil is not inserted. -/
theorem foldl_insert (array items : List Value) :
    items.foldl insert array = array ++ items.filter Value.notNil := by
  induction items generalizing array with
  | nil => exact (List.append_nil array).symm
  | cons v items ih =>
      rw [List.foldl_cons, ih]
      cases v with
      | nil => rfl
      | _ =>
          rw [List.filter_cons_of_pos rfl, insert, List.append_assoc, List.singleton_append]
          exact fun same => by cases same

/-- A text that comes back as the array it was: nothing was dropped, and the indices run from 1. -/
theorem isList_of_same {maxCount : Nat} {found : List Value} (once : (entries.map Prod.fst).Nodup)
    (noNil : ∀ k v, (k, v) ∈ entries → v ≠ .nil) (isList : isArray lua entries = some maxCount)
    (reread : elements lua entries maxCount = some found)
    (same : Same (arrayTable (found.foldl insert [])) (.table entries)) :
    IsList entries ∧ ∀ k v, (k, v) ∈ entries → ∃ w, rereads lua v = some w ∧ Same w v := by
  obtain ⟨long, each⟩ := mapM_some _ found reread
  rw [List.length_range] at long
  rw [foldl_insert, List.nil_append] at same
  have under := same_table_iff.mp same
  -- A key of the table is a key of the array that came back.
  have indexed (k : Key) (v : Value) (member : (k, v) ∈ entries) :
      ∃ n w, (found.filter Value.notNil)[n]? = some w ∧ k = .number ((n + 1 : Nat) : ℚ) ∧ Same w v := by
    have there := under k
    rw [get_of_mem once member] at there
    have present := mem_of_get (there.ne_nil (noNil k v member))
    obtain ⟨n, item, isKey⟩ := mem_entriesFrom.mp present
    rw [Nat.add_comm] at isKey
    exact ⟨n, _, item, isKey, there⟩
  have all : found.filter Value.notNil = found := by
    refine List.filter_eq_self.mpr
      (List.length_filter_eq_length_iff.mp (Nat.le_antisymm (List.length_filter_le _ _) ?_))
    rw [long]
    obtain ⟨_, _, _, reached⟩ := isArrayFrom_some entries 0 maxCount isList
    cases reached with
    | inl zero => rw [zero]; exact Nat.zero_le _
    | inr top =>
        obtain ⟨k, v, member, index⟩ := top
        obtain ⟨n, w, item, isKey, _⟩ := indexed k v member
        rw [isKey, index_number] at index
        have isCount := Option.some.inj index
        have inside := (List.getElem?_eq_some_iff.mp item).1
        omega
  rw [all] at indexed under
  have outcome (n : Nat) (v : Value) (member : (Key.number ((n + 1 : Nat) : ℚ), v) ∈ entries) (w : Value)
      (item : found[n]? = some w) : rereads lua v = some w := by
    have inside := (List.getElem?_eq_some_iff.mp item).1
    obtain ⟨w', item', here⟩ := each n n (List.getElem?_range (long ▸ inside))
    rw [get_rereadsEntries once member] at here
    rw [here, ← item', item]
  refine ⟨⟨(List.range maxCount).map fun i => Entries.get .nil (.number ((i + 1 : Nat) : ℚ)) entries, ?_⟩, ?_⟩
  · refine (List.perm_ext_iff_of_nodup (List.Nodup.of_map _ once)
      (List.Nodup.of_map _ (nodup_entriesFrom 1 _))).mpr fun entry => ?_
    obtain ⟨k, v⟩ := entry
    rw [mem_entriesFrom]
    constructor
    · intro member
      obtain ⟨n, w, item, isKey, _⟩ := indexed k v member
      have inside := (List.getElem?_eq_some_iff.mp item).1
      refine ⟨n, ?_, by rw [isKey, Nat.add_comm]⟩
      rw [List.getElem?_map, List.getElem?_range (long ▸ inside), Option.map_some, ← isKey, get_of_mem once member]
    · intro member
      obtain ⟨n, item, isKey⟩ := member
      have inside := (List.getElem?_eq_some_iff.mp item).1
      rw [List.length_map, List.length_range] at inside
      rw [List.getElem?_map, List.getElem?_range inside, Option.map_some] at item
      rw [Nat.add_comm] at isKey
      have there := under k
      rw [isKey, get_entriesFrom (List.getElem?_eq_getElem (long ▸ inside))] at there
      have notNil : found[n] ≠ .nil :=
        notNil_iff.mp (List.filter_eq_self.mp all _ (List.getElem_mem _))
      have present : Entries.get .nil (.number ((n + 1 : Nat) : ℚ)) entries ≠ .nil := by
        intro isNil
        rw [isNil] at there
        exact notNil (by
          have root := there.shape
          cases atIndex : found[n] with
          | nil => rfl
          | _ => rw [atIndex] at root; cases root)
      have member := mem_of_get present
      rw [Option.some.inj item] at member
      rw [isKey]
      exact member
  · intro k v member
    obtain ⟨n, w, item, isKey, same⟩ := indexed k v member
    subst isKey
    exact ⟨w, outcome n v member w item, same⟩

/-- A table with the keys 1 to n is written as an array of n elements. -/
theorem isArray_of_isList {items : List Value} (perm : entries.Perm (entriesFrom 1 items))
    (encodable : ∀ k v, (k, v) ∈ entries → isEncodable v = true) : isArray lua entries = some items.length := by
  have keyIs (k : Key) (v : Value) (member : (k, v) ∈ entries) :
      ∃ n, n < items.length ∧ k = .number ((n + 1 : Nat) : ℚ) := by
    obtain ⟨n, item, isKey⟩ := mem_entriesFrom.mp (perm.mem_iff.mp member)
    rw [Nat.add_comm] at isKey
    exact ⟨n, (List.getElem?_eq_some_iff.mp item).1, isKey⟩
  have fits (k : Key) (v : Value) (member : (k, v) ∈ entries) : Fits lua entries k v := by
    obtain ⟨n, _, isKey⟩ := keyIs k v member
    rw [Fits, isKey, index_number]
    exact encodable k v member
  obtain ⟨m, found⟩ := isArrayFrom_fits entries 0 fits
  obtain ⟨_, _, bound, reached⟩ := isArrayFrom_some entries 0 m found
  have below : m ≤ items.length := by
    cases reached with
    | inl zero => omega
    | inr top =>
        obtain ⟨k, v, member, index⟩ := top
        obtain ⟨n, inside, isKey⟩ := keyIs k v member
        rw [isKey, index_number] at index
        have isTop := Option.some.inj index
        omega
  have above : items.length ≤ m := by
    cases length : items.length with
    | zero => exact Nat.zero_le _
    | succ n =>
        have inside : n < items.length := by omega
        have last : (Key.number ((n + 1 : Nat) : ℚ), items[n]) ∈ entries := by
          refine perm.mem_iff.mpr (mem_entriesFrom.mpr ⟨n, List.getElem?_eq_getElem inside, ?_⟩)
          rw [Nat.add_comm]
        exact bound _ _ _ last (index_number n)
  rw [isArray, found, Nat.le_antisymm below above]

/-- A list comes back. -/
theorem same_of_isList (once : (entries.map Prod.fst).Nodup) (noNil : ∀ k v, (k, v) ∈ entries → v ≠ .nil)
    (isList : IsList entries)
    (each : ∀ k v, (k, v) ∈ entries → isEncodable v = true ∧ ∃ w, rereads lua v = some w ∧ Same w v) :
    ∃ w, rereads lua (.table entries) = some w ∧ Same w (.table entries) := by
  obtain ⟨items, perm⟩ := isList
  have under (n : Nat) (inside : n < items.length) : (Key.number ((n + 1 : Nat) : ℚ), items[n]) ∈ entries := by
    refine perm.mem_iff.mpr (mem_entriesFrom.mpr ⟨n, List.getElem?_eq_getElem inside, ?_⟩)
    rw [Nat.add_comm]
  have isArray : isArray lua entries = some items.length :=
    isArray_of_isList perm fun k v member => (each k v member).1
  have outcome : ∃ found, elements lua entries items.length = some found := by
    refine mapM_of_each _ fun n member => ?_
    have inside := under n (List.mem_range.mp member)
    obtain ⟨_, w, reread, _⟩ := each _ _ inside
    exact ⟨w, by rw [get_rereadsEntries once inside, reread]⟩
  obtain ⟨found, reread⟩ := outcome
  obtain ⟨long, eachFound⟩ := mapM_some _ found reread
  rw [List.length_range] at long
  have item (n : Nat) (inside : n < items.length) : ∃ w, found[n]? = some w ∧ Same w items[n] := by
    obtain ⟨w, atIndex, here⟩ := eachFound n n (List.getElem?_range inside)
    obtain ⟨_, w', reread', same⟩ := each _ _ (under n inside)
    rw [get_rereadsEntries once (under n inside), reread'] at here
    exact ⟨w, atIndex, Option.some.inj here ▸ same⟩
  have all : found.filter Value.notNil = found := by
    refine List.filter_eq_self.mpr fun w member => notNil_iff.mpr ?_
    obtain ⟨n, inside, isItem⟩ := List.mem_iff_getElem.mp member
    obtain ⟨w', atIndex, same⟩ := item n (long ▸ inside)
    rw [List.getElem?_eq_getElem inside, isItem] at atIndex
    cases atIndex
    exact same.ne_nil (noNil _ _ (under n (long ▸ inside)))
  refine ⟨arrayTable found, ?_, same_table_iff.mpr fun k => ?_⟩
  · rw [rereads, isArray]
    change (elements lua entries items.length).map _ = _
    rw [reread, Option.map_some, foldl_insert, all, List.nil_append]
  · by_cases present : ∃ n, n < items.length ∧ k = .number ((n + 1 : Nat) : ℚ)
    · obtain ⟨n, inside, isKey⟩ := present
      obtain ⟨w, atIndex, same⟩ := item n inside
      rw [isKey, get_entriesFrom atIndex, get_of_mem once (under n inside)]
      exact same
    · have absent {others : List Value} (short : others.length ≤ items.length) (v : Value) :
          (k, v) ∉ entriesFrom 1 others := by
        intro member
        obtain ⟨n, isItem, isKey⟩ := mem_entriesFrom.mp member
        rw [Nat.add_comm] at isKey
        exact present ⟨n, Nat.lt_of_lt_of_le (List.getElem?_eq_some_iff.mp isItem).1 short, isKey⟩
      rw [get_absent (absent (Nat.le_of_eq long)),
        get_absent fun v member => absent (Nat.le_refl _) v (perm.mem_iff.mp member)]
      exact fun _ => rfl

/-! ## Records

The members of a record come back under their names.
-/

/-- Only strings that can be read become keys of an object. -/
theorem rereadsPairs_names (rest : Entries) : ∀ object fields, rereadsPairs lua object rest = some fields →
    ∀ k, Entries.get .nil k fields ≠ .nil → Entries.get .nil k object ≠ .nil ∨ IsName k := by
  induction rest with
  | nil =>
      intro object fields reread k found
      rw [rereadsPairs] at reread
      cases reread
      exact .inl found
  | cons entry rest ih =>
      intro object fields reread k found
      obtain ⟨key, v⟩ := entry
      rw [rereadsPairs] at reread
      split at reread
      · obtain ⟨i, isText, reread⟩ := Option.bind_eq_some_iff.mp reread
        obtain ⟨w, _, reread⟩ := Option.bind_eq_some_iff.mp reread
        split at reread
        · cases reread
        · rename_i readable
          cases ih _ _ reread k found with
          | inr name => exact .inr name
          | inl earlier =>
              rw [get_assign] at earlier
              by_cases here : k = .string i
              · exact .inr ⟨i, here, readable⟩
              · rw [if_neg here] at earlier
                exact .inl earlier
      · exact ih _ _ reread k found

/-- Every pair of a record is there, and nothing else. -/
theorem rereadsPairs_get (rest : Entries) : ∀ object fields, rereadsPairs lua object rest = some fields →
    (rest.map Prod.fst).Nodup → (∀ k v, (k, v) ∈ rest → IsName k) →
    (∀ k v, (k, v) ∈ rest → isEncodable v = true → ∃ w, rereads lua v = some w ∧ Entries.get .nil k fields = w) ∧
      ∀ k, (∀ v, (k, v) ∈ rest → isEncodable v = false) → Entries.get .nil k fields = Entries.get .nil k object := by
  induction rest with
  | nil =>
      intro object fields reread _ _
      rw [rereadsPairs] at reread
      cases reread
      exact ⟨fun k v member => absurd member List.not_mem_nil, fun _ _ => rfl⟩
  | cons entry rest ih =>
      intro object fields reread once names
      obtain ⟨key, v⟩ := entry
      rw [List.map_cons, List.nodup_cons] at once
      obtain ⟨i, isName, _⟩ := names key v List.mem_cons_self
      have more := fun k v member => names k v (List.mem_cons_of_mem _ member)
      subst isName
      have notAgain (u : Value) (member : (Key.string i, u) ∈ rest) : isEncodable u = false :=
        absurd (List.mem_map.mpr ⟨(Key.string i, u), member, rfl⟩) once.1
      rw [rereadsPairs] at reread
      split at reread
      · rename_i encodable
        obtain ⟨_, isText, reread⟩ := Option.bind_eq_some_iff.mp reread
        cases isText
        obtain ⟨w, isValue, reread⟩ := Option.bind_eq_some_iff.mp reread
        split at reread
        · cases reread
        · obtain ⟨each, others⟩ := ih _ _ reread once.2 more
          refine ⟨?_, ?_⟩
          · intro k u member isEncodable
            cases List.mem_cons.mp member with
            | inl here =>
                cases here
                refine ⟨w, isValue, ?_⟩
                rw [others _ notAgain, get_assign, if_pos rfl]
            | inr further => exact each k u further isEncodable
          · intro k skipped
            have notHere : k ≠ .string i := by
              intro here
              subst here
              have isSkipped := skipped v List.mem_cons_self
              rw [encodable] at isSkipped
              cases isSkipped
            rw [others k fun u member => skipped u (List.mem_cons_of_mem _ member), get_assign, if_neg notHere]
      · rename_i notEncodable
        obtain ⟨each, others⟩ := ih _ _ reread once.2 more
        refine ⟨?_, ?_⟩
        · intro k u member isEncodable
          cases List.mem_cons.mp member with
          | inl here =>
              cases here
              exact absurd isEncodable notEncodable
          | inr further => exact each k u further isEncodable
        · exact fun k skipped => others k fun u member => skipped u (List.mem_cons_of_mem _ member)

/-- Members that can all be read make an object. -/
theorem rereadsPairs_some (rest : Entries) : ∀ object, (∀ k v, (k, v) ∈ rest → IsName k) →
    (∀ k v, (k, v) ∈ rest → ∃ w, rereads lua v = some w) → ∃ fields, rereadsPairs lua object rest = some fields := by
  induction rest with
  | nil => exact fun object _ _ => ⟨object, by rw [rereadsPairs]⟩
  | cons entry rest ih =>
      intro object names each
      obtain ⟨key, v⟩ := entry
      obtain ⟨i, isName, readable⟩ := names key v List.mem_cons_self
      obtain ⟨w, isValue⟩ := each key v List.mem_cons_self
      have more (object : Entries) := ih object (fun k v member => names k v (List.mem_cons_of_mem _ member))
        fun k v member => each k v (List.mem_cons_of_mem _ member)
      subst isName
      rw [rereadsPairs, isValue]
      split
      · obtain ⟨fields, found⟩ := more (assign object (.string i) w)
        refine ⟨fields, ?_⟩
        simp only [keyText, bind, Option.bind, if_neg readable]
        exact found
      · exact more object

/-- Without numbers as keys the length of a table is 0. -/
theorem getn_names (names : ∀ k v, (k, v) ∈ entries → IsName k) : lua.getn entries = 0 := by
  by_contra positive
  refine lua.border entries _ (Nat.pos_of_ne_zero positive) rfl (get_absent fun v member => ?_)
  obtain ⟨s, isString, _⟩ := names _ v member
  cases isString

theorem isLength_names (names : ∀ k v, (k, v) ∈ entries → IsName k) (isLen : isLength lua entries v = true) :
    v = .number 0 := by
  cases v with
  | number q =>
      rw [isLength, getn_names names] at isLen
      exact congrArg Value.number ((of_decide_eq_true isLen).trans Nat.cast_zero)
  | _ => cases isLen

/-- Only a record comes back as an object. -/
theorem isRecord_of_same {fields : Entries} (once : (entries.map Prod.fst).Nodup)
    (noNil : ∀ k v, (k, v) ∈ entries → v ≠ .nil) (notArray : isArray lua entries = none)
    (reread : rereadsPairs lua [] entries = some fields) (same : Same (.table fields) (.table entries)) :
    IsRecord entries ∧ ∀ k v, (k, v) ∈ entries → ∃ w, rereads lua v = some w ∧ Same w v := by
  have under := same_table_iff.mp same
  have there (k : Key) (v : Value) (member : (k, v) ∈ entries) : Same (Entries.get .nil k fields) v := by
    have same := under k
    rw [get_of_mem once member] at same
    exact same
  have names (k : Key) (v : Value) (member : (k, v) ∈ entries) : IsName k := by
    cases rereadsPairs_names entries [] fields reread k ((there k v member).ne_nil (noNil k v member)) with
    | inl earlier => exact absurd rfl earlier
    | inr name => exact name
  obtain ⟨each, others⟩ := rereadsPairs_get entries [] fields reread once names
  refine ⟨⟨names, ?_⟩, ?_⟩
  · intro isEmpty
    subst isEmpty
    have fits : ∀ k v, (k, v) ∈ [(Key.string ['n'], Value.number 0)] →
        Fits lua [(Key.string ['n'], Value.number 0)] k v := by
      intro k v member
      cases List.mem_singleton.mp member
      simp only [Fits, Key.index, isLength, if_true]
      rw [getn_names names]
      exact decide_eq_true Nat.cast_zero.symm
    obtain ⟨m, isArrayAfterAll⟩ := isArrayFrom_fits _ 0 fits
    rw [isArray, isArrayAfterAll] at notArray
    cases notArray
  · intro k v member
    cases encodable : isEncodable v with
    | true =>
        obtain ⟨w, isValue, here⟩ := each k v member encodable
        exact ⟨w, isValue, here ▸ there k v member⟩
    | false =>
        have lost : Entries.get .nil k fields = .nil := by
          refine others k fun u member' => ?_
          have isHere : Entries.get Value.nil k entries = u := get_of_mem once member'
          rw [← isHere, get_of_mem once member]
          exact encodable
        have same := there k v member
        rw [lost] at same
        exact absurd same.of_nil (noNil k v member)

/-- A record comes back. -/
theorem same_of_isRecord (once : (entries.map Prod.fst).Nodup) (isRecord : IsRecord entries)
    (notEmpty : entries ≠ [])
    (each : ∀ k v, (k, v) ∈ entries → isEncodable v = true ∧ ∃ w, rereads lua v = some w ∧ Same w v) :
    ∃ w, rereads lua (.table entries) = some w ∧ Same w (.table entries) := by
  obtain ⟨names, notLength⟩ := isRecord
  have notArray : isArray lua entries = none := by
    cases found : isArray lua entries with
    | none => rfl
    | some m =>
        -- All keys would be `n`, so that there is one, and its value would be the length, which is 0.
        obtain ⟨fits, _⟩ := isArrayFrom_some entries 0 m found
        have isN (k : Key) (v : Value) (member : (k, v) ∈ entries) :
            k = .string ['n'] ∧ isLength lua entries v = true := by
          obtain ⟨s, isString, _⟩ := names k v member
          have fitsHere := fits k v member
          subst isString
          simp only [Fits, Key.index] at fitsHere
          by_cases here : Key.string s = .string ['n']
          · rw [if_pos here] at fitsHere
            exact ⟨here, fitsHere⟩
          · rw [if_neg here, (each _ v member).1] at fitsHere
            cases fitsHere
        cases entries with
        | nil => exact absurd rfl notEmpty
        | cons entry rest =>
            obtain ⟨k, v⟩ := entry
            obtain ⟨isKey, isLen⟩ := isN k v List.mem_cons_self
            cases rest with
            | nil =>
                rw [isKey, isLength_names names isLen] at notLength
                exact absurd rfl notLength
            | cons other rest =>
                obtain ⟨k', v'⟩ := other
                have isOther := (isN k' v' (List.mem_cons_of_mem _ List.mem_cons_self)).1
                rw [List.map_cons, List.nodup_cons] at once
                exact absurd (by rw [isKey, isOther]; exact List.mem_cons_self) once.1
  obtain ⟨fields, reread⟩ := rereadsPairs_some entries [] names fun k v member => by
    obtain ⟨_, w, isValue, _⟩ := each k v member
    exact ⟨w, isValue⟩
  obtain ⟨found, others⟩ := rereadsPairs_get entries [] fields reread once names
  refine ⟨.table fields, by rw [rereads, notArray]; simp only [reread, Option.map_some], same_table_iff.mpr fun k => ?_⟩
  by_cases present : ∃ v, (k, v) ∈ entries
  · obtain ⟨v, member⟩ := present
    obtain ⟨encodable, w, isValue, same⟩ := each k v member
    obtain ⟨w', isValue', here⟩ := found k v member encodable
    rw [isValue] at isValue'
    rw [get_of_mem once member, here, ← Option.some.inj isValue']
    exact same
  · rw [others k fun v member => absurd ⟨v, member⟩ present, get_absent fun v member => present ⟨v, member⟩]
    exact fun _ => rfl

/-! ## What comes back

Both directions: what survives comes back the same, and nothing else does.
-/

/-- What survives can be encoded. -/
theorem survives_encodable (survives : Survives v) : isEncodable v = true := by
  cases v with
  | unsupported => exact absurd survives id
  | _ => rfl

/-- What becomes of a value is the value exactly where it and all in it survive. -/
theorem rereads_same_iff (v : Value) : Everywhere Kept v →
    ((∃ w, rereads lua v = some w ∧ Same w v) ↔ Everywhere Survives v) := by
  induction v using Value.induct with
  | leaf v leaf =>
      intro _
      have single : Everywhere Survives v ↔ Survives v := ⟨Everywhere.here, everywhere_leaf leaf⟩
      rw [single]
      cases v with
      | nil => exact ⟨fun _ => trivial, fun _ => ⟨_, by rw [rereads], fun _ => rfl⟩⟩
      | null =>
          refine ⟨?_, fun survives => absurd survives id⟩
          rintro ⟨w, reread, same⟩
          rw [rereads] at reread
          cases reread
          exact absurd same.of_nil (by simp)
      | boolean b => exact ⟨fun _ => trivial, fun _ => ⟨_, by rw [rereads], fun _ => rfl⟩⟩
      | number q => exact ⟨fun _ => trivial, fun _ => ⟨_, by rw [rereads], fun _ => rfl⟩⟩
      | string s =>
          rw [rereads]
          by_cases lost : '\r' ∈ s
          · rw [if_pos lost]
            refine ⟨fun found => ?_, fun survives => absurd lost survives⟩
            obtain ⟨w, reread, _⟩ := found
            cases reread
          · rw [if_neg lost]
            exact ⟨fun _ => lost, fun _ => ⟨_, rfl, fun _ => rfl⟩⟩
      | table entries => exact absurd rfl (leaf entries)
      | unsupported =>
          refine ⟨?_, fun survives => absurd survives id⟩
          rintro ⟨w, reread, _⟩
          rw [rereads] at reread
          cases reread
  | table entries inside =>
      intro kept
      obtain ⟨once, noNil⟩ := kept.here
      constructor
      · rintro ⟨w, reread, same⟩
        rw [rereads] at reread
        have both : Survives (.table entries) ∧ ∀ k v, (k, v) ∈ entries → ∃ w, rereads lua v = some w ∧ Same w v := by
          cases isArray' : isArray lua entries with
          | some maxCount =>
              simp only [isArray'] at reread
              obtain ⟨found, isFound, isTable⟩ := Option.map_eq_some_iff.mp reread
              subst isTable
              obtain ⟨isList, each⟩ := isList_of_same once noNil isArray' isFound same
              exact ⟨.inl isList, each⟩
          | none =>
              simp only [isArray'] at reread
              obtain ⟨fields, isFields, isTable⟩ := Option.map_eq_some_iff.mp reread
              subst isTable
              obtain ⟨isRecord, each⟩ := isRecord_of_same once noNil isArray' isFields same
              exact ⟨.inr isRecord, each⟩
        refine everywhere_table both.1 fun entry member => ?_
        exact (inside entry member (kept.entry member)).mp (both.2 _ _ member)
      · intro survives
        have each (k : Key) (v : Value) (member : (k, v) ∈ entries) :
            isEncodable v = true ∧ ∃ w, rereads lua v = some w ∧ Same w v :=
          ⟨survives_encodable (survives.entry member).here,
            (inside _ member (kept.entry member)).mpr (survives.entry member)⟩
        by_cases isList : IsList entries
        · exact same_of_isList once noNil isList each
        · cases survives.here with
          | inl isList' => exact absurd isList' isList
          | inr isRecord =>
              refine same_of_isRecord once isRecord (fun isEmpty => isList ?_) each
              subst isEmpty
              exact ⟨[], List.Perm.refl _⟩

/-- What can be decoded was encoded. -/
theorem encode_of_rereads (v : Value) : ∀ w, rereads lua v = some w → ∃ t, encode lua v = some t := by
  induction v using Value.induct with
  | leaf v leaf =>
      intro w reread
      cases v with
      | unsupported => rw [rereads] at reread; cases reread
      | table entries => exact absurd rfl (leaf entries)
      | _ => exact ⟨_, by rw [encode]⟩
  | table entries inside =>
      intro w reread
      rw [rereads] at reread
      rw [encode]
      cases isArray' : isArray lua entries with
      | some maxCount =>
          simp only [isArray'] at reread
          obtain ⟨found, isFound, _⟩ := Option.map_eq_some_iff.mp reread
          obtain ⟨long, each⟩ := mapM_some _ found isFound
          obtain ⟨texts, written⟩ := mapM_of_each (f := fun i : Nat =>
            Entries.get (some ['n', 'u', 'l', 'l']) (.number (i + 1 : Nat)) (encodeEntries lua entries))
            (List.range maxCount) fun i member => by
              obtain ⟨w, _, here⟩ := each i i (List.getElem?_range (List.mem_range.mp member))
              cases get_encodeEntries (.number (i + 1 : Nat)) entries with
              | inl absent => exact ⟨_, absent.1⟩
              | inr present =>
                  obtain ⟨v, isEntry, isText, outcome⟩ := present
                  rw [outcome] at here
                  obtain ⟨text, written⟩ := inside _ isEntry w here
                  exact ⟨text, isText.trans written⟩
          exact ⟨_, by simp only [written]; rfl⟩
      | none =>
          simp only [isArray'] at reread
          obtain ⟨fields, isFields, _⟩ := Option.map_eq_some_iff.mp reread
          have pairs (rest : Entries) : (∀ entry ∈ rest, entry ∈ entries) → ∀ object fields,
              rereadsPairs lua object rest = some fields → ∃ texts, encodePairs lua rest = some texts := by
            induction rest with
            | nil => exact fun _ _ _ _ => ⟨[], by rw [encodePairs]⟩
            | cons entry rest ih =>
                intro part object fields reread
                obtain ⟨k, v⟩ := entry
                have more := ih fun entry member => part entry (List.mem_cons_of_mem _ member)
                rw [rereadsPairs] at reread
                rw [encodePairs]
                split at reread
                · rename_i encodable
                  obtain ⟨i, isText, reread⟩ := Option.bind_eq_some_iff.mp reread
                  obtain ⟨w, isValue, reread⟩ := Option.bind_eq_some_iff.mp reread
                  split at reread
                  · cases reread
                  · obtain ⟨texts, written⟩ := more _ _ reread
                    obtain ⟨text, isWritten⟩ := inside _ (part _ List.mem_cons_self) w isValue
                    exact ⟨_, by rw [if_pos encodable, encodePair, isText, isWritten, written]; rfl⟩
                · rename_i skipped
                  rw [if_neg skipped]
                  exact more _ _ reread
          obtain ⟨texts, written⟩ := pairs entries (fun _ member => member) [] fields isFields
          exact ⟨_, by simp only [written]; rfl⟩

/-- A value comes back from its text exactly where no string in it has a carriage return, every table in it is a list or
a record, and there is no `json.null` or function. -/
theorem decode_encode_iff (lua : Platform) (v : Value) (kept : Everywhere Kept v) :
    (∃ t w, encode lua v = some t ∧ decode lua t = .ok (w, t.length + 1) ∧ Same w v) ↔ Everywhere Survives v := by
  rw [← rereads_same_iff v kept]
  constructor
  · rintro ⟨t, w, written, decoded, same⟩
    have expected := decode_encode kept written
    cases reread : rereads lua v with
    | none =>
        rw [reread] at expected
        obtain ⟨message, raised⟩ := expected
        rw [decoded] at raised
        cases raised
    | some w' =>
        rw [reread] at expected
        have equal : decode lua t = .ok (w', t.length + 1) := expected
        rw [decoded] at equal
        cases equal
        exact ⟨w, rfl, same⟩
  · rintro ⟨w, reread, same⟩
    obtain ⟨t, written⟩ := encode_of_rereads v w reread
    have expected := decode_encode kept written
    rw [reread] at expected
    exact ⟨t, w, written, expected, same⟩

/-- A record with a list in it. -/
theorem decode_encode_iff_record :
    (∃ t w, encode .plain (.table [(.string ['n'], .table [(.number 1, .string ['"'])])]) = some t ∧
        decode .plain t = .ok (w, t.length + 1) ∧
          Same w (.table [(.string ['n'], .table [(.number 1, .string ['"'])])])) ↔
      Everywhere Survives (.table [(.string ['n'], .table [(.number 1, .string ['"'])])]) := by
  refine decode_encode_iff .plain _ (everywhere_table ⟨by decide, ?_⟩ fun entry member => ?_)
  · intro k v member
    cases List.mem_singleton.mp member
    exact fun same => by cases same
  · cases List.mem_singleton.mp member
    refine everywhere_table ⟨by decide, ?_⟩ fun entry member => ?_
    · intro k v member
      cases List.mem_singleton.mp member
      exact fun same => by cases same
    · cases List.mem_singleton.mp member
      exact everywhere_leaf (fun _ same => by cases same) trivial

end

end GameServer.Json
