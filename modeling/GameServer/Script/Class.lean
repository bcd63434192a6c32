/-
Module: GameServer.Script.Class
Purpose: `class` of src/script/share/class.lua: classes that keep copies of the methods they find in their super class,
  the objects made of them, and exactly when the copies make no difference to plain inheritance.
Trusted boundary: the fields `ctor`, `super` and `new` of a class are not assigned through `__newindex`; the proxies
  `obj[class_type]` are left out
Main exports: ClassSystem, ClassAction, classStep, inheritStep, bothStep, create, mem_create_iff, lookups_inherit_iff,
  lookups_inherit_of_bases_first
-/
import GameServer.Lib.Delegation
import GameServer.Lib.Runs

namespace GameServer.Script.Class

open Lib
open Lib.Delegation

/-! ## Classes and objects

A class is a table of methods that looks up what it does not have in its super class, and then keeps a copy. `Node` is
the same class without copies.
-/

/-- The raw fields of a class.  `ctor` is `false` at first. -/
structure ClassType (ν : Type*) where
  ctor : Option ν
  super : Option Nat

/-- An object, whose metatable looks up in the methods of its class. -/
structure Object (κ ν : Type*) where
  class_type : Nat
  fields : κ → Option ν

/-- The classes with the newest one first, and `_class`, which has the methods of each. -/
structure ClassSystem (κ ν : Type*) where
  classes : List (ClassType ν)
  vtbls : List (Node κ ν)
  objects : List (Object κ ν)

inductive ClassAction (κ ν : Type*) where
  /-- `class(super)`. -/
  | createClass (super : Option Nat)
  /-- `class_type.ctor = ctor`, a field that the class has. -/
  | setCtor (class_type : Nat) (ctor : ν)
  /-- `class_type[k] = v`, through `__newindex`. -/
  | newindex (class_type : Nat) (k : κ) (v : Option ν)
  /-- `class_type:new()`, up to the constructors. -/
  | new (class_type : Nat)
  /-- `obj[k] = v`. -/
  | set (obj : Nat) (k : κ) (v : Option ν)
  /-- `obj[k]` is read. -/
  | index (obj : Nat) (k : κ)

section Steps

variable {κ ν : Type*} [DecidableEq κ]

def ClassSystem.init : ClassSystem κ ν where
  classes := []
  vtbls := []
  objects := []

/-- What `obj[k]` gives, and what the lookup leaves in `_class`. -/
def ClassSystem.index (s : ClassSystem κ ν) (obj : Object κ ν) (k : κ) : Option ν × ClassSystem κ ν :=
  match obj.fields k with
  | some v => (some v, s)
  | none =>
      let (ret, vtbls) := lookup s.vtbls obj.class_type k
      (ret, { s with vtbls := vtbls })

def Object.set (obj : Object κ ν) (k : κ) (v : Option ν) : Object κ ν :=
  { obj with fields := Function.update obj.fields k v }

/-- `class_type.ctor = ctor`. -/
def setCtor : List (ClassType ν) → Nat → ν → List (ClassType ν)
  | [], _, _ => []
  | class_type :: older, c, ctor =>
      if c = older.length then { class_type with ctor := some ctor } :: older
      else class_type :: setCtor older c ctor

/-- One action on the classes or the objects.  None for a class or an object that is not there. -/
def classStep (s : ClassSystem κ ν) : ClassAction κ ν → Option (ClassSystem κ ν)
  | .createClass super =>
      if ∀ c, super = some c → c < s.classes.length then
        some { s with classes := ⟨none, super⟩ :: s.classes, vtbls := Node.empty super :: s.vtbls }
      else none
  | .setCtor class_type ctor =>
      if class_type < s.classes.length then some { s with classes := setCtor s.classes class_type ctor } else none
  | .newindex class_type k v =>
      if class_type < s.classes.length then some { s with vtbls := assign s.vtbls class_type k v } else none
  | .new class_type =>
      if class_type < s.classes.length then some { s with objects := s.objects ++ [⟨class_type, fun _ => none⟩] }
      else none
  | .set obj k v => s.objects[obj]?.map fun found => { s with objects := s.objects.set obj (found.set k v) }
  | .index obj k => s.objects[obj]?.map fun found => (s.index found k).2

/-- The same classes without copies: what each class is assigned, and its super class. -/
def inheritStep (plain : List (Node κ ν)) : ClassAction κ ν → List (Node κ ν)
  | .createClass super => Node.empty super :: plain
  | .newindex class_type k v => assign plain class_type k v
  | _ => plain

/-- Both together. -/
def bothStep (s : ClassSystem κ ν × List (Node κ ν)) (a : ClassAction κ ν) :
    Option (ClassSystem κ ν × List (Node κ ν)) :=
  (classStep s.1 a).map fun next => (next, inheritStep s.2 a)

end Steps

/-! ## Constructors

`create` calls the constructor of the super class before that of the class, if there are such; what it calls is the
class and all that it comes from.
-/

section Constructors

variable {ν : Type*}

/-- The classes whose constructors `create` calls, in the order of the calls. -/
def create : List (ClassType ν) → Nat → List Nat
  | [], _ => []
  | class_type :: older, c =>
      if c = older.length then
        (match class_type.super with
          | some super => create older super
          | none => []) ++ (if class_type.ctor.isSome then [c] else [])
      else create older c

/-- Super classes are older. -/
def BasesOlder : List (ClassType ν) → Prop
  | [] => True
  | class_type :: older => (∀ super, class_type.super = some super → super < older.length) ∧ BasesOlder older

/-- Of the class and older ones only. -/
theorem create_le {classes : List (ClassType ν)} {c m : Nat} (older : BasesOlder classes)
    (called : m ∈ create classes c) : m ≤ c := by
  induction classes generalizing c with
  | nil => cases called
  | cons class_type rest ih =>
      rw [create] at called
      by_cases here : c = rest.length
      · rw [if_pos here, List.mem_append] at called
        rcases called with above | own
        · cases has : class_type.super with
          | none => simp [has] at above
          | some super =>
              rw [has] at above
              have less := older.1 super has
              have bound := ih older.2 above
              omega
        · split at own
          · exact Nat.le_of_eq (List.mem_singleton.mp own)
          · cases own
      · rw [if_neg here] at called
        exact ih older.2 called

/-- The constructor of a super class is called before those of the classes derived from it, and each one once. -/
theorem create_pairwise {classes : List (ClassType ν)} (older : BasesOlder classes) (c : Nat) :
    (create classes c).Pairwise (· < ·) := by
  induction classes generalizing c with
  | nil => exact List.Pairwise.nil
  | cons class_type rest ih =>
      rw [create]
      by_cases here : c = rest.length
      · rw [if_pos here, List.pairwise_append]
        refine ⟨?_, by split <;> simp, ?_⟩
        · cases class_type.super with
          | none => exact List.Pairwise.nil
          | some super => exact ih older.2 super
        · intro m above n own
          cases has : class_type.super with
          | none => simp [has] at above
          | some super =>
              rw [has] at above
              have less := older.1 super has
              have bound := create_le older.2 above
              split at own
              · rw [List.mem_singleton.mp own]
                omega
              · cases own
      · rw [if_neg here]
        exact ih older.2 c

/-- The class with the number. -/
def classAt : List (ClassType ν) → Nat → Option (ClassType ν)
  | [], _ => none
  | class_type :: older, c => if c = older.length then some class_type else classAt older c

/-- A class that is there has a number below the count. -/
theorem classAt_lt {classes : List (ClassType ν)} {c : Nat} {class_type : ClassType ν}
    (found : classAt classes c = some class_type) : c < classes.length := by
  induction classes with
  | nil => cases found
  | cons newest rest ih =>
      rw [classAt] at found
      by_cases here : c = rest.length
      · rw [here, List.length_cons]
        exact Nat.lt_succ_self _
      · rw [if_neg here] at found
        exact Nat.lt_succ_of_lt (ih found)

theorem create_of_classAt_none {classes : List (ClassType ν)} {c : Nat} (missing : classAt classes c = none) :
    create classes c = [] := by
  induction classes with
  | nil => rfl
  | cons newest rest ih =>
      rw [classAt] at missing
      by_cases here : c = rest.length
      · rw [if_pos here] at missing
        cases missing
      · rw [if_neg here] at missing
        rw [create, if_neg here]
        exact ih missing

/-- The super class of a class is older than it. -/
theorem BasesOlder.super_lt {classes : List (ClassType ν)} (older : BasesOlder classes) {c super : Nat}
    {class_type : ClassType ν} (found : classAt classes c = some class_type) (derives : class_type.super = some super) :
    super < c := by
  induction classes with
  | nil => cases found
  | cons newest rest ih =>
      rw [classAt] at found
      by_cases here : c = rest.length
      · rw [if_pos here] at found
        cases found
        rw [here]
        exact older.1 super derives
      · rw [if_neg here] at found
        exact ih older.2 found

/-- `create` for a class: first for its super class, then its own constructor. -/
theorem create_eq {classes : List (ClassType ν)} (older : BasesOlder classes) {c : Nat} {class_type : ClassType ν}
    (found : classAt classes c = some class_type) :
    create classes c =
      (match class_type.super with
        | some super => create classes super
        | none => []) ++ (if class_type.ctor.isSome then [c] else []) := by
  induction classes with
  | nil => cases found
  | cons newest rest ih =>
      -- a super class is looked for among the older ones in either case
      have among : ∀ super, super < rest.length → create (newest :: rest) super = create rest super :=
        fun super less => if_neg (Nat.ne_of_lt less)
      rw [classAt] at found
      by_cases here : c = rest.length
      · rw [if_pos here] at found
        cases found
        rw [create, if_pos here]
        cases derives : class_type.super with
        | none => rfl
        | some super => simp only [among super (older.1 super derives)]
      · rw [if_neg here] at found
        rw [create, if_neg here, ih older.2 found]
        cases derives : class_type.super with
        | none => rfl
        | some super =>
            have less := Nat.lt_trans (older.2.super_lt found derives) (classAt_lt found)
            simp only [among super less]

/-- The class itself, its super class, and so on. -/
inductive IsAbove (classes : List (ClassType ν)) : Nat → Nat → Prop
  | self (c : Nat) : IsAbove classes c c
  | super {c super m : Nat} {class_type : ClassType ν} (found : classAt classes c = some class_type)
      (derives : class_type.super = some super) (further : IsAbove classes super m) : IsAbove classes c m

/-- `create` calls the constructors of the class and of the classes above it, as far as they have one. -/
theorem mem_create_iff {classes : List (ClassType ν)} (older : BasesOlder classes) {c m : Nat} :
    m ∈ create classes c ↔
      IsAbove classes c m ∧ ∃ class_type, classAt classes m = some class_type ∧ class_type.ctor.isSome := by
  constructor
  · induction c using Nat.strongRecOn with
    | _ c ih =>
        intro called
        cases found : classAt classes c with
        | none =>
            rw [create_of_classAt_none found] at called
            cases called
        | some class_type =>
            rw [create_eq older found, List.mem_append] at called
            rcases called with above | own
            · cases derives : class_type.super with
              | none =>
                  rw [derives] at above
                  cases above
              | some super =>
                  rw [derives] at above
                  obtain ⟨further, has⟩ := ih super (older.super_lt found derives) above
                  exact ⟨.super found derives further, has⟩
            · split at own
              · next has =>
                rw [List.mem_singleton.mp own]
                exact ⟨.self c, class_type, found, has⟩
              · cases own
  · rintro ⟨above, class_type, has, ctor⟩
    induction above with
    | self c =>
        rw [create_eq older has, if_pos ctor]
        exact List.mem_append_right _ (List.mem_singleton_self c)
    | super found derives further ih =>
        rw [create_eq older found, derives]
        exact List.mem_append_left _ (ih has)

theorem basesOlder_iff {classes : List (ClassType ν)} {κ : Type*} {plain : List (Node κ ν)}
    (supers : classes.map ClassType.super = plain.map Node.parent) : BasesOlder classes ↔ Ordered plain := by
  induction classes generalizing plain with
  | nil =>
      cases plain with
      | nil => rfl
      | cons node older => cases supers
  | cons class_type rest ih =>
      cases plain with
      | nil => cases supers
      | cons node older =>
          obtain ⟨super, rests⟩ := List.cons.inj supers
          have length : rest.length = older.length := by
            have lengths := congrArg List.length rests
            rwa [List.length_map, List.length_map] at lengths
          rw [BasesOlder, Ordered, super, length, ih rests]

end Constructors

/-! ## Lookups

The property speaks of all lookups that an object can make, and the condition of the copies that an assignment leaves
behind.
-/

section Lookups

variable {κ ν : Type*} [DecidableEq κ]

/-- Every object, also one that is made later, reads its own field, or else what its class is assigned or inherits. -/
def LookupsInherit (s : ClassSystem κ ν × List (Node κ ν)) : Prop :=
  ∀ (obj : Object κ ν) (k : κ), (s.1.index obj k).1 = (obj.fields k).or (resolve s.2 obj.class_type k)

/-- An assignment to a class finds no copy in a class that inherits the key from it, unless the copy is right
afterwards. -/
def NoStaleCopy (s : ClassSystem κ ν × List (Node κ ν)) : ClassAction κ ν → Prop
  | .newindex class_type k v =>
      ∀ derived w, Inherits k class_type s.2 derived → entry s.1.vtbls derived k = some w →
        resolve (assign s.2 class_type k v) class_type k = some w
  | _ => True

/-- A class is assigned before one is derived from it. -/
def BasesFirst (s : ClassSystem κ ν × List (Node κ ν)) : ClassAction κ ν → Prop
  | .newindex class_type _ _ => ∀ derived ∈ s.1.classes, derived.super ≠ some class_type
  | _ => True

/-- What holds as long as the copies are right. -/
structure CopiesInherit (s : ClassSystem κ ν × List (Node κ ν)) : Prop where
  supers : s.1.classes.map ClassType.super = s.2.map Node.parent
  ordered : Ordered s.2
  kept : Kept s.1.vtbls s.2
  copied : Copied s.1.vtbls s.2

variable {s : ClassSystem κ ν × List (Node κ ν)}

theorem lookupsInherit_iff :
    LookupsInherit s ↔ ∀ c k, (lookup s.1.vtbls c k).1 = resolve s.2 c k := by
  constructor
  · intro inherit c k
    exact inherit ⟨c, fun _ => none⟩ k
  · intro agree obj k
    rw [ClassSystem.index]
    cases obj.fields k with
    | some v => rfl
    | none => exact agree obj.class_type k

/-- What a class looks up first in its own copies is what it would inherit. -/
theorem CopiesInherit.lookupsInherit (inv : CopiesInherit s) : LookupsInherit s :=
  lookupsInherit_iff.mpr fun c k => (lookup_spec inv.kept inv.copied c k).1

@[simp] theorem setCtor_supers (classes : List (ClassType ν)) (c : Nat) (ctor : ν) :
    (setCtor classes c ctor).map ClassType.super = classes.map ClassType.super := by
  induction classes with
  | nil => rfl
  | cons class_type older ih =>
      rw [setCtor]
      split
      · rfl
      · rw [List.map_cons, ih, List.map_cons]

/-! ### Steps -/

omit [DecidableEq κ] in
theorem copiesInherit_init : CopiesInherit ((ClassSystem.init, []) : ClassSystem κ ν × List (Node κ ν)) where
  supers := rfl
  ordered := trivial
  kept := trivial
  copied := fun _ _ _ own => by cases own

/-- A lookup leaves right copies, whatever it looks up. -/
theorem CopiesInherit.index (inv : CopiesInherit s) (obj : Object κ ν) (k : κ) :
    CopiesInherit ((s.1.index obj k).2, s.2) := by
  rw [ClassSystem.index]
  cases obj.fields k with
  | some v => exact inv
  | none =>
      obtain ⟨-, kept, copied⟩ := lookup_spec inv.kept inv.copied obj.class_type k
      exact ⟨inv.supers, inv.ordered, kept, copied⟩

theorem bothStep_eq_some {next : ClassSystem κ ν × List (Node κ ν)} {a : ClassAction κ ν} :
    bothStep s a = some next ↔ classStep s.1 a = some next.1 ∧ next.2 = inheritStep s.2 a := by
  rw [bothStep, Option.map_eq_some_iff]
  constructor
  · rintro ⟨after, enabled, rfl⟩
    exact ⟨enabled, rfl⟩
  · rintro ⟨enabled, plain⟩
    exact ⟨next.1, enabled, by rw [← plain]⟩

theorem copiesInherit_step {a : ClassAction κ ν} {next : ClassSystem κ ν × List (Node κ ν)} (inv : CopiesInherit s)
    (guard : NoStaleCopy s a) (step : bothStep s a = some next) : CopiesInherit next := by
  obtain ⟨after, plain⟩ := next
  obtain ⟨enabled, rfl⟩ := bothStep_eq_some.mp step
  have supers := inv.supers
  have length : s.1.classes.length = s.2.length := by
    have lengths := congrArg List.length supers
    rwa [List.length_map, List.length_map] at lengths
  cases a with
  | createClass super =>
      obtain ⟨older, same⟩ := Option.ite_none_right_eq_some.mp enabled
      cases same
      refine ⟨?_, ⟨fun c has => length ▸ older c has, inv.ordered⟩, inv.kept.cons_empty, inv.copied.cons_empty inv.kept⟩
      rw [inheritStep, List.map_cons, List.map_cons, supers]
      rfl
  | setCtor class_type ctor =>
      obtain ⟨-, same⟩ := Option.ite_none_right_eq_some.mp enabled
      cases same
      exact ⟨(setCtor_supers s.1.classes class_type ctor).trans supers, inv.ordered, inv.kept, inv.copied⟩
  | newindex class_type k v =>
      obtain ⟨-, same⟩ := Option.ite_none_right_eq_some.mp enabled
      cases same
      exact ⟨supers.trans assign_parents.symm, inv.ordered.assign, inv.kept.assign,
        (copied_assign_iff inv.ordered inv.kept inv.copied).mpr guard⟩
  | new class_type =>
      obtain ⟨-, same⟩ := Option.ite_none_right_eq_some.mp enabled
      cases same
      exact ⟨supers, inv.ordered, inv.kept, inv.copied⟩
  | set obj k v =>
      obtain ⟨found, -, same⟩ := Option.map_eq_some_iff.mp enabled
      cases same
      exact ⟨supers, inv.ordered, inv.kept, inv.copied⟩
  | index obj k =>
      obtain ⟨found, -, same⟩ := Option.map_eq_some_iff.mp enabled
      cases same
      exact inv.index found k

/-- Without the condition, a lookup after the step finds the old method. -/
theorem noStaleCopy_needed {a : ClassAction κ ν} {next : ClassSystem κ ν × List (Node κ ν)} (inv : CopiesInherit s)
    (step : bothStep s a = some next) (inherit : LookupsInherit next) : NoStaleCopy s a := by
  cases a with
  | newindex class_type k v =>
      obtain ⟨after, plain⟩ := next
      obtain ⟨enabled, rfl⟩ := bothStep_eq_some.mp step
      obtain ⟨-, same⟩ := Option.ite_none_right_eq_some.mp enabled
      cases same
      exact (copied_assign_iff inv.ordered inv.kept inv.copied).mp (copied_of_lookups (lookupsInherit_iff.mp inherit))
  | createClass super => exact trivial
  | setCtor class_type ctor => exact trivial
  | new class_type => exact trivial
  | set obj k v => exact trivial
  | index obj k => exact trivial

/-- A class that no other is derived from leaves no stale copy. -/
theorem BasesFirst.noStaleCopy {a : ClassAction κ ν} (inv : CopiesInherit s) (first : BasesFirst s a) :
    NoStaleCopy s a := by
  cases a with
  | newindex class_type k v =>
      intro derived w inherits _
      obtain ⟨node, member, has⟩ := inherits.exists_child
      have super : some class_type ∈ s.1.classes.map ClassType.super := by
        rw [inv.supers, ← has]
        exact List.mem_map_of_mem member
      obtain ⟨class', isClass, derives⟩ := List.mem_map.mp super
      exact absurd derives (first class' isClass)
  | createClass super => exact trivial
  | setCtor class_type ctor => exact trivial
  | new class_type => exact trivial
  | set obj k v => exact trivial
  | index obj k => exact trivial

/-! ### Runs -/

/-- In a run, all objects read what plain inheritance gives them in every state reached exactly when no assignment to a
class leaves a stale copy in a class derived from it. -/
theorem lookups_inherit_iff {as : List (ClassAction κ ν)} {t : ClassSystem κ ν × List (Node κ ν)}
    (run : runSteps bothStep (ClassSystem.init, []) as = some t) :
    (∀ pre m, pre <+: as → runSteps bothStep (ClassSystem.init, []) pre = some m → LookupsInherit m) ↔
      Guarded bothStep NoStaleCopy (ClassSystem.init, []) as :=
  forall_reached_iff_guarded (fun _ inv => inv.lookupsInherit)
    (fun _ _ _ inv guard step => copiesInherit_step inv guard step)
    (fun _ _ _ inv step inherit => noStaleCopy_needed inv step inherit) copiesInherit_init run

/-- An object of a derived class looks up a method of the base class. -/
def methodLookedUp : List (ClassAction String Nat) :=
  [.createClass none, .newindex 0 "GetShuffler" (some 1), .createClass (some 0), .new 1, .index 0 "GetShuffler"]

/-- Assigned again in the base class, the method is not found by later objects. -/
theorem lookups_inherit_iff_assignedAgain :
    ¬ ∀ pre m, pre <+: methodLookedUp ++ [.newindex 0 "GetShuffler" (some 2)] →
      runSteps bothStep (ClassSystem.init, []) pre = some m → LookupsInherit m := by
  intro inherit
  have run : runSteps bothStep (ClassSystem.init, []) (methodLookedUp ++ [.newindex 0 "GetShuffler" (some 2)]) =
    some _ := rfl
  have guarded := (lookups_inherit_iff run).mp inherit
  have before : runSteps bothStep (ClassSystem.init, []) methodLookedUp = some _ := rfl
  have fresh := guarded.last before 1 1 ⟨rfl, Or.inl rfl⟩ rfl
  cases fresh

/-- Where every class is assigned before one is derived from it, all objects read what plain inheritance gives them, and
`new` calls the constructors of the class and of the classes above it, each once and from the base class on. -/
theorem lookups_inherit_of_bases_first {as : List (ClassAction κ ν)} {t : ClassSystem κ ν × List (Node κ ν)}
    (guarded : Guarded bothStep BasesFirst (ClassSystem.init, []) as)
    (run : runSteps bothStep (ClassSystem.init, []) as = some t) :
    LookupsInherit t ∧ ∀ c, (create t.1.classes c).Pairwise (· < ·) ∧
      ∀ m, m ∈ create t.1.classes c ↔ IsAbove t.1.classes c m ∧
        ∃ class_type, classAt t.1.classes m = some class_type ∧ class_type.ctor.isSome := by
  have inv : CopiesInherit t := by
    apply guarded_invariant _ copiesInherit_init guarded run
    intro s a next inv first step
    exact copiesInherit_step inv (first.noStaleCopy inv) step
  have older : BasesOlder t.1.classes := (basesOlder_iff inv.supers).mpr inv.ordered
  exact ⟨inv.lookupsInherit, fun c => ⟨create_pairwise older c, fun m => mem_create_iff older⟩⟩

theorem lookups_inherit_of_bases_first_lookedUp :
    ∃ t, runSteps bothStep (ClassSystem.init, []) methodLookedUp = some t ∧ LookupsInherit t ∧
      ∀ c, (create t.1.classes c).Pairwise (· < ·) ∧
        ∀ m, m ∈ create t.1.classes c ↔ IsAbove t.1.classes c m ∧
          ∃ class_type, classAt t.1.classes m = some class_type ∧ class_type.ctor.isSome := by
  have guarded : Guarded bothStep BasesFirst (ClassSystem.init, []) methodLookedUp := by
    refine ⟨trivial, fun m first => ?_⟩
    cases first
    refine ⟨fun derived isBase => ?_, fun m second => ?_⟩
    · intro derives
      rw [List.mem_singleton.mp isBase] at derives
      cases derives
    · cases second
      exact ⟨trivial, fun m _ => ⟨trivial, fun m _ => ⟨trivial, fun m _ => trivial⟩⟩⟩
  exact ⟨_, rfl, lookups_inherit_of_bases_first guarded rfl⟩

end Lookups

end GameServer.Script.Class
