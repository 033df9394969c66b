import Mathlib.Logic.Basic

/-!
# Two readings of a JSON text

A JSON text is a tree of tokens, and there is more than one way to read it.
The untyped reading decodes every token, bounds the nesting, and of the
members of an object that share a name keeps the last. The typed reading as a
structure of two fields takes the members one by one: it decodes the names and
the fields it knows, refuses to see one of them twice, and skips every other
value undecoded.

The two disagree on many texts. `lookup_of_visitMap` says what they share: a
field that the typed reading accepts is the member the untyped one finds.
-/

namespace XashProxy

namespace Json

/-- A text as it is parsed, the tokens of numbers and strings undecoded. -/
inductive Tree where
  | null
  | bool (b : Bool)
  | number (token : String)
  | string (token : String)
  | array (items : List Tree)
  | object (members : List (String × Tree))

/-- A value, with the numbers of the type `N`. An object is built by `insert`,
which keeps its names distinct. -/
inductive Value (N : Type) where
  | null
  | bool (b : Bool)
  | number (n : N)
  | string (s : String)
  | array (items : List (Value N))
  | object (members : List (String × Value N))

/-- The grammar, and what the tokens stand for. A token may be well formed and
yet denote nothing: a number that is out of range, half of a surrogate pair. -/
structure Decoder (N : Type) where
  parse : String → Option Tree
  number : String → Option N
  string : String → Option String

/-- A later member replaces an earlier one. -/
def insert {N : Type} (name : String) (v : Value N) (members : List (String × Value N)) :
    List (String × Value N) := members.filter (fun m => m.1 ≠ name) ++ [(name, v)]

def Value.get {N : Type} (name : String) : Value N → Option (Value N)
  | .object members => members.lookup name
  | _ => none

def Value.asStr {N : Type} : Value N → Option String
  | .string s => some s
  | _ => none

namespace Decoder

variable {N : Type} (c : Decoder N)

/-! ## The untyped reading -/

mutual

/-- `depth` bounds the arrays and objects around a value, its own included. -/
def read : Nat → Tree → Option (Value N)
  | _, .null => some .null
  | _, .bool b => some (.bool b)
  | _, .number token => (c.number token).map .number
  | _, .string token => (c.string token).map .string
  | depth, .array items =>
      if depth ≤ 1 then none else (readItems (depth - 1) items).map .array
  | depth, .object members =>
      if depth ≤ 1 then none else (readMembers (depth - 1) members []).map .object

def readItems : Nat → List Tree → Option (List (Value N))
  | _, [] => some []
  | depth, t :: ts =>
      (read depth t).bind fun v => (readItems depth ts).map fun vs => v :: vs

/-- The members are inserted one after the other. -/
def readMembers : Nat → List (String × Tree) → List (String × Value N) →
    Option (List (String × Value N))
  | _, [], acc => some acc
  | depth, (key, t) :: ms, acc =>
      (c.string key).bind fun name =>
        (read depth t).bind fun v => readMembers depth ms (insert name v acc)

end

/-! ## The typed reading -/

/-- A field of the type `String`. -/
def readString : Tree → Option String
  | .string token => c.string token
  | _ => none

section Struct

variable {α β : Type} (first second : String) (readFirst : Tree → Option α)
  (readSecond : Tree → Option β)

/-- The members of an object, with the fields seen so far. -/
def visitMap : List (String × Tree) → Option α → Option β → Option (α × β)
  | [], some a, some b => some (a, b)
  | [], _, _ => none
  | (key, t) :: ms, a, b =>
      (c.string key).bind fun name =>
        if name = first then
          if a.isSome then none
          else (readFirst t).bind fun x => visitMap ms (some x) b
        else if name = second then
          if b.isSome then none
          else (readSecond t).bind fun y => visitMap ms a (some y)
        else visitMap ms a b

/-- An array holds the fields in their order, and nothing else. -/
def visitSeq : List Tree → Option (α × β)
  | [t, u] => (readFirst t).bind fun a => (readSecond u).map fun b => (a, b)
  | _ => none

def readStruct : Tree → Option (α × β)
  | .object members => visitMap c first second readFirst readSecond members none none
  | .array items => visitSeq readFirst readSecond items
  | _ => none

end Struct

/-! ## The member both readings take -/

/-- The last member whose name is `name`. -/
def lastMember (name : String) : List (String × Tree) → Option Tree
  | [] => none
  | (key, t) :: ms =>
      (lastMember name ms).or (if c.string key = some name then some t else none)

theorem lookup_filter_ne {name k : String} {members : List (String × Value N)} :
    (members.filter (fun m => m.1 ≠ name)).lookup k
      = if k = name then none else members.lookup k := by
  induction members with
  | nil => simp
  | cons m members ih =>
      obtain ⟨key, v⟩ := m
      by_cases hkey : key = name
      · subst hkey
        rw [List.filter_cons_of_neg (by simp), ih]
        by_cases hk : k = key
        · rw [if_pos hk, if_pos hk]
        · have hne : (k == key) = false := beq_eq_false_iff_ne.mpr hk
          rw [if_neg hk, if_neg hk, List.lookup_cons, hne]
      · rw [List.filter_cons_of_pos (by simpa using hkey), List.lookup_cons, List.lookup_cons, ih]
        by_cases hk : k = key
        · subst hk
          simp [hkey]
        · have hne : (k == key) = false := beq_eq_false_iff_ne.mpr hk
          rw [hne]

theorem lookup_insert {name k : String} {v : Value N} {members : List (String × Value N)} :
    (insert name v members).lookup k = if k = name then some v else members.lookup k := by
  rw [insert, List.lookup_append, lookup_filter_ne]
  by_cases hk : k = name
  · subst hk
    simp
  · have hne : (k == name) = false := beq_eq_false_iff_ne.mpr hk
    simp [hk, hne, List.lookup_cons]

/-- The untyped reading keeps the last member of each name. -/
theorem lookup_readMembers {depth : Nat} {ms : List (String × Tree)}
    {acc members : List (String × Value N)} (h : c.readMembers depth ms acc = some members)
    (name : String) :
    (∀ t, c.lastMember name ms = some t → members.lookup name = c.read depth t)
      ∧ (c.lastMember name ms = none → members.lookup name = acc.lookup name) := by
  induction ms generalizing acc with
  | nil =>
      obtain rfl := Option.some.inj h
      exact ⟨nofun, fun _ => rfl⟩
  | cons m ms ih =>
      obtain ⟨key, t⟩ := m
      rw [readMembers, Option.bind_eq_some_iff] at h
      obtain ⟨key', hkey, h⟩ := h
      rw [Option.bind_eq_some_iff] at h
      obtain ⟨v, hv, h⟩ := h
      obtain ⟨hsome, hnone⟩ := ih h
      rw [lastMember, hkey]
      cases hlast : c.lastMember name ms with
      | some u =>
          refine ⟨fun t' ht' => ?_, nofun⟩
          obtain rfl := Option.some.inj ht'
          exact hsome u hlast
      | none =>
          have hrest := hnone hlast
          rw [lookup_insert] at hrest
          rw [Option.none_or]
          by_cases hname : name = key'
          · subst hname
            rw [if_pos rfl] at hrest ⊢
            refine ⟨fun t' ht' => ?_, nofun⟩
            obtain rfl := Option.some.inj ht'
            exact hrest.trans hv.symm
          · rw [if_neg hname] at hrest
            rw [if_neg fun h => hname (Option.some.inj h).symm]
            exact ⟨nofun, fun _ => hrest⟩

section Struct

variable {c} {α β : Type} {first second : String} {readFirst : Tree → Option α}
  {readSecond : Tree → Option β}

/-- A field that the typed reading accepts is the only member of its name. -/
theorem lastMember_of_visitMap {ms : List (String × Tree)} {a : Option α} {b : Option β}
    {x : α} {y : β}
    (h : c.visitMap first second readFirst readSecond ms a b = some (x, y)) :
    (∃ x', a = some x' ∧ x' = x ∧ c.lastMember first ms = none)
      ∨ (a = none ∧ ∃ t, c.lastMember first ms = some t ∧ readFirst t = some x) := by
  induction ms generalizing a b with
  | nil =>
      cases a with
      | none => cases h
      | some x' =>
          cases b with
          | none => cases h
          | some y' =>
              obtain ⟨rfl, -⟩ := Prod.mk.inj (Option.some.inj h)
              exact Or.inl ⟨x', rfl, rfl, rfl⟩
  | cons m ms ih =>
      obtain ⟨key, t⟩ := m
      rw [visitMap, Option.bind_eq_some_iff] at h
      obtain ⟨name, hname, h⟩ := h
      rw [lastMember, hname]
      split at h
      · rename_i hfirst
        subst hfirst
        rw [Option.ite_none_left_eq_some] at h
        obtain ⟨ha, h⟩ := h
        obtain ⟨x', hx', h⟩ := Option.bind_eq_some_iff.mp h
        have hnone : a = none := by simpa using ha
        -- the field is set now, so the rest has no other one
        rcases ih h with ⟨x'', heq, rfl, hrest⟩ | ⟨heq, -⟩
        · obtain rfl := Option.some.inj heq
          refine Or.inr ⟨hnone, t, ?_, hx'⟩
          rw [hrest, if_pos rfl]
          rfl
        · cases heq
      · rename_i hother
        have hskip : ¬ some name = some first := fun heq => hother (Option.some.inj heq)
        rw [if_neg hskip, Option.or_none]
        split at h
        · rw [Option.ite_none_left_eq_some] at h
          obtain ⟨y', -, h⟩ := Option.bind_eq_some_iff.mp h.2
          exact ih h
        · exact ih h

/-- An object that both readings accept: the first field is what the untyped
reading has under its name. -/
theorem lookup_of_visitMap {depth : Nat} {ms : List (String × Tree)}
    {members : List (String × Value N)} {x : α} {y : β}
    (hread : c.readMembers depth ms [] = some members)
    (h : c.visitMap first second readFirst readSecond ms none none = some (x, y)) :
    ∃ t, readFirst t = some x ∧ members.lookup first = c.read depth t := by
  rcases lastMember_of_visitMap h with ⟨x', heq, -⟩ | ⟨-, t, hlast, hx⟩
  · cases heq
  · exact ⟨t, hx, (c.lookup_readMembers hread first).1 t hlast⟩

end Struct

/-- Both readings decode a string alike. -/
theorem read_of_readString {depth : Nat} {t : Tree} {s : String}
    (h : c.readString t = some s) : c.read depth t = some (.string s) := by
  cases t with
  | string token =>
      have hs : c.string token = some s := h
      rw [read, hs]
      rfl
  | _ => cases h

/-- If the untyped reading has a string under the name of the first field, and
the typed one accepts the text, it is the first field. -/
theorem asStr_of_readStruct {β : Type} {first second : String} {readSecond : Tree → Option β}
    {depth : Nat} {t : Tree} {v : Value N} {s s' : String} {y : β}
    (hread : c.read depth t = some v) (hv : (v.get first).bind Value.asStr = some s')
    (h : c.readStruct first second c.readString readSecond t = some (s, y)) : s = s' := by
  cases t with
  | object ms =>
      rw [read, Option.ite_none_left_eq_some] at hread
      obtain ⟨members, hmembers, rfl⟩ := Option.map_eq_some_iff.mp hread.2
      obtain ⟨u, hu, hlookup⟩ := lookup_of_visitMap hmembers h
      rw [Value.get, hlookup, c.read_of_readString hu] at hv
      exact Option.some.inj hv
  | array items =>
      -- an array has no members, whatever the typed reading makes of it
      rw [read, Option.ite_none_left_eq_some] at hread
      obtain ⟨vs, -, rfl⟩ := Option.map_eq_some_iff.mp hread.2
      cases hv
  | _ => cases h

end Decoder

end Json

end XashProxy
