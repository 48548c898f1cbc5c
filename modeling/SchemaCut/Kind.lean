/-!
# Kinds of entity

A provider schema describes entities of three kinds: types, resources and functions. A `Kind` has
a word (`type`), the name of the section of a schema document that holds its entities (`types`),
and a place in the order type, resource, function. `PerKind α` holds one `α` for each kind; name
sets, schemas and half-read documents are all of this form.

* `Kind.ofSection?_sectionName` : the section name determines the kind.
* `PerKind.ext_get` : two such triples are equal when they agree at every kind.
-/

namespace SchemaCut

universe u v

/-- What an entity of a schema is. -/
inductive Kind where
  | type
  | resource
  | function
  deriving DecidableEq, Repr, Inhabited

namespace Kind

/-- Every kind once, in the order in which sections are written. -/
def all : List Kind := [.type, .resource, .function]

/-- The place of a kind in `Kind.all`. -/
def rank : Kind → Nat
  | .type => 0
  | .resource => 1
  | .function => 2

/-- The word for one entity of the kind. -/
def word : Kind → String
  | .type => "type"
  | .resource => "resource"
  | .function => "function"

/-- The name of the section that holds the entities of the kind. It is also the middle part of a
reference token. -/
def sectionName : Kind → String
  | .type => "types"
  | .resource => "resources"
  | .function => "functions"

/-- The kind whose section has exactly this name. -/
def ofSection? (s : String) : Option Kind :=
  all.find? fun k => k.sectionName = s

/-- The kind that a person means by a word or a section name, in any mix of upper and lower case
ASCII letters. -/
def ofWord? (s : String) : Option Kind :=
  let lower := String.ofList (s.toList.map Char.toLower)
  all.find? fun k => k.word = lower ∨ k.sectionName = lower

@[simp] theorem mem_all (k : Kind) : k ∈ all := by
  cases k <;> decide

@[simp] theorem ofSection?_sectionName (k : Kind) : ofSection? k.sectionName = some k := by
  cases k <;> decide

theorem ofSection?_eq_some_iff {s : String} {k : Kind} :
    ofSection? s = some k ↔ s = k.sectionName := by
  constructor
  · intro h
    have hfound := List.find?_some h
    simpa using (of_decide_eq_true hfound).symm
  · rintro rfl
    exact ofSection?_sectionName k

theorem sectionName_injective {j k : Kind} (h : j.sectionName = k.sectionName) : j = k :=
  Option.some.inj (by rw [← ofSection?_sectionName j, h, ofSection?_sectionName])

end Kind

/-- One value for each kind. -/
structure PerKind (α : Type u) where
  types : α
  resources : α
  functions : α
  deriving DecidableEq, Repr

namespace PerKind

variable {α : Type u} {β : Type v}

/-- The same value at every kind. -/
def const (a : α) : PerKind α := ⟨a, a, a⟩

/-- The value at a kind. -/
def get (p : PerKind α) : Kind → α
  | .type => p.types
  | .resource => p.resources
  | .function => p.functions

/-- Changes the value at one kind. -/
def modify (p : PerKind α) (k : Kind) (f : α → α) : PerKind α :=
  match k with
  | .type => { p with types := f p.types }
  | .resource => { p with resources := f p.resources }
  | .function => { p with functions := f p.functions }

/-- Applies a function at every kind. -/
def map (f : Kind → α → β) (p : PerKind α) : PerKind β :=
  ⟨f .type p.types, f .resource p.resources, f .function p.functions⟩

theorem ext_get {p q : PerKind α} (h : ∀ k, p.get k = q.get k) : p = q := by
  cases p; cases q
  have ht := h .type
  have hr := h .resource
  have hf := h .function
  simp only [get] at ht hr hf
  subst ht hr hf
  rfl

@[simp] theorem get_const (a : α) (k : Kind) : (const a).get k = a := by
  cases k <;> rfl

@[simp] theorem get_map (f : Kind → α → β) (p : PerKind α) (k : Kind) :
    (p.map f).get k = f k (p.get k) := by
  cases k <;> rfl

@[simp] theorem get_modify_self (p : PerKind α) (k : Kind) (f : α → α) :
    (p.modify k f).get k = f (p.get k) := by
  cases k <;> rfl

theorem get_modify_of_ne (p : PerKind α) {j k : Kind} (f : α → α) (h : j ≠ k) :
    (p.modify k f).get j = p.get j := by
  cases j <;> cases k <;> first | rfl | exact absurd rfl h

theorem get_modify (p : PerKind α) (j k : Kind) (f : α → α) :
    (p.modify k f).get j = if j = k then f (p.get j) else p.get j := by
  by_cases h : j = k
  · subst h; simp
  · simp [h, get_modify_of_ne p f h]

end PerKind

end SchemaCut
