import SchemaCut.Kind
import SchemaCut.NameSet

/-!
# Entities and sets of entities

An `Entity` is a kind together with a name; the same name under two kinds is two entities that have
nothing to do with each other. Entities are ordered by kind (type, resource, function) and then by
name. An `EntitySet` keeps one name set per kind, and is determined by its members
(`EntitySet.ext_mem`).

Two ways lead through the members: `EntitySet.toList` lists them, and `EntitySet.popFirst?` takes
the least one out, which `EntitySet.drain` repeats until none is left.
-/

namespace SchemaCut

/-- A kind and a name. -/
structure Entity where
  kind : Kind
  name : String
  deriving DecidableEq, Repr

namespace Entity

instance : LT Entity :=
  ⟨fun a b => a.kind.rank < b.kind.rank ∨ a.kind = b.kind ∧ a.name < b.name⟩

instance (a b : Entity) : Decidable (a < b) :=
  inferInstanceAs (Decidable (_ ∨ _))

theorem lt_def {a b : Entity} :
    a < b ↔ a.kind.rank < b.kind.rank ∨ a.kind = b.kind ∧ a.name < b.name := Iff.rfl

end Entity

/-- A finite set of entities. -/
structure EntitySet where
  byKind : PerKind NameSet
  deriving DecidableEq

namespace EntitySet

instance : EmptyCollection EntitySet := ⟨⟨.const ∅⟩⟩

/-- The names that are in the set under a kind. -/
def names (s : EntitySet) (k : Kind) : NameSet := s.byKind.get k

instance : Membership Entity EntitySet := ⟨fun s e => e.name ∈ s.names e.kind⟩

instance (e : Entity) (s : EntitySet) : Decidable (e ∈ s) :=
  inferInstanceAs (Decidable (e.name ∈ s.names e.kind))

/-- Adds an entity. -/
def insert (s : EntitySet) (e : Entity) : EntitySet :=
  ⟨s.byKind.modify e.kind fun ns => ns.insert e.name⟩

/-- Adds an entity, and says whether it was new. -/
def insertNew (s : EntitySet) (e : Entity) : Bool × EntitySet :=
  let p := (s.names e.kind).insertNew e.name
  (p.1, ⟨s.byKind.modify e.kind fun _ => p.2⟩)

/-- The set of one entity. -/
def single (e : Entity) : EntitySet := insert ∅ e

/-- The set of the listed entities. -/
def ofList (es : List Entity) : EntitySet := es.foldl insert ∅

/-- The members in ascending order. -/
def toList (s : EntitySet) : List Entity :=
  Kind.all.flatMap fun k => (s.names k).toList.map fun n => ⟨k, n⟩

/-- Adds every member of another set. -/
def union (s t : EntitySet) : EntitySet := t.toList.foldl insert s

/-- The members that satisfy a test. -/
def filter (s : EntitySet) (keep : Entity → Bool) : EntitySet :=
  ⟨s.byKind.map fun k ns => ns.filter fun n => keep ⟨k, n⟩⟩

/-- The number of members. -/
def size (s : EntitySet) : Nat :=
  (s.names .type).size + (s.names .resource).size + (s.names .function).size

/-- Whether the set has no member. -/
def isEmpty (s : EntitySet) : Bool := s.size == 0

/-- Whether some entity is in both sets. -/
def meets (s t : EntitySet) : Bool := Kind.all.any fun k => (s.names k).meets (t.names k)

/-- Whether every member of `s` is in `t`. -/
def isSubset (s t : EntitySet) : Bool := Kind.all.all fun k => (s.names k).isSubset (t.names k)

theorem mem_def {s : EntitySet} {e : Entity} : e ∈ s ↔ e.name ∈ s.names e.kind := Iff.rfl

@[simp] theorem not_mem_empty (e : Entity) : e ∉ (∅ : EntitySet) := by
  obtain ⟨k, n⟩ := e
  cases k <;> exact NameSet.not_mem_empty n

@[simp] theorem mem_insert {s : EntitySet} {e x : Entity} : x ∈ s.insert e ↔ x = e ∨ x ∈ s := by
  obtain ⟨j, m⟩ := x
  obtain ⟨k, n⟩ := e
  simp only [mem_def, names, insert, PerKind.get_modify]
  by_cases h : j = k
  · simp [h]
  · simp [h]

theorem ext_mem {s t : EntitySet} (h : ∀ e, e ∈ s ↔ e ∈ t) : s = t := by
  have : s.byKind = t.byKind :=
    PerKind.ext_get fun k => NameSet.ext_mem fun n => h ⟨k, n⟩
  cases s; cases t; simp_all

@[simp] theorem mem_toList {s : EntitySet} {e : Entity} : e ∈ s.toList ↔ e ∈ s := by
  obtain ⟨k, n⟩ := e
  simp [toList, mem_def]

theorem mem_foldl_insert {s : EntitySet} {es : List Entity} {x : Entity} :
    x ∈ es.foldl insert s ↔ x ∈ s ∨ x ∈ es := by
  induction es generalizing s with
  | nil => simp
  | cons e es ih =>
    simp only [List.foldl_cons, ih, mem_insert, List.mem_cons]
    constructor
    · rintro ((h | h) | h) <;> simp [h]
    · rintro (h | h | h) <;> simp [h]

@[simp] theorem mem_ofList {es : List Entity} {x : Entity} : x ∈ ofList es ↔ x ∈ es := by
  simp [ofList, mem_foldl_insert]

@[simp] theorem mem_single {e x : Entity} : x ∈ single e ↔ x = e := by
  simp [single]

@[simp] theorem mem_union {s t : EntitySet} {x : Entity} : x ∈ s.union t ↔ x ∈ s ∨ x ∈ t := by
  simp [union, mem_foldl_insert]

@[simp] theorem mem_filter {s : EntitySet} {keep : Entity → Bool} {x : Entity} :
    x ∈ s.filter keep ↔ x ∈ s ∧ keep x = true := by
  simp [mem_def, names, filter]

theorem insertNew_eq (s : EntitySet) (e : Entity) :
    s.insertNew e = (decide (e ∉ s), s.insert e) := by
  have hmodify : (s.byKind.modify e.kind fun _ => (s.names e.kind).insert e.name) =
      s.byKind.modify e.kind fun ns => ns.insert e.name :=
    PerKind.ext_get fun k => by
      simp only [PerKind.get_modify, names]
      split
      · next h => rw [h]
      · rfl
  simp only [insertNew, NameSet.insertNew_eq, hmodify]
  rfl

theorem meets_iff {s t : EntitySet} : s.meets t = true ↔ ∃ e ∈ s, e ∈ t := by
  simp only [meets, List.any_eq_true, NameSet.meets_iff]
  constructor
  · rintro ⟨k, -, n, hs, ht⟩
    exact ⟨⟨k, n⟩, hs, ht⟩
  · rintro ⟨⟨k, n⟩, hs, ht⟩
    exact ⟨k, Kind.mem_all k, n, hs, ht⟩

theorem size_insert (s : EntitySet) (e : Entity) :
    (s.insert e).size = s.size + if e ∈ s then 0 else 1 := by
  obtain ⟨k, n⟩ := e
  cases k <;>
    simp only [size, names, insert, PerKind.modify, PerKind.get, NameSet.size_insert, mem_def] <;>
    omega

/-! ## Taking members out one by one -/

/-- The least member of a kind, and the other names of that kind. -/
def popName? (s : EntitySet) (k : Kind) : Option (Entity × EntitySet) :=
  match h : (s.names k).toList with
  | [] => none
  | n :: ns =>
    let rest : NameSet := ⟨ns, (List.pairwise_cons.1 (h ▸ (s.names k).ascending)).2⟩
    some (⟨k, n⟩, ⟨s.byKind.modify k fun _ => rest⟩)

/-- The least member and the others; `none` if there is no member. -/
def popFirst? (s : EntitySet) : Option (Entity × EntitySet) :=
  Kind.all.findSome? s.popName?

theorem size_of_popName? {s t : EntitySet} {k : Kind} {e : Entity}
    (h : s.popName? k = some (e, t)) : s.size = t.size + 1 := by
  unfold popName? at h
  split at h
  · simp at h
  · next n ns hns =>
    simp only [Option.some.injEq, Prod.mk.injEq] at h
    obtain ⟨-, rfl⟩ := h
    cases k <;>
      simp only [names, PerKind.get] at hns <;>
      simp only [size, names, PerKind.modify, PerKind.get, NameSet.size, hns, List.length_cons] <;>
      omega

theorem size_of_popFirst? {s t : EntitySet} {e : Entity} (h : s.popFirst? = some (e, t)) :
    s.size = t.size + 1 := by
  obtain ⟨k, -, hk⟩ := List.exists_of_findSome?_eq_some h
  exact size_of_popName? hk

/-- The members in the order in which `popFirst?` gives them out. -/
def drain (s : EntitySet) : List Entity :=
  match _h : s.popFirst? with
  | none => []
  | some (e, t) => e :: drain t
termination_by s.size
decreasing_by rw [size_of_popFirst? _h]; exact Nat.lt_succ_self _

end EntitySet

end SchemaCut
