import Mathlib.Data.Finset.Card
import Mathlib.Data.Finset.Dedup
import SchemaCut.Proofs.EntityOrder

/-!
# Sets of entities as mathematical sets

An `EntitySet` is three sets of names, one for each kind.  `EntitySet.members` is the mathematical
set of pairs that it stands for, and every operation is the operation of this name on such sets: the
kinds are kept apart, so equal names of different kinds never meet.

`Operations` says what can be done with sets of some kind, so that one definition of a run serves
both the sets of the library and finite sets.  A run changes any number of named sets; what carries
it is one fact for each operation (`step_members`).

There are two ways through the members.  `EntitySet.toList` goes through the kinds and through the
names of each, `EntitySet.drain` takes out the least member until none is left; a member that is
taken out stands in front of the others (`toList_of_popFirst?`), so both give the same list.

* `drain_eq_toList` : the two ways through the members.
* `run_members` : a run of operations on sets is that run on what they stand for.
* `operations_exact` : this with everything that can be asked of a set.
-/

namespace SchemaCut
namespace EntitySet

variable {s t : EntitySet} {e : Entity}

/-! ## What a set stands for -/

/-- The members as a mathematical set of pairs of a kind and a name. -/
def members (s : EntitySet) : Finset Entity := s.toList.toFinset

@[simp] lemma mem_members : e ∈ s.members ↔ e ∈ s := by simp [members]

lemma members_inj : s.members = t.members ↔ s = t :=
  ⟨fun h => ext_mem fun e => by rw [← mem_members, h, mem_members], congrArg members⟩

lemma nodup_toList (s : EntitySet) : s.toList.Nodup :=
  s.pairwise_toList.imp fun {a b} hab => by
    rintro rfl
    exact Entity.lt_irrefl a hab

lemma length_toList (s : EntitySet) : s.toList.length = s.size := by
  simp [toList, Kind.all, size, NameSet.size, Nat.add_assoc]

lemma card_members (s : EntitySet) : s.members.card = s.size := by
  rw [members, List.toFinset_card_of_nodup s.nodup_toList, length_toList]

lemma isEmpty_iff : s.isEmpty = true ↔ s.members = ∅ := by
  rw [isEmpty, beq_iff_eq, ← card_members, Finset.card_eq_zero]

lemma isSubset_iff : s.isSubset t = true ↔ s.members ⊆ t.members := by
  simp only [isSubset, List.all_eq_true, NameSet.isSubset_iff, Finset.subset_iff, mem_members]
  exact ⟨fun h e he => h e.kind (Kind.mem_all e.kind) e.name he,
    fun h k _ n hn => h (x := ⟨k, n⟩) hn⟩

/-! ## Taking members out -/

/-- Taking out the least name of a kind that has one. -/
lemma of_popName? {k : Kind} (h : s.popName? k = some (e, t)) :
    e.kind = k ∧ (s.names k).toList = e.name :: (t.names k).toList ∧
      ∀ j, j ≠ k → t.names j = s.names j := by
  unfold popName? at h
  split at h
  · cases h
  · next n ns hns =>
    obtain ⟨rfl, rfl⟩ := Prod.mk.inj (Option.some.inj h)
    refine ⟨rfl, hns.trans ?_, fun j hj => PerKind.get_modify_of_ne _ _ hj⟩
    rw [names, PerKind.get_modify_self]

lemma popName?_eq_none_iff {k : Kind} : s.popName? k = none ↔ (s.names k).toList = [] := by
  unfold popName?
  split
  · next h => simp [h]
  · next h => simp [h]

/-- The members of a kind stand in front of those of later kinds if earlier kinds have none. -/
lemma toList_eq_append {before after : List Kind} {k : Kind}
    (hkinds : Kind.all = before ++ k :: after)
    (hnone : ∀ j ∈ before, (s.names j).toList = []) :
    s.toList = (s.names k).toList.map (⟨k, ·⟩) ++
      after.flatMap fun j => (s.names j).toList.map (⟨j, ·⟩) := by
  rw [toList, hkinds, List.flatMap_append, List.flatMap_cons,
    List.flatMap_eq_nil_iff.2 fun j hj => by rw [hnone j hj, List.map_nil], List.nil_append]

/-- What is taken out stands in front of the rest. -/
lemma toList_of_popFirst? (h : s.popFirst? = some (e, t)) : s.toList = e :: t.toList := by
  obtain ⟨before, k, after, hkinds, hpop, hbefore⟩ := List.findSome?_eq_some_iff.1 h
  obtain ⟨rfl, hk, hother⟩ := of_popName? hpop
  have hdifferent : (before ++ e.kind :: after).Nodup := hkinds ▸ (by decide : Kind.all.Nodup)
  have hsame : ∀ j ∈ before ++ after, t.names j = s.names j := fun j hj =>
    hother j fun hjk => (List.nodup_cons.1 (List.nodup_middle.1 hdifferent)).1 (hjk ▸ hj)
  have hnone : ∀ j ∈ before, (s.names j).toList = [] := fun j hj =>
    popName?_eq_none_iff.1 (by simpa using hbefore j hj)
  have hnone' : ∀ j ∈ before, (t.names j).toList = [] := fun j hj => by
    rw [hsame j (List.mem_append_left _ hj), hnone j hj]
  have hafter : (after.flatMap fun j => (t.names j).toList.map fun n => (⟨j, n⟩ : Entity)) =
      after.flatMap fun j => (s.names j).toList.map fun n => (⟨j, n⟩ : Entity) :=
    List.flatMap_congr fun j hj => by rw [hsame j (List.mem_append_right _ hj)]
  rw [toList_eq_append hkinds hnone, toList_eq_append hkinds hnone', hafter, hk]
  rfl

lemma toList_of_popFirst?_eq_none (h : s.popFirst? = none) : s.toList = [] := by
  rw [popFirst?, List.findSome?_eq_none_iff] at h
  exact List.flatMap_eq_nil_iff.2 fun k hk => by rw [popName?_eq_none_iff.1 (h k hk), List.map_nil]

/-- Both ways through the members give them in the same order. -/
theorem drain_eq_toList (s : EntitySet) : s.drain = s.toList := by
  fun_induction drain s with
  | case1 s h => exact (toList_of_popFirst?_eq_none h).symm
  | case2 s e t h ih => rw [toList_of_popFirst? h, ih]

/-! ## Operations -/

@[simp] lemma members_empty : (∅ : EntitySet).members = ∅ := by
  ext e
  simp

@[simp] lemma members_insert (s : EntitySet) (e : Entity) :
    (s.insert e).members = Insert.insert e s.members := by
  ext x
  simp

@[simp] lemma members_single (e : Entity) : (single e).members = {e} := by
  ext x
  simp

@[simp] lemma members_union (s t : EntitySet) : (s.union t).members = s.members ∪ t.members := by
  ext x
  simp

@[simp] lemma members_ofList (es : List Entity) : (ofList es).members = es.toFinset := by
  ext x
  simp

lemma ofList_toList (s : EntitySet) : ofList s.toList = s := ext_mem fun e => by simp

/-- What can be done with sets that are of type `σ`. -/
structure Operations (σ : Type) where
  empty : σ
  single : Entity → σ
  /-- Adds an entity, and says whether it was new. -/
  insert : σ → Entity → Bool × σ
  union : σ → σ → σ
  ofList : List Entity → σ

/-- The operations of this library. -/
def operations : Operations EntitySet where
  empty := ∅
  single := single
  insert := insertNew
  union := union
  ofList := ofList

/-- The operations on finite sets of pairs. -/
def finsetOperations : Operations (Finset Entity) where
  empty := ∅
  single e := {e}
  insert a e := (decide (e ∉ a), Insert.insert e a)
  union a b := a ∪ b
  ofList := List.toFinset

/-- What is done with one of the named sets. -/
inductive Command where
  | new (name : String)
  | single (name : String) (e : Entity)
  | insert (name : String) (e : Entity)
  | extend (name other : String)
  | collect (name : String) (es : List Entity)

namespace Operations

variable {σ : Type}

/-- What a command answers, and the sets after it. -/
def step (o : Operations σ) (sets : String → σ) : Command → Option Bool × (String → σ)
  | .new name => (none, Function.update sets name o.empty)
  | .single name e => (none, Function.update sets name (o.single e))
  | .insert name e =>
    let p := o.insert (sets name) e
    (some p.1, Function.update sets name p.2)
  | .extend name other => (none, Function.update sets name (o.union (sets name) (sets other)))
  | .collect name es => (none, Function.update sets name (o.ofList es))

/-- What a list of commands answers, and the sets after all of them. -/
def run (o : Operations σ) (sets : String → σ) : List Command → List (Option Bool) × (String → σ)
  | [] => ([], sets)
  | c :: cs =>
    let p := o.step sets c
    let q := o.run p.2 cs
    (p.1 :: q.1, q.2)

end Operations

/-- What named sets stand for. -/
def membersOf (sets : String → EntitySet) (name : String) : Finset Entity := (sets name).members

lemma membersOf_update (sets : String → EntitySet) (name : String) (s : EntitySet) :
    membersOf (Function.update sets name s) = Function.update (membersOf sets) name s.members := by
  funext other
  by_cases h : other = name
  · subst h
    simp [membersOf]
  · simp [membersOf, h]

/-- A command does to the sets what it does to the sets of pairs that they stand for. -/
lemma step_members (sets : String → EntitySet) (c : Command) :
    finsetOperations.step (membersOf sets) c =
      ((operations.step sets c).1, membersOf (operations.step sets c).2) := by
  cases c with
  | insert name e =>
    simp [Operations.step, operations, finsetOperations, membersOf_update, insertNew_eq, membersOf]
  | new name | single name e | extend name other | collect name es =>
    simp [Operations.step, operations, finsetOperations, membersOf_update, membersOf]

lemma run_members (sets : String → EntitySet) (cs : List Command) :
    finsetOperations.run (membersOf sets) cs =
      ((operations.run sets cs).1, membersOf (operations.run sets cs).2) := by
  induction cs generalizing sets with
  | nil => rfl
  | cons c cs ih => simp only [Operations.run, step_members, ih]

/-- Whatever is done with any number of sets answers what it answers for the sets of pairs that they
stand for, and leaves sets that stand for what is left there.  What a set is asked for is what the
set of pairs has: its members, their number, whether there are any, and how it compares with another
set.  Both ways through the members list each of them once, upwards, and collecting the list gives
the set back. -/
theorem operations_exact :
    (∀ (sets : String → EntitySet) (cs : List Command),
      (operations.run sets cs).1 = (finsetOperations.run (membersOf sets) cs).1 ∧
      ∀ name, ((operations.run sets cs).2 name).members =
        (finsetOperations.run (membersOf sets) cs).2 name) ∧
    ∀ s t : EntitySet,
      ((∀ e, e ∈ s ↔ e ∈ s.members) ∧ s.size = s.members.card ∧
        (s.isEmpty = true ↔ s.members = ∅) ∧
        (s.meets t = true ↔ ∃ e, e ∈ s.members ∧ e ∈ t.members) ∧
        (s.isSubset t = true ↔ s.members ⊆ t.members) ∧ (s = t ↔ s.members = t.members)) ∧
      s.drain = s.toList ∧ s.toList.Pairwise (· < ·) ∧ (∀ e, e ∈ s.toList ↔ e ∈ s.members) ∧
        s.toList.length = s.size ∧ ofList s.toList = s := by
  refine ⟨fun sets cs => ?_, fun s t => ⟨⟨fun e => mem_members.symm, s.card_members.symm,
    isEmpty_iff, ?_, isSubset_iff, members_inj.symm⟩, s.drain_eq_toList, s.pairwise_toList,
    fun e => ?_, s.length_toList, s.ofList_toList⟩⟩
  · rw [run_members]
    exact ⟨rfl, fun name => rfl⟩
  · simp only [meets_iff, mem_members]
  · rw [mem_toList, mem_members]

/-- Equal names of different kinds are different members. -/
example : (operations.run (fun _ => ∅)
    [.insert "a" ⟨.type, "n"⟩, .insert "a" ⟨.function, "n"⟩, .insert "a" ⟨.type, "n"⟩]).1 =
      [some true, some true, some false] := by
  decide +kernel

end EntitySet
end SchemaCut
