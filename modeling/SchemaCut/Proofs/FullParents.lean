import SchemaCut.Subset
import SchemaCut.Proofs.Ancestors

/-!
# What full parents add

A parent of a set is an entity whose closure meets it.  Taken at its word this asks for one closure
for each entity of the schema; `Schema.widened` does just that.  `Schema.fullParents` makes two
searches in the reference graph instead: backward from the set for the parents, forward from them
for what they need.  The two are equal because reaching a member of the set and having a closure
that meets it are the same thing (`exists_reaches_iff_closure`), in whatever circles references run.

* `mem_fullParents_iff` : the members of the widened set by reachability.
* `fullParents_eq_widened` : the two searches compute the definition, members that the schema does
  not have do no more than stay, and nothing is widened a second time.
-/

namespace SchemaCut

lemma EntitySet.mem_foldl_union {α : Type} {f : α → EntitySet} {xs : List α} {s : EntitySet}
    {e : Entity} : e ∈ xs.foldl (fun acc x => acc.union (f x)) s ↔ e ∈ s ∨ ∃ x ∈ xs, e ∈ f x := by
  induction xs generalizing s with
  | nil => simp
  | cons x xs ih =>
    simp only [List.foldl_cons, ih, mem_union, or_assoc, List.mem_cons, exists_eq_or_imp]

namespace Schema

variable {s : Schema} {set : EntitySet}

/-! ## One closure for each entity -/

/-- What an entity adds to a set of which it is a parent: its closure. -/
def parentShare (s : Schema) (set : EntitySet) (e : Entity) : EntitySet :=
  match s.closure e with
  | .ok c => if c.meets set then c else ∅
  | .error _ => ∅

/-- The set with the closure of every entity whose closure meets it. -/
def widened (s : Schema) (set : EntitySet) : EntitySet :=
  s.entities.foldl (fun acc d => acc.union (s.parentShare set d.1)) set

lemma mem_parentShare_iff {e x : Entity} :
    x ∈ s.parentShare set e ↔ ∃ c, s.closure e = .ok c ∧ c.meets set = true ∧ x ∈ c := by
  rw [parentShare]
  cases s.closure e with
  | error f => simp
  | ok c =>
    cases hmeets : c.meets set with
    | false => simp [hmeets]
    | true => simp [hmeets]

lemma mem_widened_iff {x : Entity} :
    x ∈ s.widened set ↔
      x ∈ set ∨ ∃ e c, s.closure e = .ok c ∧ c.meets set = true ∧ x ∈ c := by
  simp only [widened, EntitySet.mem_foldl_union, mem_parentShare_iff]
  refine or_congr_right ⟨?_, ?_⟩
  · rintro ⟨d, -, c, hc⟩
    exact ⟨d.1, c, hc⟩
  · rintro ⟨e, c, hc, hx⟩
    -- an entity that has a closure is one of those that the fold goes through
    obtain ⟨definition, hfind⟩ := Option.isSome_iff_exists.1 (closure_eq_ok_iff.1 hc).1
    exact ⟨(e, definition), mem_entities.2 hfind, c, hc, hx⟩

/-! ## Parents by reachability -/

theorem mem_fullParents_iff {x : Entity} :
    x ∈ s.fullParents set ↔
      x ∈ set ∨ ∃ e, (∃ r ∈ set, s.Reaches e r) ∧ s.Reaches e x := by
  simp only [fullParents, ReferenceGraph.fullParents, EntitySet.mem_union,
    ReferenceGraph.mem_reachable_ofSchema_iff, ReferenceGraph.mem_ancestors_ofSchema_iff]

lemma mem_fullParents_iff_closure {x : Entity} :
    x ∈ s.fullParents set ↔
      x ∈ set ∨ ∃ e c, s.closure e = .ok c ∧ c.meets set = true ∧ x ∈ c := by
  rw [mem_fullParents_iff]
  refine or_congr_right (exists_congr fun e => ?_)
  rw [exists_reaches_iff_closure]
  constructor
  · rintro ⟨⟨c, hc, hmeets⟩, hx⟩
    exact ⟨c, hc, hmeets, (mem_closure_iff hc).2 hx⟩
  · rintro ⟨c, hc, hmeets, hx⟩
    exact ⟨⟨c, hc, hmeets⟩, (mem_closure_iff hc).1 hx⟩

/-- Members of a set that the schema does not have stay, and bring nothing with them. -/
lemma fullParents_of_filter (s : Schema) (set : EntitySet) :
    s.fullParents set = set.union (s.fullParents (set.filter s.contains)) := by
  refine EntitySet.ext_mem fun x => ?_
  simp only [fullParents, ReferenceGraph.fullParents, ReferenceGraph.ancestors_filter,
    EntitySet.mem_union, EntitySet.mem_filter]
  rw [← or_assoc, or_iff_left_of_imp And.left]

/-- The two searches in the graph give the set with the closure of every entity whose closure meets
it, and nothing else.  What the schema does not have stays in the set and adds nothing.  There is
one round only: an entity whose own closure does not meet the set gets in as a part of the closure
of another one that does, and not because it refers to something that got in. -/
theorem fullParents_eq_widened (s : Schema) (set : EntitySet) :
    s.fullParents set = s.widened set ∧
    (∀ x, x ∈ s.fullParents set ↔
      x ∈ set ∨ ∃ e c, s.closure e = .ok c ∧ c.meets set = true ∧ x ∈ c) ∧
    s.fullParents set = set.union (s.fullParents (set.filter s.contains)) ∧
    ∀ p c, s.closure p = .ok c → c.meets set = false → p ∈ s.fullParents set →
      ∃ e c', e ≠ p ∧ s.closure e = .ok c' ∧ c'.meets set = true ∧ p ∈ c' := by
  refine ⟨EntitySet.ext_mem fun x => ?_, fun x => mem_fullParents_iff_closure,
    s.fullParents_of_filter set, fun p c hc hmeets hp => ?_⟩
  · rw [mem_fullParents_iff_closure, mem_widened_iff]
  · have hp' : p ∈ c := (mem_closure_iff hc).2 (.refl (closure_eq_ok_iff.1 hc).1)
    rcases mem_fullParents_iff_closure.1 hp with hset | ⟨e, c', hc', hmeets', hpc'⟩
    · have hmeets' : c.meets set = true := EntitySet.meets_iff.2 ⟨p, hp', hset⟩
      rw [hmeets] at hmeets'
      cases hmeets'
    · refine ⟨e, c', ?_, hc', hmeets', hpc'⟩
      rintro rfl
      rw [hc] at hc'
      cases hc'
      rw [hmeets] at hmeets'
      cases hmeets'

-- `a` gets in as a parent of `t` and takes `b` with it; `c` refers to `b` and stays outside.
example :
    let s : Schema := ((((∅ : Schema).insert ⟨.type, "t"⟩ .null).insert ⟨.type, "b"⟩ .null).insert
      ⟨.type, "a"⟩ (.arr [.str "#/types/t", .str "#/types/b"])).insert ⟨.type, "c"⟩
      (.str "#/types/b")
    (s.fullParents (.single ⟨.type, "t"⟩)).toList =
      [⟨.type, "a"⟩, ⟨.type, "b"⟩, ⟨.type, "t"⟩] := by
  cbv

end Schema
end SchemaCut
