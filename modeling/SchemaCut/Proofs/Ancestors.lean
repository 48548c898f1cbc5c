import SchemaCut.Proofs.Graph

/-!
# Ancestors

The ancestors of a set are what a search along reversed edges visits.  The edges were recorded
forward, when the graph was made from the definitions, so `ReferenceGraph.ancestors` and
`Schema.closure` look at the same references from two ends: one turns resolved edges round, the
other goes through the definitions themselves.  Reachability does not care from which end it is
seen, in whatever circles references run, and this module says what follows for sets.

* `closure_meets_iff` : the closure of an entity meets a set where the entity reaches a member.
* `mem_ancestors_iff_closure` : the ancestors are the entities whose closure meets the set.
* `ancestors_exact` : this, the duality of ancestors and closures, and what members that the schema
  does not have add to the ancestors.
-/

namespace SchemaCut
namespace Schema

variable {s : Schema} {set : EntitySet} {e : Entity} {c : EntitySet}

/-- Looking forward from an entity to the set and back from the set to the entity is the same. -/
lemma closure_meets_iff (hc : s.closure e = .ok c) :
    c.meets set = true ↔ ∃ r ∈ set, s.Reaches e r := by
  simp only [EntitySet.meets_iff, mem_closure_iff hc]
  exact exists_congr fun r => and_comm

/-- Only an entity of the schema reaches anything, and such an entity has a closure. -/
lemma exists_reaches_iff_closure :
    (∃ r ∈ set, s.Reaches e r) ↔ ∃ c, s.closure e = .ok c ∧ c.meets set = true := by
  constructor
  · rintro ⟨r, hr, her⟩
    have hc : s.closure e = .ok (s.walk [e]) := closure_of_contains her.1
    exact ⟨_, hc, (closure_meets_iff hc).2 ⟨r, hr, her⟩⟩
  · rintro ⟨c, hc, hmeets⟩
    exact (closure_meets_iff hc).1 hmeets

/-- A closure meets a set where the set is in the schema. -/
lemma closure_meets_filter (hc : s.closure e = .ok c) :
    c.meets (set.filter s.contains) = c.meets set := by
  rw [Bool.eq_iff_iff, closure_meets_iff hc, closure_meets_iff hc]
  constructor
  · rintro ⟨r, hr, her⟩
    exact ⟨r, (EntitySet.mem_filter.1 hr).1, her⟩
  · rintro ⟨r, hr, her⟩
    exact ⟨r, EntitySet.mem_filter.2 ⟨hr, her.contains_right⟩, her⟩

end Schema

namespace ReferenceGraph

open Schema (exists_reaches_iff_closure closure_meets_filter closure_eq_ok_iff)

variable {s : Schema} {set : EntitySet} {e : Entity}

lemma mem_ancestors_iff_closure :
    e ∈ (ofSchema s).ancestors set ↔ ∃ c, s.closure e = .ok c ∧ c.meets set = true := by
  rw [mem_ancestors_ofSchema_iff, exists_reaches_iff_closure]

/-- An entity is an ancestor of another one if and only if the other one is in its closure. -/
lemma mem_ancestors_single_iff {a b : Entity} :
    a ∈ (ofSchema s).ancestors (.single b) ↔ ∃ c, (ofSchema s).closure? a = some c ∧ b ∈ c := by
  simp only [mem_ancestors_iff_closure, (closure_reachable_agree s).2.1, EntitySet.meets_iff,
    EntitySet.mem_single, exists_eq_right]

/-- Members of a set that the schema does not have bring no ancestors with them. -/
lemma ancestors_filter (s : Schema) (set : EntitySet) :
    (ofSchema s).ancestors (set.filter s.contains) = (ofSchema s).ancestors set := by
  refine EntitySet.ext_mem fun x => ?_
  simp only [mem_ancestors_iff_closure]
  exact exists_congr fun c => and_congr_right fun hc => by rw [closure_meets_filter hc]

/-- The ancestors of a set are exactly the entities of the schema whose closure shares an entity
with it.  So one entity is an ancestor of another if and only if the other is in its closure, and
what the schema does not have may be left out of the set. -/
theorem ancestors_exact (s : Schema) :
    (∀ (set : EntitySet) (e : Entity), e ∈ (ofSchema s).ancestors set ↔
      s.contains e = true ∧ ∃ c, s.closure e = .ok c ∧ ∃ x ∈ c, x ∈ set) ∧
    (∀ a b : Entity, a ∈ (ofSchema s).ancestors (.single b) ↔
      ∃ c, (ofSchema s).closure? a = some c ∧ b ∈ c) ∧
    ∀ set : EntitySet,
      (ofSchema s).ancestors (set.filter s.contains) = (ofSchema s).ancestors set := by
  refine ⟨fun set e => ?_, fun a b => mem_ancestors_single_iff, ancestors_filter s⟩
  simp only [mem_ancestors_iff_closure, EntitySet.meets_iff]
  constructor
  · rintro ⟨c, hc, hshared⟩
    exact ⟨(closure_eq_ok_iff.1 hc).1, c, hc, hshared⟩
  · rintro ⟨-, c, hc, hshared⟩
    exact ⟨c, hc, hshared⟩

end ReferenceGraph
end SchemaCut
