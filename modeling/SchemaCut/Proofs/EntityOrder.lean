import Mathlib.Tactic.Lemma
import SchemaCut.Graph

/-!
# The order of entities

Entities are ordered by kind and then by name.  The lists that go through the kinds one after the
other, and through ascending names in each of them, ascend strictly in this order: the members of a
set, the nodes of a graph and the definitions of a schema.

* `EntitySet.pairwise_toList`, `ReferenceGraph.pairwise_nodes`, `Schema.pairwise_entities` : the
  three lists ascend.
-/

namespace SchemaCut

namespace Entity

lemma lt_irrefl (a : Entity) : ¬ a < a := by
  rw [lt_def]
  rintro (h | ⟨-, h⟩)
  · exact Nat.lt_irrefl _ h
  · exact String.lt_irrefl _ h

lemma lt_trans {a b c : Entity} (hab : a < b) (hbc : b < c) : a < c := by
  rw [lt_def] at hab hbc ⊢
  rcases hab with hab | ⟨hkind, hab⟩
  · rcases hbc with hbc | ⟨hkind', -⟩
    · exact .inl (Nat.lt_trans hab hbc)
    · exact .inl (hkind' ▸ hab)
  · rcases hbc with hbc | ⟨hkind', hbc⟩
    · exact .inl (hkind ▸ hbc)
    · exact .inr ⟨hkind.trans hkind', String.lt_trans hab hbc⟩

lemma lt_asymm {a b : Entity} (hab : a < b) : ¬ b < a := fun hba =>
  lt_irrefl a (lt_trans hab hba)

/-- The least of the entities that have a property. -/
structure IsFirst (P : Entity → Prop) (e : Entity) : Prop where
  holds : P e
  least : ∀ x, P x → x = e ∨ e < x

lemma IsFirst.unique {P : Entity → Prop} {a b : Entity} (ha : IsFirst P a) (hb : IsFirst P b) :
    a = b := by
  rcases hb.least a ha.holds with h | hba
  · exact h
  rcases ha.least b hb.holds with h | hab
  · exact h.symm
  · exact absurd hab (lt_asymm hba)

end Entity

/-- Going through the kinds in their order and through ascending names in each of them is going
upwards. -/
lemma pairwise_flatMap_kinds {names : Kind → List String}
    (h : ∀ k, (names k).Pairwise (· < ·)) :
    (Kind.all.flatMap fun k => (names k).map fun n => (⟨k, n⟩ : Entity)).Pairwise (· < ·) := by
  have hkinds : Kind.all.Pairwise fun j k => j.rank < k.rank := by decide
  refine List.pairwise_flatMap.2 ⟨fun k _ => ?_, hkinds.imp fun {j k} hjk => ?_⟩
  · exact List.pairwise_map.2 ((h k).imp fun hmn => .inr ⟨rfl, hmn⟩)
  · intro a ha b hb
    obtain ⟨m, -, rfl⟩ := List.mem_map.1 ha
    obtain ⟨n, -, rfl⟩ := List.mem_map.1 hb
    exact .inl hjk

theorem EntitySet.pairwise_toList (s : EntitySet) : s.toList.Pairwise (· < ·) :=
  pairwise_flatMap_kinds fun k => (s.names k).ascending

namespace ReferenceGraph

theorem pairwise_nodes (g : ReferenceGraph) : g.nodes.Pairwise (· < ·) := by
  have hnodes : g.nodes =
      Kind.all.flatMap fun k => (g.byKind.get k).names.map fun n => (⟨k, n⟩ : Entity) := by
    simp only [nodes, adjacency, NameMap.names, List.map_flatMap, List.map_map]
    rfl
  rw [hnodes]
  exact pairwise_flatMap_kinds fun k => (g.byKind.get k).nameSet.ascending

lemma mem_nodes {g : ReferenceGraph} {e : Entity} : e ∈ g.nodes ↔ g.hasNode e = true := by
  rw [nodes, List.mem_map, hasNode, Option.isSome_iff_exists]
  constructor
  · rintro ⟨⟨x, targets⟩, hmem, rfl⟩
    exact ⟨targets, mem_adjacency.1 hmem⟩
  · rintro ⟨targets, htargets⟩
    exact ⟨(e, targets), mem_adjacency.2 htargets, rfl⟩

end ReferenceGraph

theorem Schema.pairwise_entities (s : Schema) : s.entities.Pairwise fun d d' => d.1 < d'.1 := by
  have hnames : s.entities.map Prod.fst =
      Kind.all.flatMap fun k => (s.definitions k).names.map fun n => (⟨k, n⟩ : Entity) := by
    simp only [entities, NameMap.names, List.map_flatMap, List.map_map]
    rfl
  refine List.pairwise_map.1 ?_
  rw [hnames]
  exact pairwise_flatMap_kinds fun k => (s.definitions k).nameSet.ascending

end SchemaCut
