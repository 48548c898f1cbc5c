import SchemaCut.Graph
import SchemaCut.Proofs.Closure

/-!
# What a search in a reference graph visits

`ReferenceGraph.ofSchema` resolves the references of a schema in advance: an edge stays only where
the schema has its target.  So the edges of the graph are `Schema.Refers`, the relation that a walk
through the schema follows (`edge_ofSchema_iff`), and the edges of `ReferenceGraph.reverse` are
those edges turned round (`edge_reverse_iff`).

`ReferenceGraph.search` goes deep first where `Schema.walkFrom` goes wide first.  Its turns are
`Worklist.Turn`s all the same, so the order leaves no trace in what is visited.

* `mem_reachable_iff` : what can be reached from a set, for any graph.
* `mem_ancestors_iff` : what a set can be reached from, for any graph.
* `closure_reachable_agree` : the graph of a schema answers as the schema itself.
-/

namespace SchemaCut
namespace ReferenceGraph

open Worklist (Edge Reaches Turn)

variable {g : ReferenceGraph}

/-! ## The turns of a search -/

/-- Taking a known entity from the stack that is not visited yet is a turn of a search. -/
lemma visit_turn {visited targets : EntitySet} {e : Entity} (rest : List Entity)
    (htargets : g.targets? e = some targets) :
    Turn g.targets? ⟨visited, e :: rest⟩
      ⟨visited.insert e, targets.toList.filter (· ∉ visited.insert e) ++ rest⟩ := by
  refine .visit htargets (fun x hx => List.mem_append_right _ hx) (fun x hx => ?_)
    (fun x hx => ?_)
  · by_cases hvisited : x ∈ visited.insert e
    · exact .inl hvisited
    · have hnew : x ∈ targets.toList.filter (· ∉ visited.insert e) :=
        List.mem_filter.2 ⟨EntitySet.mem_toList.2 hx, by simpa using hvisited⟩
      exact .inr (List.mem_append_left rest hnew)
  · rcases List.mem_append.1 hx with hx | hx
    · exact .inr (EntitySet.mem_toList.1 (List.mem_filter.1 hx).1)
    · exact .inl hx

lemma search_run (g : ReferenceGraph) (visited : EntitySet) (stack : List Entity) :
    Relation.ReflTransGen (Turn g.targets?) ⟨visited, stack⟩ ⟨g.search visited stack, []⟩ := by
  fun_induction search g visited stack with
  | case1 visited => exact .refl
  | case2 visited e rest hvisited ih => exact .head (.drop (.inl hvisited)) ih
  | case3 visited e rest _ hnone ih => exact .head (.drop (.inr hnone)) ih
  | case4 visited e rest _ targets htargets visited' ih =>
    exact .head (visit_turn rest htargets) ih

theorem mem_search_iff {stack : List Entity} {e : Entity} :
    e ∈ g.search ∅ stack ↔ ∃ r ∈ stack, Reaches g.targets? r e :=
  Worklist.mem_visited_of_run (g.search_run ∅ stack)

lemma mem_starts {set : EntitySet} {e : Entity} :
    e ∈ g.starts set ↔ e ∈ set ∧ g.hasNode e = true := by
  simp [starts]

/-- Members of the set that are no nodes reach nothing, so nothing needs to be said about them. -/
theorem mem_reachable_iff {set : EntitySet} {e : Entity} :
    e ∈ g.reachable set ↔ ∃ r ∈ set, Reaches g.targets? r e := by
  simp only [reachable, mem_search_iff, mem_starts]
  constructor
  · rintro ⟨r, ⟨hr, -⟩, hre⟩
    exact ⟨r, hr, hre⟩
  · rintro ⟨r, hr, hre⟩
    exact ⟨r, ⟨hr, hre.1⟩, hre⟩

lemma closure?_eq_some_iff {e : Entity} {c : EntitySet} :
    g.closure? e = some c ↔ g.hasNode e = true ∧ g.search ∅ [e] = c := by
  simp [closure?]

/-! ## Edges turned round -/

lemma targets?_reverse (g : ReferenceGraph) (e : Entity) :
    g.reverse.targets? e = (g.targets? e).map fun _ =>
      EntitySet.ofList ((g.adjacency.filter fun t => e ∈ t.2).map Prod.fst) := by
  simp [reverse, targets?, NameMap.find?_mapNamed]

lemma mem_sources_iff {a b : Entity} :
    b ∈ EntitySet.ofList ((g.adjacency.filter fun t => a ∈ t.2).map Prod.fst) ↔
      ∃ targets, g.targets? b = some targets ∧ a ∈ targets := by
  simp only [EntitySet.mem_ofList, List.mem_map, List.mem_filter, decide_eq_true_eq]
  constructor
  · rintro ⟨⟨e, targets⟩, ⟨hmem, ha⟩, rfl⟩
    exact ⟨targets, mem_adjacency.1 hmem, ha⟩
  · rintro ⟨targets, hb, ha⟩
    exact ⟨(b, targets), ⟨mem_adjacency.2 hb, ha⟩, rfl⟩

/-- An edge of the reversed graph is an edge the other way. -/
lemma edge_reverse_iff {a b : Entity} :
    Edge g.reverse.targets? a b ↔ Edge g.targets? b a := by
  simp only [Edge, targets?_reverse, Option.isSome_map]
  constructor
  · rintro ⟨⟨sources, hsources, hb⟩, -⟩
    obtain ⟨targets, ha, rfl⟩ := Option.map_eq_some_iff.1 hsources
    exact ⟨mem_sources_iff.1 hb, by simp [ha]⟩
  · rintro ⟨⟨targets, hb, ha⟩, hknown⟩
    obtain ⟨targets', ha'⟩ := Option.isSome_iff_exists.1 hknown
    exact ⟨⟨_, by rw [ha']; rfl, mem_sources_iff.2 ⟨targets, hb, ha⟩⟩, by simp [hb]⟩

lemma reaches_reverse_iff {a b : Entity} :
    Reaches g.reverse.targets? a b ↔ Reaches g.targets? b a := by
  have hsome : ∀ x, (g.reverse.targets? x).isSome = (g.targets? x).isSome := by
    simp [targets?_reverse]
  constructor
  · exact Reaches.turned (fun x hx => by rwa [← hsome]) (fun x y => edge_reverse_iff.1)
  · exact Reaches.turned (fun x hx => by rwa [hsome]) (fun x y => edge_reverse_iff.2)

theorem mem_ancestors_iff {set : EntitySet} {e : Entity} :
    e ∈ g.ancestors set ↔ ∃ r ∈ set, Reaches g.targets? e r := by
  simp only [ancestors, mem_reachable_iff, reaches_reverse_iff]

/-! ## The graph of a schema -/

variable {s : Schema}

/-- The node of an entity has an edge to each of its references that the schema has. -/
lemma targets?_ofSchema (s : Schema) (e : Entity) :
    (ofSchema s).targets? e = (s.find? e).map fun definition =>
      definition.references.filter s.contains := by
  simp [ofSchema, targets?, NameMap.find?_map, Schema.find?, Schema.definitions]

lemma hasNode_ofSchema (s : Schema) (e : Entity) : (ofSchema s).hasNode e = s.contains e := by
  simp [hasNode, targets?_ofSchema, Schema.contains]

lemma edge_ofSchema_iff {a b : Entity} : Edge (ofSchema s).targets? a b ↔ s.Refers a b := by
  have hknown : ((ofSchema s).targets? b).isSome = s.contains b := hasNode_ofSchema s b
  rw [Edge, hknown, targets?_ofSchema]
  constructor
  · rintro ⟨⟨targets, htargets, hb⟩, hcontains⟩
    obtain ⟨definition, hfind, rfl⟩ := Option.map_eq_some_iff.1 htargets
    exact ⟨⟨definition, hfind, (EntitySet.mem_filter.1 hb).1⟩, hcontains⟩
  · rintro ⟨⟨definition, hfind, hb⟩, hcontains⟩
    exact ⟨⟨_, by rw [hfind]; rfl, EntitySet.mem_filter.2 ⟨hb, hcontains⟩⟩, hcontains⟩

lemma reaches_ofSchema_iff {a b : Entity} : Reaches (ofSchema s).targets? a b ↔ s.Reaches a b := by
  have hedge : Edge (ofSchema s).targets? = s.Refers := by
    funext x y
    exact propext edge_ofSchema_iff
  have hknown : ((ofSchema s).targets? a).isSome = s.contains a := hasNode_ofSchema s a
  rw [Reaches, Schema.Reaches, hedge, hknown]

lemma mem_reachable_ofSchema_iff {set : EntitySet} {e : Entity} :
    e ∈ (ofSchema s).reachable set ↔ ∃ r ∈ set, s.Reaches r e := by
  simp only [mem_reachable_iff, reaches_ofSchema_iff]

lemma mem_ancestors_ofSchema_iff {set : EntitySet} {e : Entity} :
    e ∈ (ofSchema s).ancestors set ↔ ∃ r ∈ set, s.Reaches e r := by
  simp only [mem_ancestors_iff, reaches_ofSchema_iff]

/-- Deep first along resolved edges or wide first through the definitions: from one entity the same
set is visited. -/
lemma search_ofSchema (s : Schema) (e : Entity) : (ofSchema s).search ∅ [e] = s.walk [e] :=
  EntitySet.ext_mem fun x => by
    simp only [mem_search_iff, reaches_ofSchema_iff, Schema.mem_walk_iff]

/-- The graph of a schema has the closure of an entity exactly when the schema has one, and it is
the same set; and from every set of entities, known or not, the graph reaches what a walk visits. -/
theorem closure_reachable_agree (s : Schema) :
    (∀ e, (ofSchema s).closure? e = none ↔ ∃ f, s.closure e = .error f) ∧
    (∀ e c, (ofSchema s).closure? e = some c ↔ s.closure e = .ok c) ∧
    ∀ seeds : EntitySet, (ofSchema s).reachable seeds = s.walk seeds.toList := by
  refine ⟨fun e => ?_, fun e c => ?_, fun seeds => EntitySet.ext_mem fun e => ?_⟩
  · cases h : s.contains e with
    | false => simp [closure?, hasNode_ofSchema, h, Schema.closure_of_not_contains h]
    | true => simp [closure?, hasNode_ofSchema, h, Schema.closure_of_contains h]
  · rw [closure?_eq_some_iff, Schema.closure_eq_ok_iff, hasNode_ofSchema, search_ofSchema]
  · simp only [mem_reachable_ofSchema_iff, Schema.mem_walk_iff, EntitySet.mem_toList]

end ReferenceGraph
end SchemaCut
