import Mathlib.Data.Set.Card
import SchemaCut.Proofs.EntityOrder
import SchemaCut.Proofs.Graph

/-!
# Reference graphs with numbered nodes

A reference graph can also be kept with numbers for its nodes: a list of the entities, in which the
place of an entity is the number of its node, a table that gives the numbers back, and edges between
numbers.  `NumberedGraph.ofSchema` makes one in two passes over the entities of a schema.  The first
pass adds the nodes and fills the table, the second looks every end of an edge up in the table.

The second pass relies on what the first one leaves: that table and list are inverse to each other
(`Tabled`).  A table alone does not ensure this, since an entity that came twice would be given a
second number; the entities of a schema ascend, so none does.

* `tabled_addNodes` : the first pass numbers the entities and loses none.
* `adds_addDefinitions` : which edges the second pass adds.
* `numbering_exact` : both descriptions of the references of a schema are the same graph, with one
  node for each entity and one edge for each pair of entities of which one refers to the other.
-/

namespace SchemaCut

/-- A reference graph with numbered nodes. -/
structure NumberedGraph where
  /-- The entity of each node; the place of a node is its number. -/
  entities : List Entity
  /-- The number in the table for an entity. -/
  number? : Entity → Option Nat
  /-- The edges, in the order in which they were added. -/
  edges : List (Nat × Nat)
  /-- The entities that the second pass has passed over because it found no number for them. -/
  passedOver : List Entity

namespace NumberedGraph

/-! ## The two passes -/

/-- A graph without nodes. -/
def empty : NumberedGraph := ⟨[], fun _ => none, [], []⟩

/-- Adds a node, and puts its number into the table. -/
def addNode (n : NumberedGraph) (e : Entity) : NumberedGraph :=
  { n with
    entities := n.entities ++ [e]
    number? := Function.update n.number? e (some n.entities.length) }

/-- Adds an edge, unless it is there. -/
def addEdge (n : NumberedGraph) (i j : Nat) : NumberedGraph :=
  if (i, j) ∈ n.edges then n else { n with edges := n.edges ++ [(i, j)] }

/-- Adds the edge to an entity, if the table has the entity. -/
def addTarget (i : Nat) (n : NumberedGraph) (target : Entity) : NumberedGraph :=
  match n.number? target with
  | some j => n.addEdge i j
  | none => n

/-- Adds the edges of an entity with its definition. -/
def addDefinition (n : NumberedGraph) (d : Entity × Json) : NumberedGraph :=
  match n.number? d.1 with
  | some i => d.2.references.toList.foldl (addTarget i) n
  | none => { n with passedOver := n.passedOver ++ [d.1] }

/-- The graph of a schema. -/
def ofSchema (s : Schema) : NumberedGraph :=
  s.entities.foldl addDefinition ((s.entities.map Prod.fst).foldl addNode empty)

/-! ## The first pass -/

variable {n : NumberedGraph} {i j : Nat} {e : Entity}

/-- The table gives every entity the number of its node, and gives no other numbers. -/
def Tabled (n : NumberedGraph) : Prop :=
  ∀ e i, n.number? e = some i ↔ n.entities[i]? = some e

lemma tabled_empty : empty.Tabled := fun e i => by simp [empty]

lemma Tabled.isSome_iff (h : n.Tabled) : (n.number? e).isSome = true ↔ e ∈ n.entities := by
  rw [Option.isSome_iff_exists, List.mem_iff_getElem?]
  exact exists_congr fun i => h e i

lemma Tabled.nodup (h : n.Tabled) : n.entities.Nodup := by
  rw [List.nodup_iff_getElem?_ne_getElem?]
  intro i j hij hj heq
  obtain ⟨e, he⟩ : ∃ e, n.entities[j]? = some e := ⟨_, List.getElem?_eq_getElem hj⟩
  have hi := (h e i).2 (heq.trans he)
  rw [(h e j).2 he] at hi
  exact absurd (Option.some.inj hi) hij.ne'

/-- A new entity is given the next number, and nobody else's number changes. -/
lemma Tabled.addNode (h : n.Tabled) (he : e ∉ n.entities) : (n.addNode e).Tabled := by
  intro x i
  simp only [NumberedGraph.addNode, List.getElem?_append, Function.update_apply]
  by_cases hx : x = e
  · subst hx
    have hfar : ¬ n.entities[i]? = some x := fun hi => he (List.mem_of_getElem? hi)
    grind
  · have hold := h x i
    grind

lemma addNodes_edges (es : List Entity) (n : NumberedGraph) :
    (es.foldl NumberedGraph.addNode n).edges = n.edges ∧
      (es.foldl NumberedGraph.addNode n).passedOver = n.passedOver := by
  induction es generalizing n with
  | nil => exact ⟨rfl, rfl⟩
  | cons e es ih => exact ih (n.addNode e)

/-- Entities that are all different become the nodes, in their order. -/
lemma tabled_addNodes {es : List Entity} (h : n.Tabled) (hdifferent : (n.entities ++ es).Nodup) :
    (es.foldl NumberedGraph.addNode n).Tabled ∧
      (es.foldl NumberedGraph.addNode n).entities = n.entities ++ es := by
  induction es generalizing n with
  | nil => exact ⟨h, (List.append_nil _).symm⟩
  | cons e es ih =>
    have he : e ∉ n.entities := fun hmem =>
      (List.nodup_append.1 hdifferent).2.2 e hmem e List.mem_cons_self rfl
    obtain ⟨htabled, hentities⟩ := ih (h.addNode he) (by simpa [addNode] using hdifferent)
    exact ⟨htabled, by simpa [addNode] using hentities⟩

/-! ## The second pass -/

/-- The second graph has the nodes of the first one, and besides its edges those that satisfy
`P`. -/
structure Adds (P : Nat × Nat → Prop) (n n' : NumberedGraph) : Prop where
  entities : n'.entities = n.entities
  table : n'.number? = n.number?
  edges : ∀ x, x ∈ n'.edges ↔ x ∈ n.edges ∨ P x
  nodup : n.edges.Nodup → n'.edges.Nodup
  passedOver : n'.passedOver = n.passedOver

lemma adds_none {P : Nat × Nat → Prop} (h : ∀ x, ¬ P x) (n : NumberedGraph) : n.Adds P n :=
  ⟨rfl, rfl, fun x => by simp [h x], id, rfl⟩

lemma adds_addEdge (n : NumberedGraph) (i j : Nat) : Adds (· = (i, j)) n (n.addEdge i j) := by
  rw [addEdge]
  split
  · next hmem => exact ⟨rfl, rfl, fun x => by grind, id, rfl⟩
  · next hnew =>
    refine ⟨rfl, rfl, fun x => by simp, fun hnodup => ?_, rfl⟩
    exact List.nodup_append.2 ⟨hnodup, List.nodup_singleton _, by
      rintro x hx y hy rfl
      exact hnew (List.mem_singleton.1 hy ▸ hx)⟩

/-- Steps that add edges add all of them, one after the other. -/
lemma adds_foldl {α : Type} {f : NumberedGraph → α → NumberedGraph} {P : α → Nat × Nat → Prop}
    {as : List α} (n : NumberedGraph)
    (hstep : ∀ n' : NumberedGraph, n'.number? = n.number? → ∀ a ∈ as, n'.Adds (P a) (f n' a)) :
    n.Adds (fun x => ∃ a ∈ as, P a x) (as.foldl f n) := by
  induction as using List.reverseRecOn with
  | nil => exact adds_none (by simp) n
  | append_singleton as a ih =>
    have hold := ih fun n' hn' b hb => hstep n' hn' b (List.mem_append_left _ hb)
    have hnew := hstep _ hold.table a (by simp)
    rw [List.foldl_append, List.foldl_cons, List.foldl_nil]
    exact {
      entities := hnew.entities.trans hold.entities
      table := hnew.table.trans hold.table
      edges := fun x => by
        rw [hnew.edges, hold.edges]
        simp [or_and_right, exists_or, or_assoc]
      nodup := fun h => hnew.nodup (hold.nodup h)
      passedOver := hnew.passedOver.trans hold.passedOver }

/-- The edge from a number to an entity of the table. -/
def EdgeTo (number? : Entity → Option Nat) (i : Nat) (target : Entity) (x : Nat × Nat) : Prop :=
  x.1 = i ∧ number? target = some x.2

lemma adds_addTarget (i : Nat) (n : NumberedGraph) (target : Entity) :
    n.Adds (EdgeTo n.number? i target) (addTarget i n target) := by
  rw [addTarget]
  split
  · next j hj =>
    have hedge : EdgeTo n.number? i target = (· = (i, j)) := by
      funext x
      simp [EdgeTo, hj, Prod.ext_iff, eq_comm]
    rw [hedge]
    exact adds_addEdge n i j
  · next hnone => exact adds_none (by simp [EdgeTo, hnone]) n

/-- The edge from an entity to one that its definition refers to, as far as the table has them. -/
def EdgeOf (number? : Entity → Option Nat) (d : Entity × Json) (x : Nat × Nat) : Prop :=
  number? d.1 = some x.1 ∧ ∃ target ∈ d.2.references, number? target = some x.2

/-- An entity of the table is not passed over, and its edges are added. -/
lemma adds_addDefinition {d : Entity × Json} (hd : (n.number? d.1).isSome = true) :
    n.Adds (EdgeOf n.number? d) (n.addDefinition d) := by
  obtain ⟨i, hi⟩ := Option.isSome_iff_exists.1 hd
  have htargets : n.Adds (fun x => ∃ target ∈ d.2.references.toList, EdgeTo n.number? i target x)
      (d.2.references.toList.foldl (addTarget i) n) :=
    adds_foldl n fun n' hn' target _ => hn' ▸ adds_addTarget i n' target
  have hedges : EdgeOf n.number? d =
      fun x => ∃ target ∈ d.2.references.toList, EdgeTo n.number? i target x := by
    funext x
    simp only [EdgeOf, EdgeTo, hi, EntitySet.mem_toList, Option.some.injEq, eq_comm (a := i)]
    grind
  simp only [addDefinition, hi, hedges]
  exact htargets

/-- If the table has all the entities, the second pass adds all their edges. -/
lemma adds_addDefinitions {ds : List (Entity × Json)}
    (hds : ∀ d ∈ ds, (n.number? d.1).isSome = true) :
    n.Adds (fun x => ∃ d ∈ ds, EdgeOf n.number? d x) (ds.foldl addDefinition n) :=
  adds_foldl n fun n' hn' d hd => hn' ▸ adds_addDefinition (by rw [hn']; exact hds d hd)

/-! ## The graph of a schema -/

variable {s : Schema}

/-- What both passes leave. -/
lemma passes_ofSchema (s : Schema) :
    (ofSchema s).Tabled ∧ (ofSchema s).entities = s.entities.map Prod.fst ∧
      (ofSchema s).edges.Nodup ∧ (ofSchema s).passedOver = [] ∧
      ∀ x, x ∈ (ofSchema s).edges ↔ ∃ d ∈ s.entities, EdgeOf (ofSchema s).number? d x := by
  have hdifferent : (s.entities.map Prod.fst).Nodup :=
    (List.pairwise_map.2 s.pairwise_entities).imp fun {a b} hab => by
      rintro rfl
      exact Entity.lt_irrefl a hab
  obtain ⟨htabled, hentities⟩ := tabled_addNodes tabled_empty hdifferent
  obtain ⟨hedges, hpassed⟩ := addNodes_edges (s.entities.map Prod.fst) empty
  have hadds : Adds _ _ (ofSchema s) := adds_addDefinitions fun d hd =>
    htabled.isSome_iff.2 (hentities ▸ List.mem_append_right _ (List.mem_map_of_mem hd))
  have hnone : ∀ x, x ∉ ((s.entities.map Prod.fst).foldl addNode empty).edges := by
    rw [hedges]
    exact fun x => List.not_mem_nil
  refine ⟨?_, hadds.entities.trans hentities, hadds.nodup (hedges ▸ List.nodup_nil),
    hadds.passedOver.trans hpassed, fun x => ?_⟩
  · intro e i
    rw [hadds.entities, hadds.table]
    exact htabled e i
  · rw [hadds.edges, hadds.table]
    simp [hnone x]

end NumberedGraph

namespace ReferenceGraph

variable {s : Schema}

/-! ## Nodes and edges -/

lemma nodes_ofSchema (s : Schema) : (ofSchema s).nodes = s.entities.map Prod.fst := by
  simp only [nodes, adjacency, Schema.entities, List.map_flatMap, List.map_map, ofSchema,
    PerKind.get_map, NameMap.map, NameMap.mapNamed]
  rfl

lemma length_nodes (s : Schema) : (ofSchema s).nodes.length = s.size := by
  simp [nodes_ofSchema, Schema.entities, Kind.all, Schema.size, NameMap.size, Nat.add_assoc]

lemma nodup_nodes (g : ReferenceGraph) : g.nodes.Nodup :=
  g.pairwise_nodes.imp fun {a b} hab => by
    rintro rfl
    exact Entity.lt_irrefl a hab

lemma mem_edges {g : ReferenceGraph} {a b : Entity} :
    (a, b) ∈ g.edges ↔ ∃ targets, g.targets? a = some targets ∧ b ∈ targets := by
  simp only [edges, List.mem_flatMap, Prod.exists, mem_adjacency, List.mem_map,
    EntitySet.mem_toList, Prod.mk.injEq]
  grind

/-- No edge is there twice. -/
lemma nodup_edges (g : ReferenceGraph) : g.edges.Nodup := by
  have hnodes : g.adjacency.Pairwise fun t t' => t.1 ≠ t'.1 := List.pairwise_map.1 g.nodup_nodes
  refine List.pairwise_flatMap.2 ⟨fun t _ => ?_, hnodes.imp fun {t t'} hne => ?_⟩
  · refine List.pairwise_map.2 (t.2.pairwise_toList.imp fun {a b} hab heq => ?_)
    obtain rfl := (Prod.mk.inj heq).2
    exact Entity.lt_irrefl a hab
  · intro p hp q hq heq
    obtain ⟨a, -, rfl⟩ := List.mem_map.1 hp
    obtain ⟨b, -, rfl⟩ := List.mem_map.1 hq
    exact hne (Prod.mk.inj heq).1

lemma mem_edges_ofSchema {a b : Entity} : (a, b) ∈ (ofSchema s).edges ↔ s.Refers a b := by
  rw [mem_edges, targets?_ofSchema, Schema.Refers]
  constructor
  · rintro ⟨targets, htargets, hb⟩
    obtain ⟨definition, hfind, rfl⟩ := Option.map_eq_some_iff.1 htargets
    obtain ⟨hrefers, hcontains⟩ := EntitySet.mem_filter.1 hb
    exact ⟨⟨definition, hfind, hrefers⟩, hcontains⟩
  · rintro ⟨⟨definition, hfind, hrefers⟩, hcontains⟩
    exact ⟨_, by rw [hfind]; rfl, EntitySet.mem_filter.2 ⟨hrefers, hcontains⟩⟩

/-- There are as many edges as pairs of entities of which one refers to the other. -/
lemma encard_refers (s : Schema) :
    {p : Entity × Entity | s.Refers p.1 p.2}.encard = (ofSchema s).edges.length := by
  have hset : {p : Entity × Entity | s.Refers p.1 p.2} = (ofSchema s).edges.toFinset := by
    ext p
    simp [← mem_edges_ofSchema]
  rw [hset, Set.encard_coe_eq_coe_finsetCard, List.toFinset_card_of_nodup (nodup_edges _)]

end ReferenceGraph

namespace NumberedGraph

variable {n : NumberedGraph} {g : ReferenceGraph}

/-! ## Two descriptions of one graph -/

/-- The numbered graph has the nodes of the other one, with a number for each, and its edges. -/
structure Numbers (n : NumberedGraph) (g : ReferenceGraph) : Prop where
  entities : n.entities = g.nodes
  tabled : n.Tabled
  nodup : n.edges.Nodup
  mem_edges : ∀ i j, (i, j) ∈ n.edges ↔
    ∃ a b, n.entities[i]? = some a ∧ n.entities[j]? = some b ∧ (a, b) ∈ g.edges

lemma numbers_ofSchema (s : Schema) : (ofSchema s).Numbers (ReferenceGraph.ofSchema s) := by
  obtain ⟨htabled, hentities, hnodup, -, hedges⟩ := passes_ofSchema s
  refine ⟨hentities.trans (ReferenceGraph.nodes_ofSchema s).symm, htabled, hnodup, fun i j => ?_⟩
  simp only [hedges, EdgeOf, ReferenceGraph.mem_edges_ofSchema, ← htabled _ _]
  constructor
  · rintro ⟨d, hd, hi, target, htarget, hj⟩
    have hnode : target ∈ (ofSchema s).entities := htabled.isSome_iff.1 (by rw [hj]; rfl)
    rw [hentities] at hnode
    obtain ⟨d', hd', rfl⟩ := List.mem_map.1 hnode
    exact ⟨d.1, d'.1, hi, hj, ⟨d.2, Schema.mem_entities.1 hd, htarget⟩,
      Schema.contains_of_find? (Schema.mem_entities.1 hd')⟩
  · rintro ⟨a, b, hi, hj, ⟨definition, hfind, hb⟩, -⟩
    exact ⟨(a, definition), Schema.mem_entities.2 hfind, hi, b, hb, hj⟩

/-- Giving both ends of an edge their numbers leads to each edge between numbers once. -/
lemma Numbers.length_edges (h : n.Numbers g)
    (hends : ∀ a b, (a, b) ∈ g.edges → a ∈ g.nodes ∧ b ∈ g.nodes) :
    n.edges.length = g.edges.length := by
  let number (p : Entity × Entity) : Nat × Nat :=
    ((n.number? p.1).getD 0, (n.number? p.2).getD 0)
  have hnumber : ∀ a b, (a, b) ∈ g.edges →
      ∃ i j, n.number? a = some i ∧ n.number? b = some j ∧ number (a, b) = (i, j) := by
    intro a b hab
    obtain ⟨ha, hb⟩ := hends a b hab
    rw [← h.entities, ← h.tabled.isSome_iff, Option.isSome_iff_exists] at ha hb
    obtain ⟨i, hi⟩ := ha
    obtain ⟨j, hj⟩ := hb
    exact ⟨i, j, hi, hj, by simp [number, hi, hj]⟩
  have hinjective : ∀ p ∈ g.edges, ∀ q ∈ g.edges, number p = number q → p = q := by
    rintro ⟨a, b⟩ hp ⟨a', b'⟩ hq heq
    obtain ⟨i, j, hi, hj, hij⟩ := hnumber a b hp
    obtain ⟨i', j', hi', hj', hij'⟩ := hnumber a' b' hq
    obtain ⟨rfl, rfl⟩ := Prod.mk.inj (hij.symm.trans (heq.trans hij'))
    rw [h.tabled] at hi hj hi' hj'
    rw [Option.some.inj (hi.symm.trans hi'), Option.some.inj (hj.symm.trans hj')]
  have hperm : n.edges.Perm (g.edges.map number) := by
    refine (List.perm_ext_iff_of_nodup h.nodup (g.nodup_edges.map_on hinjective)).2 ?_
    rintro ⟨i, j⟩
    simp only [h.mem_edges, ← h.tabled _ _, List.mem_map, Prod.exists]
    refine exists₂_congr fun a b => ?_
    constructor
    · rintro ⟨hi, hj, hab⟩
      exact ⟨hab, by simp [number, hi, hj]⟩
    · rintro ⟨hab, hij⟩
      obtain ⟨i', j', hi', hj', hij'⟩ := hnumber a b hab
      obtain ⟨rfl, rfl⟩ := Prod.mk.inj (hij.symm.trans hij')
      exact ⟨hi', hj', hab⟩
  rw [hperm.length_eq, List.length_map]

end NumberedGraph

namespace ReferenceGraph

/-- The graph of a schema has each of its entities as a node, once, and an edge from one of them to
another, or to itself, exactly if the definition of the first refers to the second; no edge is there
twice, so there are as many nodes as entities and as many edges as such pairs.  If the nodes are
numbered in two passes, the table gives each entity the number of the node that carries it and no
number else, the edges are the same, and the second pass comes to no entity that has no number. -/
theorem numbering_exact (s : Schema) :
    ((ofSchema s).nodes.Nodup ∧ (∀ e, e ∈ (ofSchema s).nodes ↔ s.contains e = true) ∧
      (ofSchema s).nodes.length = s.size) ∧
    ((ofSchema s).edges.Nodup ∧
      (∀ a b, (a, b) ∈ (ofSchema s).edges ↔
        (∃ definition, s.find? a = some definition ∧ b ∈ definition.references) ∧
          s.contains b = true) ∧
      {p : Entity × Entity | s.Refers p.1 p.2}.encard = (ofSchema s).edges.length) ∧
    (NumberedGraph.ofSchema s).Numbers (ofSchema s) ∧
    (NumberedGraph.ofSchema s).entities.length = s.size ∧
    (NumberedGraph.ofSchema s).edges.length = (ofSchema s).edges.length ∧
    (NumberedGraph.ofSchema s).passedOver = [] := by
  have hnumbers := NumberedGraph.numbers_ofSchema s
  have hnodes : ∀ e, e ∈ (ofSchema s).nodes ↔ s.contains e = true := fun e => by
    rw [mem_nodes, hasNode_ofSchema]
  refine ⟨⟨nodup_nodes _, hnodes, length_nodes s⟩,
    ⟨nodup_edges _, fun a b => mem_edges_ofSchema, encard_refers s⟩, hnumbers, ?_, ?_,
    (NumberedGraph.passes_ofSchema s).2.2.2.1⟩
  · rw [hnumbers.entities, length_nodes]
  · refine hnumbers.length_edges fun a b hab => ?_
    have hrefers := mem_edges_ofSchema.1 hab
    exact ⟨(hnodes a).2 hrefers.contains_left, (hnodes b).2 hrefers.2⟩

end ReferenceGraph
end SchemaCut
