import SchemaCut.Closure

/-!
# Reference graphs

A `ReferenceGraph` is made from a schema once and then answers questions about the whole of it. Its
nodes are the entities of the schema, and an edge runs from an entity to each entity of the schema
that its definition refers to. References to what the schema does not have give no edge. Later
changes of the schema do not change the graph.

* `reachable` : what can be reached from a set along edges.
* `ancestors` : what reaches a set, found by following the edges of `reverse`.
* `cycleGroups` : the entities that reach themselves, in groups that reach one another.
-/

namespace SchemaCut

/-- The entities of a schema, each with the entities that it refers to. -/
structure ReferenceGraph where
  byKind : PerKind (NameMap EntitySet)
  deriving DecidableEq

namespace ReferenceGraph

/-- The graph of a schema. -/
def ofSchema (s : Schema) : ReferenceGraph :=
  ⟨s.byKind.map fun _ m => m.map fun definition => definition.references.filter s.contains⟩

/-- The targets of the edges that start at a node; `none` if there is no such node. -/
def targets? (g : ReferenceGraph) (e : Entity) : Option EntitySet :=
  (g.byKind.get e.kind).find? e.name

/-- Whether an entity is a node. -/
def hasNode (g : ReferenceGraph) (e : Entity) : Bool := (g.targets? e).isSome

/-- The nodes with the targets of their edges, in ascending order of nodes. -/
def adjacency (g : ReferenceGraph) : List (Entity × EntitySet) :=
  Kind.all.flatMap fun k => (g.byKind.get k).entries.map fun t => (⟨k, t.1⟩, t.2)

/-- The nodes, in ascending order. -/
def nodes (g : ReferenceGraph) : List Entity := g.adjacency.map Prod.fst

/-- The edges, as pairs of their ends. -/
def edges (g : ReferenceGraph) : List (Entity × Entity) :=
  g.adjacency.flatMap fun (e, targets) => targets.toList.map (e, ·)

theorem mem_adjacency {g : ReferenceGraph} {e : Entity} {ts : EntitySet} :
    (e, ts) ∈ g.adjacency ↔ g.targets? e = some ts := by
  obtain ⟨k, n⟩ := e
  simp [adjacency, targets?, NameMap.find?_eq_some_iff]

/-! ## Searching -/

/-- The number of nodes that are not visited yet. -/
def unvisited (g : ReferenceGraph) (visited : EntitySet) : Nat :=
  g.adjacency.countP fun t => t.1 ∉ visited

theorem unvisited_insert_lt {g : ReferenceGraph} {visited : EntitySet} {e : Entity}
    {ts : EntitySet} (ht : g.targets? e = some ts) (he : e ∉ visited) :
    g.unvisited (visited.insert e) < g.unvisited visited := by
  refine Schema.countP_lt_of_mem (mem_adjacency.2 ht) (by simpa using he) (by simp)
    fun x hx => ?_
  simp only [EntitySet.mem_insert, decide_eq_true_eq, not_or] at hx
  simpa using hx.2

/-- Visits what the stack leads to. -/
def search (g : ReferenceGraph) (visited : EntitySet) (stack : List Entity) : EntitySet :=
  match stack with
  | [] => visited
  | e :: rest =>
    if _he : e ∈ visited then search g visited rest
    else
      match _ht : g.targets? e with
      | none => search g visited rest
      | some targets =>
        let visited' := visited.insert e
        search g visited' (targets.toList.filter (· ∉ visited') ++ rest)
termination_by (g.unvisited visited, stack.length)
decreasing_by
  · exact Prod.Lex.right _ (by simp)
  · exact Prod.Lex.right _ (by simp)
  · exact Prod.Lex.left _ _ (unvisited_insert_lt _ht _he)

/-- The nodes of a set in the order of a stack: the last one is on top. -/
def starts (g : ReferenceGraph) (set : EntitySet) : List Entity :=
  (set.toList.filter g.hasNode).reverse

/-- Everything that can be reached from a set, its members included. Members that are no nodes are
left out. -/
def reachable (g : ReferenceGraph) (start : EntitySet) : EntitySet := g.search ∅ (g.starts start)

/-- Everything that can be reached from a node, itself included. -/
def closure? (g : ReferenceGraph) (e : Entity) : Option EntitySet :=
  if g.hasNode e then some (g.search ∅ [e]) else none

/-- The graph with every edge turned round. -/
def reverse (g : ReferenceGraph) : ReferenceGraph :=
  let sources (e : Entity) : EntitySet :=
    EntitySet.ofList ((g.adjacency.filter fun t => e ∈ t.2).map Prod.fst)
  ⟨g.byKind.map fun k m => m.mapNamed fun n _ => sources ⟨k, n⟩⟩

/-- Everything that reaches a member of a set, its members included. Members that are no nodes are
left out. -/
def ancestors (g : ReferenceGraph) (of : EntitySet) : EntitySet := g.reverse.reachable of

/-- A set together with everything that is reachable from what reaches one of its members. Members
that are no nodes stay in the set. -/
def fullParents (g : ReferenceGraph) (of : EntitySet) : EntitySet :=
  of.union (g.reachable (g.ancestors of))

/-! ## Cycles -/

/-- Whether a node can be reached from itself along one edge or more. -/
def onCycle (g : ReferenceGraph) (e : Entity) : Bool :=
  match g.targets? e with
  | some targets => e ∈ g.reachable targets
  | none => false

/-- The nodes that a node reaches and that reach it. -/
def group (g back : ReferenceGraph) (e : Entity) : EntitySet :=
  let sources := back.search ∅ [e]
  (g.search ∅ [e]).filter (· ∈ sources)

/-- The groups of the listed nodes that are on a cycle, each group at its first node. -/
def groupsFrom (g back : ReferenceGraph) (grouped : EntitySet) : List Entity → List (List Entity)
  | [] => []
  | e :: es =>
    if e ∈ grouped then groupsFrom g back grouped es
    else if g.onCycle e then
      let members := g.group back e
      members.toList :: groupsFrom g back (grouped.union members) es
    else groupsFrom g back grouped es

/-- The reference cycles: groups of entities that reach one another, and single entities that refer
to themselves. Members ascend, and so do the groups. -/
def cycleGroups (g : ReferenceGraph) : List (List Entity) :=
  g.groupsFrom g.reverse ∅ g.nodes

end ReferenceGraph

end SchemaCut
