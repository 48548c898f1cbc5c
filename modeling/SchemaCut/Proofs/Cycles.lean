import Mathlib.Data.List.Nodup
import SchemaCut.Proofs.EntityOrder
import SchemaCut.Proofs.Graph

/-!
# Reference cycles

Two nodes are linked when each of them reaches the other.  On nodes this is an equivalence, and
`ReferenceGraph.group` gives the class of a node.  `ReferenceGraph.groupsFrom` goes through the
nodes upwards and makes a group at every node on a cycle that is in no group so far; such a node is
called a leader here.  `Leaders` says what the leaders of a stretch of nodes are, and it is kept by
the two kinds of turn: `Leaders.skip` passes a node over, `Leaders.lead` makes it a leader.

Because the nodes ascend, a leader is the least member of its group.  So the groups ascend as the
leaders do, and in whatever order somebody else finds the classes, sorting gives this one list.

* `onCycle_iff` : a node is on a cycle if it reaches itself along one edge or more.
* `exists_leaders` : the groups are the classes of the leaders.
* `cycleGroups_exact` : the groups of a schema are its reference cycles.
-/

namespace SchemaCut

lemma Worklist.Reaches.trans {links : Entity → Option EntitySet} {a b c : Entity}
    (hab : Reaches links a b) (hbc : Reaches links b c) : Reaches links a c :=
  ⟨hab.1, hab.2.trans hbc.2⟩

namespace ReferenceGraph

open Worklist (Edge Reaches)

variable {g : ReferenceGraph} {a b e : Entity}

/-! ## Classes of linked nodes -/

/-- Each of two nodes reaches the other. -/
def Linked (g : ReferenceGraph) (a b : Entity) : Prop :=
  Reaches g.targets? a b ∧ Reaches g.targets? b a

lemma Linked.refl (h : g.hasNode a = true) : g.Linked a a := ⟨.refl h, .refl h⟩

lemma Linked.symm (h : g.Linked a b) : g.Linked b a := ⟨h.2, h.1⟩

lemma Linked.trans {c : Entity} (hab : g.Linked a b) (hbc : g.Linked b c) : g.Linked a c :=
  ⟨hab.1.trans hbc.1, hbc.2.trans hab.2⟩

lemma mem_group_iff : b ∈ g.group g.reverse a ↔ g.Linked a b := by
  simp only [group, EntitySet.mem_filter, decide_eq_true_eq, mem_search_iff, List.mem_singleton,
    exists_eq_left, reaches_reverse_iff, Linked]

/-! ## Nodes on a cycle -/

/-- The entity reaches itself along one edge or more. -/
def Cyclic (g : ReferenceGraph) (e : Entity) : Prop := Relation.TransGen (Edge g.targets?) e e

theorem onCycle_iff : g.onCycle e = true ↔ g.Cyclic e := by
  rw [Cyclic, Relation.TransGen.head'_iff, onCycle]
  cases htargets : g.targets? e with
  | none => simp [Edge, htargets]
  | some targets =>
    simp only [decide_eq_true_eq, mem_reachable_iff]
    refine exists_congr fun x => ?_
    constructor
    · rintro ⟨hx, hknown, hpath⟩
      exact ⟨⟨⟨targets, htargets, hx⟩, hknown⟩, hpath⟩
    · rintro ⟨⟨⟨targets', htargets', hx⟩, hknown⟩, hpath⟩
      rw [htargets] at htargets'
      cases htargets'
      exact ⟨hx, hknown, hpath⟩

lemma Cyclic.hasNode (h : g.Cyclic e) : g.hasNode e = true := by
  obtain ⟨x, ⟨⟨targets, htargets, -⟩, -⟩, -⟩ := Relation.TransGen.head'_iff.1 h
  simp [ReferenceGraph.hasNode, htargets]

lemma Cyclic.of_linked (ha : g.Cyclic a) (h : g.Linked a b) : g.Cyclic b :=
  (ha.trans_left h.1.2).trans_right h.2.2

/-- Two different nodes that are linked lie on a cycle. -/
lemma Linked.cyclic (h : g.Linked a b) (hne : a ≠ b) : g.Cyclic a := by
  have hab : Relation.TransGen (Edge g.targets?) a b :=
    (Relation.reflTransGen_iff_eq_or_transGen.1 h.1.2).resolve_left hne.symm
  exact hab.trans_left h.2.2

/-! ## Leaders -/

/-- The leaders of a stretch of nodes, where some entities are in groups already. -/
structure Leaders (g : ReferenceGraph) (grouped : EntitySet) (nodes leaders : List Entity) :
    Prop where
  among : leaders.Sublist nodes
  new : ∀ l ∈ leaders, l ∉ grouped
  cyclic : ∀ l ∈ leaders, g.Cyclic l
  apart : leaders.Pairwise fun l m => ¬ g.Linked l m
  met : ∀ e ∈ nodes, g.Cyclic e → e ∈ grouped ∨ ∃ l ∈ leaders, g.Linked l e ∧ ¬ e < l

variable {grouped : EntitySet} {nodes leaders : List Entity}

lemma Leaders.nil : g.Leaders grouped [] [] where
  among := .slnil
  new _ h := absurd h List.not_mem_nil
  cyclic _ h := absurd h List.not_mem_nil
  apart := .nil
  met _ h := absurd h List.not_mem_nil

/-- A node that is in a group or on no cycle leads no group. -/
lemma Leaders.skip (h : g.Leaders grouped nodes leaders) (he : g.Cyclic e → e ∈ grouped) :
    g.Leaders grouped (e :: nodes) leaders where
  among := h.among.cons e
  new := h.new
  cyclic := h.cyclic
  apart := h.apart
  met x hx hcyclic := by
    rcases List.mem_cons.1 hx with rfl | hx
    · exact .inl (he hcyclic)
    · exact h.met x hx hcyclic

/-- A node on a cycle that is in no group leads its own; the nodes behind it that are linked to it
are in a group from then on. -/
lemma Leaders.lead (hnew : e ∉ grouped) (hcyclic : g.Cyclic e) (hbehind : ∀ x ∈ nodes, e < x)
    (h : g.Leaders (grouped.union (g.group g.reverse e)) nodes leaders) :
    g.Leaders grouped (e :: nodes) (e :: leaders) := by
  have hfree : ∀ l ∈ leaders, l ∉ grouped ∧ ¬ g.Linked e l := by
    intro l hl
    have := h.new l hl
    rwa [EntitySet.mem_union, not_or, mem_group_iff] at this
  refine ⟨h.among.cons_cons e, ?_, ?_, ?_, ?_⟩
  · exact List.forall_mem_cons.2 ⟨hnew, fun l hl => (hfree l hl).1⟩
  · exact List.forall_mem_cons.2 ⟨hcyclic, h.cyclic⟩
  · exact List.pairwise_cons.2 ⟨fun l hl => (hfree l hl).2, h.apart⟩
  · intro x hx hxcyclic
    rcases List.mem_cons.1 hx with rfl | hx
    · exact .inr ⟨x, List.mem_cons_self, .refl hcyclic.hasNode, Entity.lt_irrefl x⟩
    rcases h.met x hx hxcyclic with hgrouped | ⟨l, hl, hlx⟩
    · rcases EntitySet.mem_union.1 hgrouped with hgrouped | hgroup
      · exact .inl hgrouped
      · exact .inr ⟨e, List.mem_cons_self, mem_group_iff.1 hgroup,
          Entity.lt_asymm (hbehind x hx)⟩
    · exact .inr ⟨l, List.mem_cons_of_mem e hl, hlx⟩

lemma exists_leaders_groupsFrom (grouped : EntitySet) (hascending : nodes.Pairwise (· < ·)) :
    ∃ leaders, g.Leaders grouped nodes leaders ∧
      g.groupsFrom g.reverse grouped nodes =
        leaders.map fun l => (g.group g.reverse l).toList := by
  induction nodes generalizing grouped with
  | nil => exact ⟨[], .nil, rfl⟩
  | cons e nodes ih =>
    obtain ⟨hbehind, hascending⟩ := List.pairwise_cons.1 hascending
    rw [groupsFrom]
    split
    · next hgrouped =>
      obtain ⟨leaders, hleaders, heq⟩ := ih grouped hascending
      exact ⟨leaders, hleaders.skip fun _ => hgrouped, heq⟩
    · next hnew =>
      split
      · next hcycle =>
        obtain ⟨leaders, hleaders, heq⟩ := ih (grouped.union (g.group g.reverse e)) hascending
        exact ⟨e :: leaders, .lead hnew (onCycle_iff.1 hcycle) hbehind hleaders, by
          simp only [heq, List.map_cons]⟩
      · next hcycle =>
        obtain ⟨leaders, hleaders, heq⟩ := ih grouped hascending
        exact ⟨leaders, hleaders.skip fun hcyclic => absurd (onCycle_iff.2 hcyclic) hcycle, heq⟩

/-- The groups are the classes of the leaders among all nodes. -/
theorem exists_leaders (g : ReferenceGraph) :
    ∃ leaders, g.Leaders ∅ g.nodes leaders ∧
      g.cycleGroups = leaders.map fun l => (g.group g.reverse l).toList :=
  exists_leaders_groupsFrom ∅ g.pairwise_nodes

/-- Two leaders that are linked are one. -/
lemma Leaders.eq_of_linked (h : g.Leaders grouped nodes leaders) {l m : Entity} (hl : l ∈ leaders)
    (hm : m ∈ leaders) (hlm : g.Linked l m) : l = m := by
  by_contra hne
  have hsymm : Std.Symm fun l m => ¬ g.Linked l m := ⟨fun _ _ hnot hml => hnot hml.symm⟩
  exact h.apart.forall hl hm hne hlm

/-- Every node on a cycle has a leader. -/
lemma Leaders.exists_of_cyclic (h : g.Leaders ∅ g.nodes leaders) (he : g.Cyclic e) :
    ∃ l ∈ leaders, g.Linked l e ∧ ¬ e < l :=
  (h.met e (mem_nodes.2 he.hasNode) he).resolve_left (EntitySet.not_mem_empty e)

/-- Nothing in the group of a leader comes before the leader. -/
lemma Leaders.not_lt (h : g.Leaders ∅ g.nodes leaders) {l : Entity} (hl : l ∈ leaders)
    (hle : g.Linked l e) : ¬ e < l := by
  obtain ⟨m, hm, hme, hnot⟩ := h.exists_of_cyclic ((h.cyclic l hl).of_linked hle)
  obtain rfl : l = m := h.eq_of_linked hl hm (hle.trans hme.symm)
  exact hnot

/-- A group lists its leader first. -/
lemma Leaders.exists_toList_eq (h : g.Leaders ∅ g.nodes leaders) {l : Entity} (hl : l ∈ leaders) :
    ∃ others, (g.group g.reverse l).toList = l :: others := by
  have hmem : l ∈ (g.group g.reverse l).toList :=
    EntitySet.mem_toList.2 (mem_group_iff.2 (.refl (h.cyclic l hl).hasNode))
  have hascending := (g.group g.reverse l).pairwise_toList
  have hleast : ∀ x ∈ (g.group g.reverse l).toList, ¬ x < l := by
    intro x hx
    exact h.not_lt hl (mem_group_iff.1 (EntitySet.mem_toList.1 hx))
  cases hlist : (g.group g.reverse l).toList with
  | nil => simp [hlist] at hmem
  | cons x others =>
    rw [hlist] at hmem hascending hleast
    rcases List.mem_cons.1 hmem with rfl | hl'
    · exact ⟨others, rfl⟩
    · have hxl : x < l := (List.pairwise_cons.1 hascending).1 l hl'
      exact absurd hxl (hleast x List.mem_cons_self)

/-! ## The groups -/

lemma exists_leader_of_mem {m : List Entity} (hm : m ∈ g.cycleGroups) :
    ∃ l, g.Cyclic l ∧ m = (g.group g.reverse l).toList := by
  obtain ⟨leaders, hleaders, heq⟩ := g.exists_leaders
  rw [heq] at hm
  obtain ⟨l, hl, rfl⟩ := List.mem_map.1 hm
  exact ⟨l, hleaders.cyclic l hl, rfl⟩

lemma linked_of_mem {m : List Entity} (hm : m ∈ g.cycleGroups) (ha : a ∈ m) (hb : b ∈ m) :
    g.Linked a b := by
  obtain ⟨l, -, rfl⟩ := exists_leader_of_mem hm
  rw [EntitySet.mem_toList, mem_group_iff] at ha hb
  exact ha.symm.trans hb

lemma cyclic_of_mem {m : List Entity} (hm : m ∈ g.cycleGroups) (ha : a ∈ m) : g.Cyclic a := by
  obtain ⟨l, hl, rfl⟩ := exists_leader_of_mem hm
  rw [EntitySet.mem_toList, mem_group_iff] at ha
  exact hl.of_linked ha

/-- A node on a cycle is in a group together with all nodes that it is linked to. -/
lemma exists_group_of_cyclic (ha : g.Cyclic a) :
    ∃ m ∈ g.cycleGroups, ∀ b, g.Linked a b → b ∈ m := by
  obtain ⟨leaders, hleaders, heq⟩ := g.exists_leaders
  obtain ⟨l, hl, hla, -⟩ := hleaders.exists_of_cyclic ha
  refine ⟨(g.group g.reverse l).toList, ?_, fun b hab => ?_⟩
  · rw [heq]
    exact List.mem_map.2 ⟨l, hl, rfl⟩
  · exact EntitySet.mem_toList.2 (mem_group_iff.2 (hla.trans hab))

theorem exists_group_iff : (∃ m ∈ g.cycleGroups, a ∈ m) ↔ g.Cyclic a := by
  constructor
  · rintro ⟨m, hm, ha⟩
    exact cyclic_of_mem hm ha
  · intro ha
    obtain ⟨m, hm, hall⟩ := exists_group_of_cyclic ha
    exact ⟨m, hm, hall a (.refl ha.hasNode)⟩

theorem exists_common_group_iff (hne : a ≠ b) :
    (∃ m ∈ g.cycleGroups, a ∈ m ∧ b ∈ m) ↔ g.Linked a b := by
  constructor
  · rintro ⟨m, hm, ha, hb⟩
    exact linked_of_mem hm ha hb
  · intro hab
    have ha : g.Cyclic a := hab.cyclic hne
    obtain ⟨m, hm, hall⟩ := exists_group_of_cyclic ha
    exact ⟨m, hm, hall a (.refl ha.hasNode), hall b hab⟩

theorem pairwise_of_mem_cycleGroups {m : List Entity} (hm : m ∈ g.cycleGroups) :
    m.Pairwise (· < ·) := by
  obtain ⟨l, -, rfl⟩ := exists_leader_of_mem hm
  exact EntitySet.pairwise_toList _

/-- Groups ascend because their first members do, and these are the leaders. -/
theorem pairwise_cycleGroups (g : ReferenceGraph) : g.cycleGroups.Pairwise (· < ·) := by
  obtain ⟨leaders, hleaders, heq⟩ := g.exists_leaders
  rw [heq, List.pairwise_map]
  have hascending : leaders.Pairwise (· < ·) := g.pairwise_nodes.sublist hleaders.among
  refine hascending.imp_of_mem fun {l m} hl hm hlm => ?_
  obtain ⟨others, hl⟩ := hleaders.exists_toList_eq hl
  obtain ⟨others', hm⟩ := hleaders.exists_toList_eq hm
  rw [hl, hm]
  exact List.Lex.rel hlm

/-- No entity is in two groups or twice in one. -/
theorem nodup_flatten_cycleGroups (g : ReferenceGraph) : g.cycleGroups.flatten.Nodup := by
  obtain ⟨leaders, hleaders, heq⟩ := g.exists_leaders
  rw [List.nodup_flatten]
  refine ⟨fun m hm => ?_, ?_⟩
  · refine (pairwise_of_mem_cycleGroups hm).imp ?_
    rintro a b hab rfl
    exact Entity.lt_irrefl a hab
  · rw [heq, List.pairwise_map]
    refine hleaders.apart.imp fun {l m} hlm x hl hm => ?_
    rw [EntitySet.mem_toList, mem_group_iff] at hl hm
    exact hlm (hl.trans hm.symm)

/-! ## The cycles of a schema -/

variable {s : Schema}

lemma cyclic_ofSchema_iff : (ofSchema s).Cyclic e ↔ Relation.TransGen s.Refers e e := by
  have hedge : Edge (ofSchema s).targets? = s.Refers := by
    funext x y
    exact propext edge_ofSchema_iff
  rw [Cyclic, hedge]

lemma exists_mem_closure?_iff :
    (∃ c, g.closure? a = some c ∧ b ∈ c) ↔ Reaches g.targets? a b := by
  simp only [closure?_eq_some_iff, and_assoc, exists_and_left, exists_eq_left', mem_search_iff,
    List.mem_singleton, exists_eq_left]
  exact and_iff_right_of_imp And.left

lemma Linked.closure?_eq (h : g.Linked a b) : g.closure? a = g.closure? b := by
  have ha : g.hasNode a = true := h.1.1
  have hb : g.hasNode b = true := h.2.1
  simp only [closure?, ha, hb, if_true, Option.some.injEq]
  refine EntitySet.ext_mem fun x => ?_
  simp only [mem_search_iff, List.mem_singleton, exists_eq_left]
  exact ⟨h.2.trans, h.1.trans⟩

lemma Linked.ancestors_eq (h : g.Linked a b) :
    g.ancestors (.single a) = g.ancestors (.single b) := by
  refine EntitySet.ext_mem fun x => ?_
  simp only [mem_ancestors_iff, EntitySet.mem_single, exists_eq_left]
  exact ⟨fun hx => hx.trans h.1, fun hx => hx.trans h.2⟩

/-- An entity is in a group exactly if references lead from it back to itself, one of them at least;
then it is in one group, and there once.  Two entities share a group exactly if each of them is in
the closure of the other, so the members of a group have one closure and the same ancestors.  The
members of a group ascend, and so do the groups; there is none exactly if references run in no
circle. -/
theorem cycleGroups_exact (s : Schema) :
    let g := ofSchema s
    (∀ e, (∃ m ∈ g.cycleGroups, e ∈ m) ↔ Relation.TransGen s.Refers e e) ∧
    (∀ e, Relation.TransGen s.Refers e e → g.cycleGroups.flatten.count e = 1) ∧
    (∀ a b, a ≠ b → ((∃ m ∈ g.cycleGroups, a ∈ m ∧ b ∈ m) ↔
      (∃ c, g.closure? a = some c ∧ b ∈ c) ∧ ∃ c, g.closure? b = some c ∧ a ∈ c)) ∧
    (∀ m ∈ g.cycleGroups, ∀ a ∈ m, ∀ b ∈ m,
      g.closure? a = g.closure? b ∧ g.ancestors (.single a) = g.ancestors (.single b)) ∧
    (∀ m ∈ g.cycleGroups, m.Pairwise (· < ·)) ∧
    g.cycleGroups.Pairwise (· < ·) ∧
    (g.cycleGroups = [] ↔ ∀ e, ¬ Relation.TransGen s.Refers e e) := by
  intro g
  have hcyclic : ∀ e, (∃ m ∈ g.cycleGroups, e ∈ m) ↔ Relation.TransGen s.Refers e e :=
    fun e => exists_group_iff.trans cyclic_ofSchema_iff
  refine ⟨hcyclic, fun e he => ?_, fun a b hne => ?_, fun m hm a ha b hb => ?_,
    fun m => pairwise_of_mem_cycleGroups, g.pairwise_cycleGroups, ?_⟩
  · obtain ⟨m, hm, hem⟩ := (hcyclic e).2 he
    exact List.count_eq_one_of_mem g.nodup_flatten_cycleGroups (List.mem_flatten.2 ⟨m, hm, hem⟩)
  · rw [exists_common_group_iff hne, exists_mem_closure?_iff, exists_mem_closure?_iff, Linked]
  · have hab : g.Linked a b := linked_of_mem hm ha hb
    exact ⟨hab.closure?_eq, hab.ancestors_eq⟩
  · constructor
    · intro hnone e he
      obtain ⟨m, hm, -⟩ := (hcyclic e).2 he
      rw [hnone] at hm
      exact absurd hm List.not_mem_nil
    · intro hnot
      refine List.eq_nil_iff_forall_not_mem.2 fun m hm => ?_
      obtain ⟨l, hl, -⟩ := exists_leader_of_mem hm
      exact hnot l (cyclic_ofSchema_iff.1 hl)

-- `r` reaches a cycle and lies on none; `x` refers to nothing but itself.
example :
    let s : Schema := ((((∅ : Schema).insert ⟨.type, "x"⟩ (.str "#/types/x")).insert ⟨.type, "b"⟩
      (.str "#/types/a")).insert ⟨.type, "a"⟩ (.str "#/types/b")).insert ⟨.resource, "r"⟩
      (.str "#/types/b")
    (ofSchema s).cycleGroups = [[⟨.type, "a"⟩, ⟨.type, "b"⟩], [⟨.type, "x"⟩]] := by
  cbv

end ReferenceGraph
end SchemaCut
