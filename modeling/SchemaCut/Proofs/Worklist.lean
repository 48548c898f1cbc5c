import Mathlib.Logic.Relation
import Mathlib.Tactic.Lemma
import SchemaCut.EntitySet

/-!
# Searching from pending entities

Two searches of this library visit entities.  `Schema.walk` takes the next entity from the front
of a queue and looks up what its definition refers to; `ReferenceGraph.search` takes it from the
top of a stack and follows edges that were resolved before.  What such a search visits does not
depend on the order in which entities are taken, so it is settled here once, for any table `links`
that gives the targets of every entity that it knows.

A `Worklist` is a search between two turns: the entities visited so far and those that are pending.
`Turn` says what a turn may do.  An entity that is visited already or unknown is dropped.  Any
other is visited, and its targets join the pending entities; only targets that are visited by then
may be left out.

The invariant is `Exploring`: nothing but reachable entities is visited or pending, and whatever is
one edge away from a visited entity is visited or pending itself.

* `Turn.exploring` : a turn keeps the invariant.
* `mem_visited_of_run` : a search that runs until nothing is pending has visited exactly what can
  be reached from its seeds.
-/

namespace SchemaCut

/-- A search between two turns. -/
structure Worklist where
  visited : EntitySet
  pending : List Entity

namespace Worklist

/-! ## Edges -/

/-- An edge runs from an entity to each of its targets that is known itself. -/
def Edge (links : Entity → Option EntitySet) (a b : Entity) : Prop :=
  (∃ targets, links a = some targets ∧ b ∈ targets) ∧ (links b).isSome = true

/-- A known entity reaches what lies at the end of some edges from it, itself included. -/
def Reaches (links : Entity → Option EntitySet) (a b : Entity) : Prop :=
  (links a).isSome = true ∧ Relation.ReflTransGen (Edge links) a b

variable {links : Entity → Option EntitySet}

lemma Reaches.refl {a : Entity} (h : (links a).isSome = true) : Reaches links a a :=
  ⟨h, .refl⟩

lemma Reaches.tail {a b c : Entity} (h : Reaches links a b) (hbc : Edge links b c) :
    Reaches links a c :=
  ⟨h.1, h.2.tail hbc⟩

lemma Reaches.known_right {a b : Entity} (h : Reaches links a b) : (links b).isSome = true := by
  obtain ⟨ha, hpath⟩ := h
  cases hpath with
  | refl => exact ha
  | tail _ hb => exact hb.2

/-- In a table with the same entities and every edge turned round, the ways run the other way. -/
lemma Reaches.turned {back : Entity → Option EntitySet}
    (hknown : ∀ x, (links x).isSome = true → (back x).isSome = true)
    (hedge : ∀ x y, Edge links x y → Edge back y x) {a b : Entity} (h : Reaches links a b) :
    Reaches back b a := by
  refine ⟨hknown b h.known_right, ?_⟩
  obtain ⟨-, hpath⟩ := h
  induction hpath with
  | refl => exact .refl
  | tail _ hxy ih => exact ih.head (hedge _ _ hxy)

/-! ## Turns -/

/-- What one turn of a search may do. -/
inductive Turn (links : Entity → Option EntitySet) : Worklist → Worklist → Prop
  | drop {visited : EntitySet} {e : Entity} {rest : List Entity}
      (h : e ∈ visited ∨ links e = none) : Turn links ⟨visited, e :: rest⟩ ⟨visited, rest⟩
  | visit {visited targets : EntitySet} {e : Entity} {rest next : List Entity}
      (known : links e = some targets)
      (kept : ∀ x ∈ rest, x ∈ next)
      (joined : ∀ x ∈ targets, x ∈ visited.insert e ∨ x ∈ next)
      (only : ∀ x ∈ next, x ∈ rest ∨ x ∈ targets) :
      Turn links ⟨visited, e :: rest⟩ ⟨visited.insert e, next⟩

/-- The search from `seeds` has gone nowhere but along edges, and it has left nothing behind: every
known seed and every entity one edge away from a visited one is visited or pending. -/
structure Exploring (links : Entity → Option EntitySet) (seeds : List Entity) (w : Worklist) :
    Prop where
  visited_reached : ∀ x ∈ w.visited, ∃ r ∈ seeds, Reaches links r x
  pending_reached : ∀ x ∈ w.pending, (links x).isSome = true → ∃ r ∈ seeds, Reaches links r x
  seeds_met : ∀ r ∈ seeds, (links r).isSome = true → r ∈ w.visited ∨ r ∈ w.pending
  targets_met : ∀ a ∈ w.visited, ∀ b, Edge links a b → b ∈ w.visited ∨ b ∈ w.pending

lemma exploring_start (links : Entity → Option EntitySet) (seeds : List Entity) :
    Exploring links seeds ⟨∅, seeds⟩ where
  visited_reached x hx := absurd hx (EntitySet.not_mem_empty x)
  pending_reached x hx hknown := ⟨x, hx, .refl hknown⟩
  seeds_met _ hr _ := .inr hr
  targets_met a ha := absurd ha (EntitySet.not_mem_empty a)

/-- Dropping an entity loses nothing: it is visited, or it is unknown and no edge leads to it. -/
lemma Exploring.drop {seeds rest : List Entity} {visited : EntitySet} {e : Entity}
    (h : Exploring links seeds ⟨visited, e :: rest⟩) (he : e ∈ visited ∨ links e = none) :
    Exploring links seeds ⟨visited, rest⟩ := by
  have still : ∀ x, (links x).isSome = true → x ∈ visited ∨ x ∈ e :: rest →
      x ∈ visited ∨ x ∈ rest := by
    rintro x hknown (hx | hx)
    · exact .inl hx
    rcases List.mem_cons.1 hx with rfl | hx
    · refine he.imp_right fun hnone => ?_
      rw [hnone] at hknown
      exact absurd hknown (by simp)
    · exact .inr hx
  exact
    { visited_reached := h.visited_reached
      pending_reached := fun x hx => h.pending_reached x (List.mem_cons_of_mem e hx)
      seeds_met := fun r hr hknown => still r hknown (h.seeds_met r hr hknown)
      targets_met := fun a ha b hab => still b hab.2 (h.targets_met a ha b hab) }

/-- Visiting an entity closes it: all its targets are visited or pending afterwards. -/
lemma Exploring.visit {seeds rest next : List Entity} {visited targets : EntitySet} {e : Entity}
    (h : Exploring links seeds ⟨visited, e :: rest⟩) (known : links e = some targets)
    (kept : ∀ x ∈ rest, x ∈ next) (joined : ∀ x ∈ targets, x ∈ visited.insert e ∨ x ∈ next)
    (only : ∀ x ∈ next, x ∈ rest ∨ x ∈ targets) :
    Exploring links seeds ⟨visited.insert e, next⟩ := by
  have hknown : (links e).isSome = true := by simp [known]
  obtain ⟨r, hr, hre⟩ := h.pending_reached e List.mem_cons_self hknown
  have still : ∀ x, x ∈ visited ∨ x ∈ e :: rest → x ∈ visited.insert e ∨ x ∈ next := by
    rintro x (hx | hx)
    · exact .inl (EntitySet.mem_insert.2 (.inr hx))
    rcases List.mem_cons.1 hx with rfl | hx
    · exact .inl (EntitySet.mem_insert.2 (.inl rfl))
    · exact .inr (kept x hx)
  refine ⟨fun x hx => ?_, fun x hx hxknown => ?_, fun r hr hrknown => ?_, fun a ha b hab => ?_⟩
  · rcases EntitySet.mem_insert.1 hx with rfl | hx
    · exact ⟨r, hr, hre⟩
    · exact h.visited_reached x hx
  · rcases only x hx with hx | hx
    · exact h.pending_reached x (List.mem_cons_of_mem e hx) hxknown
    · exact ⟨r, hr, hre.tail ⟨⟨targets, known, hx⟩, hxknown⟩⟩
  · exact still r (h.seeds_met r hr hrknown)
  · rcases EntitySet.mem_insert.1 ha with rfl | ha
    · obtain ⟨⟨ts, hts, hb⟩, -⟩ := hab
      rw [known] at hts
      cases hts
      exact joined b hb
    · exact still b (h.targets_met a ha b hab)

lemma Turn.exploring {seeds : List Entity} {w w' : Worklist} (ht : Turn links w w')
    (h : Exploring links seeds w) : Exploring links seeds w' := by
  cases ht with
  | drop he => exact h.drop he
  | visit known kept joined only => exact h.visit known kept joined only

/-! ## Runs -/

lemma Exploring.run {seeds : List Entity} {w w' : Worklist}
    (hrun : Relation.ReflTransGen (Turn links) w w') (h : Exploring links seeds w) :
    Exploring links seeds w' := by
  induction hrun with
  | refl => exact h
  | tail _ ht ih => exact ht.exploring ih

/-- With nothing pending the visited entities are closed under edges, so a path from a seed cannot
leave them. -/
lemma Exploring.mem_visited_of_reaches {seeds : List Entity} {visited : EntitySet}
    (h : Exploring links seeds ⟨visited, []⟩) {r x : Entity} (hr : r ∈ seeds)
    (hrx : Reaches links r x) : x ∈ visited := by
  obtain ⟨hknown, hpath⟩ := hrx
  induction hpath with
  | refl => exact (h.seeds_met r hr hknown).resolve_right List.not_mem_nil
  | tail _ hbc ih => exact (h.targets_met _ ih _ hbc).resolve_right List.not_mem_nil

/-- A search that has run until nothing is pending has visited what its seeds reach, and nothing
else. -/
theorem mem_visited_of_run {seeds : List Entity} {visited : EntitySet}
    (hrun : Relation.ReflTransGen (Turn links) ⟨∅, seeds⟩ ⟨visited, []⟩) {x : Entity} :
    x ∈ visited ↔ ∃ r ∈ seeds, Reaches links r x := by
  have h : Exploring links seeds ⟨visited, []⟩ := (exploring_start links seeds).run hrun
  constructor
  · exact h.visited_reached x
  · rintro ⟨r, hr, hrx⟩
    exact h.mem_visited_of_reaches hr hrx

end Worklist

end SchemaCut
