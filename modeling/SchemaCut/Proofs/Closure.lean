import Mathlib.Data.List.Chain
import SchemaCut.Closure
import SchemaCut.Proofs.Worklist

/-!
# What a walk visits

A definition may refer to anything; a reference counts when the schema has its target.  `Refers` is
this relation between entities of a schema, `Reaches` its reflexive and transitive closure on the
entities of the schema, and `Path` lists the entities on the way.

`walkStep` is one turn of the loop of `Schema.walkFrom`.  It may put an entity into the queue that
is there already, and an entity becomes visited only when its own turn comes, so the queue can grow
and hold repeats; `walkFrom_run` says that the turns end nevertheless, and that `Schema.walkFrom` is
what they end with.  Each of them is a `Worklist.Turn`, so what a walk visits is known from there.

* `mem_walk_iff` : a walk visits what its seeds reach.
* `closure_eq_ok_iff` : a closure exists for the entities of the schema and is the walk from there.
* `walk_closure_exact` : both together, with paths written out.
-/

namespace SchemaCut
namespace Schema

/-! ## References between entities of a schema -/

/-- The definition of `a` refers to `b`, and `b` is in the schema. -/
def Refers (s : Schema) (a b : Entity) : Prop :=
  (∃ definition, s.find? a = some definition ∧ b ∈ definition.references) ∧ s.contains b = true

/-- An entity of the schema reaches what references lead to from it, itself included. -/
def Reaches (s : Schema) (a b : Entity) : Prop :=
  s.contains a = true ∧ Relation.ReflTransGen s.Refers a b

variable {s : Schema}

lemma contains_of_find? {e : Entity} {definition : Json} (h : s.find? e = some definition) :
    s.contains e = true := by
  simp [contains, h]

lemma Refers.contains_left {a b : Entity} (h : s.Refers a b) : s.contains a = true := by
  obtain ⟨⟨definition, ha, -⟩, -⟩ := h
  exact contains_of_find? ha

lemma Reaches.refl {a : Entity} (h : s.contains a = true) : s.Reaches a a := ⟨h, .refl⟩

lemma Reaches.tail {a b c : Entity} (h : s.Reaches a b) (hbc : s.Refers b c) : s.Reaches a c :=
  ⟨h.1, h.2.tail hbc⟩

/-- A way from `a` whose steps, as long as it stays among the entities of `E`, keep to them and are
steps in `t` as well is a way in `t`. -/
lemma Reaches.transfer {t : Schema} {E : Entity → Prop}
    (step : ∀ x y, E x → s.Refers x y → E y ∧ t.Refers x y) {a b : Entity} (h : s.Reaches a b)
    (ha : E a) (hknown : t.contains a = true) : E b ∧ t.Reaches a b := by
  obtain ⟨-, hpath⟩ := h
  induction hpath with
  | refl => exact ⟨ha, .refl hknown⟩
  | tail _ hxy ih =>
    obtain ⟨hx, hreach⟩ := ih
    obtain ⟨hy, hxy'⟩ := step _ _ hx hxy
    exact ⟨hy, hreach.tail hxy'⟩

/-- A set that holds `a` and, with an entity, whatever it refers to holds all that `a` reaches. -/
lemma Reaches.mem_of_closed {E : Entity → Prop} (closed : ∀ x y, E x → s.Refers x y → E y)
    {a b : Entity} (h : s.Reaches a b) (ha : E a) : E b :=
  (h.transfer (fun x y hx hxy => ⟨closed x y hx hxy, hxy⟩) ha h.1).1

/-- The entities on a way from `a` to `b`, both ends included: entities of the schema, each of which
but the first is referred to by the definition of the one before it. -/
structure Path (s : Schema) (a b : Entity) (p : List Entity) : Prop where
  head : p.head? = some a
  last : p.getLast? = some b
  contained : ∀ e ∈ p, s.contains e = true
  linked : p.IsChain fun x y =>
    ∃ definition, s.find? x = some definition ∧ y ∈ definition.references

/-- A path may be prolonged at its start. -/
lemma Path.cons {a b c : Entity} {p : List Entity} (hab : s.Refers a b) (h : s.Path b c p) :
    s.Path a c (a :: p) where
  head := rfl
  last := by
    have hne : p ≠ [] := by
      rintro rfl
      simpa using h.head
    rw [List.getLast?_cons_of_ne_nil hne, h.last]
  contained := List.forall_mem_cons.2 ⟨hab.contains_left, h.contained⟩
  linked := List.isChain_cons.2 ⟨fun y hy => by
    rw [h.head] at hy
    cases hy
    exact hab.1, h.linked⟩

lemma exists_path_iff {a b : Entity} : (∃ p, s.Path a b p) ↔ s.Reaches a b := by
  constructor
  · rintro ⟨p, h⟩
    induction p generalizing a with
    | nil => exact absurd h.head (by simp)
    | cons x p ih =>
      obtain rfl : x = a := by simpa using h.head
      have hx : s.contains x = true := h.contained x List.mem_cons_self
      cases p with
      | nil =>
        obtain rfl : x = b := by simpa using h.last
        exact .refl hx
      | cons y p =>
        have hlinked := List.isChain_cons_cons.1 h.linked
        have hy : s.contains y = true := h.contained y (by simp)
        have hyb : s.Reaches y b :=
          ih ⟨rfl, by simpa using h.last, fun e he => h.contained e (List.mem_cons_of_mem x he),
            hlinked.2⟩
        exact ⟨hx, hyb.2.head ⟨hlinked.1, hy⟩⟩
  · rintro ⟨ha, hpath⟩
    induction hpath using Relation.ReflTransGen.head_induction_on with
    | refl => exact ⟨[b], rfl, rfl, by simpa using ha, List.isChain_singleton _⟩
    | head hab _ ih =>
      obtain ⟨p, hp⟩ := ih hab.2
      exact ⟨_, hp.cons hab⟩

/-! ## The loop of a walk -/

/-- The references of each definition, whether the schema has their targets or not. -/
def links (s : Schema) (e : Entity) : Option EntitySet := (s.find? e).map Json.references

lemma isSome_links (s : Schema) (e : Entity) : (s.links e).isSome = s.contains e := by
  simp [links, contains]

lemma edge_links_iff {a b : Entity} : Worklist.Edge s.links a b ↔ s.Refers a b := by
  rw [Worklist.Edge, isSome_links]
  simp [Refers, links]

lemma reaches_links_iff {a b : Entity} : Worklist.Reaches s.links a b ↔ s.Reaches a b := by
  have hedge : Worklist.Edge s.links = s.Refers := by
    funext a b
    exact propext edge_links_iff
  rw [Worklist.Reaches, Reaches, hedge, isSome_links]

lemma Reaches.contains_right {a b : Entity} (h : s.Reaches a b) : s.contains b = true := by
  rw [← isSome_links]
  exact (reaches_links_iff.2 h).known_right

/-- One turn of the loop of `walkFrom`; there is none when the queue is empty. -/
def walkStep (s : Schema) (w : Worklist) : Option Worklist :=
  match w.pending with
  | [] => none
  | e :: rest =>
    if e ∈ w.visited then some ⟨w.visited, rest⟩
    else
      match s.find? e with
      | none => some ⟨w.visited, rest⟩
      | some definition =>
        some ⟨w.visited.insert e, rest ++ definition.references.toList.filter (· ∉ w.visited)⟩

/-- One turn of a walk leads from the first state to the second. -/
def WalkTurn (s : Schema) (w w' : Worklist) : Prop := s.walkStep w = some w'

/-- What a turn takes from the queue and what it does with it. -/
lemma WalkTurn.cases {w w' : Worklist} (h : s.WalkTurn w w') :
    ∃ e rest, w.pending = e :: rest ∧
      ((e ∈ w.visited ∨ s.find? e = none) ∧ w' = ⟨w.visited, rest⟩ ∨
      ∃ definition, e ∉ w.visited ∧ s.find? e = some definition ∧
        w' = ⟨w.visited.insert e,
          rest ++ definition.references.toList.filter (· ∉ w.visited)⟩) := by
  obtain ⟨visited, pending⟩ := w
  cases pending with
  | nil => exact absurd h (by simp [WalkTurn, walkStep])
  | cons e rest =>
    refine ⟨e, rest, rfl, ?_⟩
    simp only [WalkTurn, walkStep] at h
    split at h
    · next hvisited => exact .inl ⟨.inl hvisited, (Option.some.inj h).symm⟩
    · next hvisited =>
      split at h
      · next hfind => exact .inl ⟨.inr hfind, (Option.some.inj h).symm⟩
      · next definition hfind =>
        exact .inr ⟨definition, hvisited, hfind, (Option.some.inj h).symm⟩

lemma WalkTurn.turn {w w' : Worklist} (h : s.WalkTurn w w') : Worklist.Turn s.links w w' := by
  obtain ⟨visited, pending⟩ := w
  obtain ⟨e, rest, rfl, ⟨hdrop, rfl⟩ | ⟨definition, -, hfind, rfl⟩⟩ := h.cases
  · exact .drop (hdrop.imp_right fun hfind => by simp [links, hfind])
  · have hlinks : s.links e = some definition.references := by simp [links, hfind]
    refine .visit hlinks (fun x hx => List.mem_append_left _ hx) (fun x hx => ?_) (fun x hx => ?_)
    · by_cases hvisited : x ∈ visited
      · exact .inl (EntitySet.mem_insert.2 (.inr hvisited))
      · exact .inr (List.mem_append_right _ (by simpa using ⟨hx, hvisited⟩))
    · rcases List.mem_append.1 hx with hx | hx
      · exact .inl hx
      · exact .inr (EntitySet.mem_toList.1 (List.mem_filter.1 hx).1)

/-- No walk goes on for ever: a turn leaves fewer entities of the schema unvisited, or as many of
them and a shorter queue. -/
lemma walkTurn_wellFounded (s : Schema) : WellFounded fun w' w => s.WalkTurn w w' := by
  let rank (w : Worklist) : ℕ × ℕ := (s.unvisited w.visited, w.pending.length)
  have hrank : WellFounded (InvImage (Prod.Lex (· < ·) (· < ·)) rank) :=
    InvImage.wf rank (Prod.lex Nat.lt_wfRel Nat.lt_wfRel).wf
  refine Subrelation.wf (fun {w' w} h => ?_) hrank
  obtain ⟨e, rest, hpending, ⟨-, rfl⟩ | ⟨definition, hvisited, hfind, rfl⟩⟩ := h.cases
  · exact .right _ (by simp [hpending])
  · exact .left _ _ (unvisited_insert_lt hfind hvisited)

/-- The turns of a walk end, and `walkFrom` is what is visited by then. -/
lemma walkFrom_run (s : Schema) (visited : EntitySet) (queue : List Entity) :
    Relation.ReflTransGen s.WalkTurn ⟨visited, queue⟩ ⟨s.walkFrom visited queue, []⟩ := by
  fun_induction walkFrom s visited queue with
  | case1 visited => exact .refl
  | case2 visited e rest hvisited ih => exact .head (by simp [WalkTurn, walkStep, hvisited]) ih
  | case3 visited e rest hvisited hfind ih =>
    exact .head (by simp [WalkTurn, walkStep, hvisited, hfind]) ih
  | case4 visited e rest hvisited definition hfind next ih =>
    exact .head (by simp [WalkTurn, walkStep, hvisited, hfind, next]) ih

lemma walk_run (s : Schema) (seeds : List Entity) :
    Relation.ReflTransGen s.WalkTurn ⟨∅, seeds⟩ ⟨s.walk seeds, []⟩ :=
  s.walkFrom_run ∅ seeds

theorem mem_walk_iff {seeds : List Entity} {e : Entity} :
    e ∈ s.walk seeds ↔ ∃ r ∈ seeds, s.Reaches r e := by
  have hrun : Relation.ReflTransGen (Worklist.Turn s.links) ⟨∅, seeds⟩ ⟨s.walk seeds, []⟩ :=
    Relation.ReflTransGen.mono (fun _ _ h => WalkTurn.turn h) _ _ (s.walk_run seeds)
  simp only [Worklist.mem_visited_of_run hrun, reaches_links_iff]

/-! ## Closures -/

lemma closure_of_contains {root : Entity} (h : s.contains root = true) :
    s.closure root = .ok (s.walk [root]) := by
  obtain ⟨definition, hfind⟩ := Option.isSome_iff_exists.1 h
  simp [closure, require, hfind, bind, Except.bind, pure, Except.pure]

lemma closure_of_not_contains {root : Entity} (h : s.contains root = false) :
    s.closure root = .error (.unknownEntity root (s.suggest root.kind root.name)) := by
  have hfind : s.find? root = none := by simpa [contains] using h
  simp [closure, require, hfind, bind, Except.bind]

lemma closure_eq_ok_iff {root : Entity} {c : EntitySet} :
    s.closure root = .ok c ↔ s.contains root = true ∧ s.walk [root] = c := by
  cases h : s.contains root with
  | false => simp [closure_of_not_contains h]
  | true => simp [closure_of_contains h]

lemma mem_closure_iff {root : Entity} {c : EntitySet} (h : s.closure root = .ok c) {e : Entity} :
    e ∈ c ↔ s.Reaches root e := by
  obtain ⟨-, rfl⟩ := closure_eq_ok_iff.1 h
  simp [mem_walk_iff]

/-- A walk ends from whatever seeds, and it visits exactly what a path leads to from a seed that is
in the schema.  The closure of an entity fails for want of that entity and for no other reason;
otherwise it is exactly what paths from the entity lead to. -/
theorem walk_closure_exact (s : Schema) :
    (WellFounded fun w' w => s.WalkTurn w w') ∧
    (∀ seeds : List Entity,
      Relation.ReflTransGen s.WalkTurn ⟨∅, seeds⟩ ⟨s.walk seeds, []⟩ ∧
      ∀ e, e ∈ s.walk seeds ↔ ∃ r ∈ seeds, ∃ p, s.Path r e p) ∧
    ∀ root : Entity,
      ((∃ hint, s.closure root = .error (.unknownEntity root hint)) ↔ s.contains root = false) ∧
      (s.contains root = true → ∃ c, s.closure root = .ok c ∧ root ∈ c ∧
        (∀ e, e ∈ c ↔ ∃ p, s.Path root e p) ∧ ∀ e ∈ c, s.contains e = true) := by
  refine ⟨s.walkTurn_wellFounded, fun seeds => ⟨s.walk_run seeds, fun e => ?_⟩,
    fun root => ⟨?_, ?_⟩⟩
  · simp only [mem_walk_iff, exists_path_iff]
  · constructor
    · rintro ⟨hint, h⟩
      by_contra hroot
      rw [closure_of_contains (by simpa using hroot)] at h
      cases h
    · intro h
      exact ⟨_, closure_of_not_contains h⟩
  · intro hroot
    have hc : s.closure root = .ok (s.walk [root]) := closure_of_contains hroot
    refine ⟨s.walk [root], hc, (mem_closure_iff hc).2 (.refl hroot), fun e => ?_, fun e he => ?_⟩
    · rw [mem_closure_iff hc, exists_path_iff]
    · exact ((mem_closure_iff hc).1 he).contains_right

end Schema
end SchemaCut
