import SchemaCut.References
import SchemaCut.Schema

/-!
# Closures

The closure of an entity holds everything that can be reached from it along references. `walk` goes
through the schema from a queue of entities, looks each of them up, and puts what its definition
refers to at the end of the queue. What the schema does not have is left out, so the walk stays in
the schema, and it ends although references may run in circles: either an entity of the schema
becomes visited, or the queue gets shorter.
-/

namespace SchemaCut.Schema

/-- The number of entities of the schema that are not visited yet. -/
def unvisited (s : Schema) (visited : EntitySet) : Nat :=
  s.entities.countP fun d => d.1 ∉ visited

theorem countP_lt_of_mem {α : Type} {p q : α → Bool} {a : α} {xs : List α} (ha : a ∈ xs)
    (hp : p a = true) (hq : q a = false) (h : ∀ x, q x = true → p x = true) :
    xs.countP q < xs.countP p := by
  induction xs with
  | nil => simp at ha
  | cons x xs ih =>
    have hle : xs.countP q ≤ xs.countP p := List.countP_mono_left fun y _ => h y
    rcases List.mem_cons.1 ha with rfl | ha
    · simp [hp, hq]; omega
    · have hlt := ih ha
      have hx := h x
      simp only [List.countP_cons]
      by_cases hqx : q x = true
      · simp [hqx, hx hqx]; omega
      · simp [hqx]; omega

theorem unvisited_insert_lt {s : Schema} {visited : EntitySet} {e : Entity} {d : Json}
    (hd : s.find? e = some d) (he : e ∉ visited) :
    s.unvisited (visited.insert e) < s.unvisited visited := by
  refine countP_lt_of_mem (mem_entities.2 hd) (by simpa using he) (by simp) fun x hx => ?_
  simp only [EntitySet.mem_insert, decide_eq_true_eq, not_or] at hx
  simpa using hx.2

/-- Visits what the queue leads to. -/
def walkFrom (s : Schema) (visited : EntitySet) (queue : List Entity) : EntitySet :=
  match queue with
  | [] => visited
  | e :: rest =>
    if _he : e ∈ visited then walkFrom s visited rest
    else
      match _hd : s.find? e with
      | none => walkFrom s visited rest
      | some definition =>
        let next := definition.references.toList.filter (· ∉ visited)
        walkFrom s (visited.insert e) (rest ++ next)
termination_by (s.unvisited visited, queue.length)
decreasing_by
  · exact Prod.Lex.right _ (by simp)
  · exact Prod.Lex.right _ (by simp)
  · exact Prod.Lex.left _ _ (unvisited_insert_lt _hd _he)

/-- Everything that can be reached from the given entities, the given ones included. What the
schema does not have is left out. -/
def walk (s : Schema) (seeds : List Entity) : EntitySet := s.walkFrom ∅ seeds

/-- Everything that can be reached from an entity of the schema, itself included. -/
def closure (s : Schema) (root : Entity) : Except Failure EntitySet := do
  let _ ← s.require root
  return s.walk [root]

end SchemaCut.Schema
