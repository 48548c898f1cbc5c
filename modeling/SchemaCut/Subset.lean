import SchemaCut.Graph
import SchemaCut.Shortening

/-!
# Subsets

A request names a root entity. The subset for it is the part of the schema that the root needs: its
closure; with full parents, also every entity whose closure meets the closure of the root, with all
that it needs itself. The definitions are those of the schema, shortened if the request says so.

`Schema.subset` fails exactly when the root is not in the schema.
-/

namespace SchemaCut

/-- What a subset is asked for. -/
structure Request where
  root : Entity
  fullParents : Bool := false
  shorten : Option ShortenOptions := none
  deriving DecidableEq, Repr

namespace Schema

/-- A set with its full parents in the schema. -/
def fullParents (s : Schema) (of : EntitySet) : EntitySet :=
  (ReferenceGraph.ofSchema s).fullParents of

/-- The entities that a request selects. -/
def selection (s : Schema) (r : Request) : Except Failure EntitySet := do
  let needed ← s.closure r.root
  return if r.fullParents then s.fullParents needed else needed

/-- The subset that a request asks for. -/
def subset (s : Schema) (r : Request) : Except Failure Schema := do
  let part := s.restrict (← s.selection r)
  return match r.shorten with
    | some o => part.shorten o
    | none => part

/-- A subset is the part of the schema that the request selects, shortened if the request says
so. -/
theorem exists_selection_of_subset {s part : Schema} {r : Request} (h : s.subset r = .ok part) :
    ∃ selected, s.selection r = .ok selected ∧
      (r.shorten = none → s.restrict selected = part) ∧
      ∀ o, r.shorten = some o → (s.restrict selected).shorten o = part := by
  rw [subset] at h
  cases hselected : s.selection r with
  | error f =>
    rw [hselected] at h
    cases h
  | ok selected =>
    rw [hselected] at h
    have hpart := Except.ok.inj h
    refine ⟨selected, rfl, fun hnone => ?_, fun o hsome => ?_⟩
    · rwa [hnone] at hpart
    · rwa [hsome] at hpart

end Schema

end SchemaCut
