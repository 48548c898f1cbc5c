import SchemaCut.Json.Basic
import SchemaCut.Reference

/-!
# The references of a definition

A definition refers to every entity that one of its strings is a token of: the value itself, an
element of an array or the value of a member, at any depth. Names of members are not looked at.

The search keeps the values still to be looked at in a list, so a definition of any depth can be
searched; it ends because every step takes a value out of the list and puts in its parts only.
-/

namespace SchemaCut.Json

mutual

/-- The number of values in a value, itself included. -/
def weight : Json → Nat
  | .arr items => weightItems items + 1
  | .obj members => weightMembers members + 1
  | _ => 1
termination_by structural v => v

/-- The number of values in a list of values. -/
def weightItems : List Json → Nat
  | [] => 0
  | v :: vs => weight v + weightItems vs
termination_by structural vs => vs

/-- The number of values in a list of members. -/
def weightMembers : List (String × Json) → Nat
  | [] => 0
  | (_, v) :: ms => weight v + weightMembers ms
termination_by structural ms => ms

end

@[simp] theorem weightItems_append (vs ws : List Json) :
    weightItems (vs ++ ws) = weightItems vs + weightItems ws := by
  induction vs with
  | nil => simp [weightItems]
  | cons v vs ih => simp [weightItems, ih]; omega

/-- The values of members. -/
def memberValues (ms : List (String × Json)) : List Json := ms.map Prod.snd

@[simp] theorem weightItems_memberValues (ms : List (String × Json)) :
    weightItems (memberValues ms) = weightMembers ms := by
  induction ms with
  | nil => rfl
  | cons m ms ih =>
    obtain ⟨n, v⟩ := m
    simpa [memberValues, weightItems, weightMembers] using ih

/-- Adds the entities that the strings in the pending values are tokens of. -/
def collectReferences (pending : List Json) (found : EntitySet) : EntitySet :=
  match pending with
  | [] => found
  | .str s :: rest =>
    match Reference.decode? s with
    | some e => collectReferences rest (found.insert e)
    | none => collectReferences rest found
  | .arr items :: rest => collectReferences (items ++ rest) found
  | .obj members :: rest => collectReferences (memberValues members ++ rest) found
  | .null :: rest | .bool _ :: rest | .num _ :: rest => collectReferences rest found
termination_by weightItems pending
decreasing_by all_goals simp [weightItems, weight]; try omega

/-- The entities that a value refers to. -/
def references (v : Json) : EntitySet := collectReferences [v] ∅

end SchemaCut.Json
