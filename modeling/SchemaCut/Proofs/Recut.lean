import Mathlib
import SchemaCut.Proofs.Locality

/-!
# Cutting a cut again

A subset is a schema, so it can be cut again by the request that it was made for.  The second run
builds its graph from the subset alone: what lies outside of it is not only left out but unknown,
and a reference to it dangles.  None of this shows, because a selection is closed under
references.  The subset agrees with the schema on its own entities, so they reach there what they
reach in the schema (`reaches_restrict_selection_iff`), and whatever the request started from in the
schema it starts from in the subset as well, for the same reasons.

* `startsFrom_restrict` : what a request starts from is still there, and the request starts from it.
* `subset_fixed` : the second cut is the first one.
-/

namespace SchemaCut
namespace Schema

variable {s : Schema} {r : Request} {keep : EntitySet}

/-! ## The same request again -/

variable {selected : EntitySet}

/-- A selection holds what the request starts from. -/
lemma mem_selection_of_startsFrom (hselected : s.selection r = .ok selected)
    (hroot : s.contains r.root = true) {e : Entity} (hstart : s.StartsFrom r e) : e ∈ selected :=
  (isCut_selection hselected hroot).mem_of_startsFrom hstart

lemma reaches_restrict_selection_iff (hselected : s.selection r = .ok selected)
    (hroot : s.contains r.root = true) {a b : Entity} (ha : a ∈ selected) :
    (s.restrict selected).Reaches a b ↔ s.Reaches a b :=
  (agreesOn_restrict fun _ hx => hx).reaches_iff
    (fun _ _ => mem_selection_of_refers hselected hroot) ha

/-- The parents that the request found in the schema are parents in the part that it selected. -/
lemma startsFrom_restrict (hselected : s.selection r = .ok selected)
    (hroot : s.contains r.root = true) {e : Entity} (hstart : s.StartsFrom r e) :
    (s.restrict selected).StartsFrom r e := by
  have he := mem_selection_of_startsFrom hselected hroot hstart
  have hr := mem_selection_of_startsFrom hselected hroot (.inl rfl)
  rcases hstart with rfl | ⟨hparents, t, hrt, het⟩
  · exact .inl rfl
  · exact .inr ⟨hparents, t, (reaches_restrict_selection_iff hselected hroot hr).2 hrt,
      (reaches_restrict_selection_iff hselected hroot he).2 het⟩

/-- Whatever a request selects from a schema it selects from the part that it selected. -/
lemma mem_selection_restrict (hselected : s.selection r = .ok selected)
    (hroot : s.contains r.root = true) {again : EntitySet}
    (hagain : (s.restrict selected).selection r = .ok again) {x : Entity} (hx : x ∈ selected) :
    x ∈ again := by
  have hr := mem_selection_of_startsFrom hselected hroot (.inl rfl)
  have hroot' : (s.restrict selected).contains r.root = true :=
    contains_restrict_iff.2 ⟨hr, hroot⟩
  obtain ⟨e, hstart, hex⟩ := (mem_selection_iff hselected hroot).1 hx
  have he := mem_selection_of_startsFrom hselected hroot hstart
  refine (mem_selection_iff hagain hroot').2 ⟨e, startsFrom_restrict hselected hroot hstart, ?_⟩
  exact (reaches_restrict_selection_iff hselected hroot he).2 hex

/-- A set that holds every entity of a schema restricts it to itself. -/
lemma restrict_eq_self (h : ∀ e, s.contains e = true → e ∈ keep) : s.restrict keep = s := by
  refine ext_find? fun e => ?_
  rw [find?_restrict]
  split
  · rfl
  · next he =>
    have hmissing : s.contains e = false := by
      rw [← Bool.not_eq_true]
      exact fun hcontains => he (h e hcontains)
    exact (by simpa [contains] using hmissing : s.find? e = none).symm

/-- Cutting a cut by the request that made it changes nothing, with full parents or without. -/
theorem subset_fixed (s o : Schema) (r : Request) (hshorten : r.shorten = none)
    (hcut : s.subset r = .ok o) : o.subset r = .ok o := by
  have hroot := contains_root_of_subset hcut
  obtain ⟨selected, hselected, hplain, -⟩ := exists_selection_of_subset hcut
  obtain rfl := hplain hshorten
  have hr := mem_selection_of_startsFrom hselected hroot (.inl rfl)
  obtain ⟨again, hagain⟩ : ∃ again, (s.restrict selected).selection r = .ok again :=
    ⟨_, selection_of_contains (contains_restrict_iff.2 ⟨hr, hroot⟩)⟩
  have hall : ∀ e, (s.restrict selected).contains e = true → e ∈ again := fun e he =>
    mem_selection_restrict hselected hroot hagain (contains_restrict_iff.1 he).1
  rw [subset_of_selection hagain hshorten, restrict_eq_self hall]

/-- `circular` and a resource that refers to a type outside of every circle. -/
def crossed : Schema :=
  ((circular.insert ⟨.resource, "r"⟩ (.arr [.str "#/types/a", .str "#/types/c"])).insert
    ⟨.type, "c"⟩ .null).insert ⟨.resource, "apart"⟩ (.str "#/types/c")

/-- The cut of `crossed` with full parents leaves the resource `apart` out and is cut no further. -/
theorem subset_fixed_crossed :
    circularRequest.shorten = none ∧
    crossed.subset circularRequest =
      .ok (crossed.erase ⟨.resource, "apart"⟩) ∧
    (crossed.erase ⟨.resource, "apart"⟩).subset circularRequest =
      .ok (crossed.erase ⟨.resource, "apart"⟩) := by
  have hshorten : circularRequest.shorten = none := rfl
  have hcut : crossed.subset circularRequest = .ok (crossed.erase ⟨.resource, "apart"⟩) := by
    cbv
  exact ⟨hshorten, hcut, subset_fixed crossed _ circularRequest hshorten hcut⟩

end Schema
end SchemaCut
