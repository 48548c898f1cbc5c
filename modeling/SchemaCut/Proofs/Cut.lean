import Mathlib.Order.Bounds.Basic
import SchemaCut.Proofs.FullParents

/-!
# The least cut

A cut of a schema for a request is a set of entities of the schema that holds what was asked for and
whatever the definitions of its members refer to.  `IsCut` says this without a word on how such a
set is found.  A request without shortening gets a cut with the definitions of the schema, and no
cut is smaller.

Both modes of a request are one kind of search: everything is selected that can be reached from the
entities that the request starts from (`StartsFrom`).  With full parents these are the root and
whatever reaches something that the root reaches.  A cut has all of them, and being closed under
references it has all that they reach.

* `mem_selection_iff` : what a request selects.
* `subset_isLeast_cut` : the subset exists, holds definitions of the schema only, and is the least
  cut.
-/

namespace SchemaCut
namespace Schema

variable {s : Schema} {r : Request}

/-! ## What a request selects -/

/-- The entities of which a request takes everything that they reach: the root, and with full
parents whatever shares something with the root that both of them reach. -/
def StartsFrom (s : Schema) (r : Request) (e : Entity) : Prop :=
  e = r.root ∨ r.fullParents = true ∧ ∃ t, s.Reaches r.root t ∧ s.Reaches e t

lemma selection_of_contains (hroot : s.contains r.root = true) :
    s.selection r =
      .ok (if r.fullParents then s.fullParents (s.walk [r.root]) else s.walk [r.root]) := by
  rw [selection, closure_of_contains hroot]
  rfl

lemma mem_walk_root_iff {x : Entity} : x ∈ s.walk [r.root] ↔ s.Reaches r.root x := by
  simp [mem_walk_iff]

lemma mem_selection_iff {selected : EntitySet} (hselected : s.selection r = .ok selected)
    (hroot : s.contains r.root = true) {x : Entity} :
    x ∈ selected ↔ ∃ e, s.StartsFrom r e ∧ s.Reaches e x := by
  rw [selection_of_contains hroot] at hselected
  cases hselected
  cases hfull : r.fullParents with
  | false =>
    rw [if_neg Bool.false_ne_true, mem_walk_root_iff]
    constructor
    · intro hx
      exact ⟨r.root, .inl rfl, hx⟩
    · rintro ⟨e, rfl | ⟨hparents, -⟩, hx⟩
      · exact hx
      · rw [hfull] at hparents
        cases hparents
  | true =>
    rw [if_pos rfl, mem_fullParents_iff]
    simp only [mem_walk_root_iff]
    constructor
    · rintro (hx | ⟨e, ht, hx⟩)
      · exact ⟨r.root, .inl rfl, hx⟩
      · exact ⟨e, .inr ⟨hfull, ht⟩, hx⟩
    · rintro ⟨e, rfl | ⟨-, ht⟩, hx⟩
      · exact .inl hx
      · exact .inr ⟨e, ht, hx⟩

/-- A selection is closed under references. -/
lemma mem_selection_of_refers {selected : EntitySet} (hselected : s.selection r = .ok selected)
    (hroot : s.contains r.root = true) {x y : Entity} (hx : x ∈ selected) (hxy : s.Refers x y) :
    y ∈ selected := by
  rw [mem_selection_iff hselected hroot] at hx ⊢
  obtain ⟨e, hstart, hex⟩ := hx
  exact ⟨e, hstart, hex.tail hxy⟩

lemma contains_of_mem_selection {selected : EntitySet} (hselected : s.selection r = .ok selected)
    (hroot : s.contains r.root = true) {x : Entity} (hx : x ∈ selected) : s.contains x = true := by
  obtain ⟨e, -, hex⟩ := (mem_selection_iff hselected hroot).1 hx
  exact hex.contains_right

/-- Without shortening the subset is the part of the schema that is selected. -/
lemma subset_of_selection {selected : EntitySet} (hselected : s.selection r = .ok selected)
    (hshorten : r.shorten = none) : s.subset r = .ok (s.restrict selected) := by
  rw [subset, hselected, hshorten]
  rfl

lemma exists_subset_of_contains (hroot : s.contains r.root = true) :
    ∃ o, s.subset r = .ok o := by
  rw [subset, selection_of_contains hroot]
  exact ⟨_, rfl⟩

lemma subset_of_not_contains (hroot : s.contains r.root = false) :
    s.subset r = .error (.unknownEntity r.root (s.suggest r.root.kind r.root.name)) := by
  rw [subset, selection, closure_of_not_contains hroot]
  rfl

lemma contains_root_of_subset {o : Schema} (h : s.subset r = .ok o) :
    s.contains r.root = true := by
  cases hroot : s.contains r.root with
  | true => rfl
  | false =>
    rw [subset_of_not_contains hroot] at h
    cases h

lemma contains_restrict_iff {keep : EntitySet} {x : Entity} :
    (s.restrict keep).contains x = true ↔ x ∈ keep ∧ s.contains x = true := by
  rw [contains, find?_restrict, contains]
  split
  · next hx => simp [hx]
  · next hx => simp [hx]

/-! ## Cuts -/

/-- A set of entities of a schema that serves a request and is closed under references. -/
structure IsCut (s : Schema) (r : Request) (E : Set Entity) : Prop where
  contained : ∀ e ∈ E, s.contains e = true
  closed : ∀ e ∈ E, ∀ definition, s.find? e = some definition →
    ∀ x ∈ definition.references, x ∈ E ∨ s.contains x = false
  root : r.root ∈ E
  parents : r.fullParents = true → ∀ e c needed, s.closure e = .ok c →
    s.closure r.root = .ok needed → c.meets needed = true → e ∈ E

/-- A cut holds what the request starts from. -/
lemma IsCut.mem_of_startsFrom {E : Set Entity} (hE : s.IsCut r E) {e : Entity}
    (hstart : s.StartsFrom r e) : e ∈ E := by
  rcases hstart with rfl | ⟨hparents, t, hrt, het⟩
  · exact hE.root
  · have hneeded : s.closure r.root = .ok (s.walk [r.root]) := closure_of_contains hrt.1
    have hc : s.closure e = .ok (s.walk [e]) := closure_of_contains het.1
    have hmeets : (s.walk [e]).meets (s.walk [r.root]) = true := by
      rw [closure_meets_iff hc]
      exact ⟨t, mem_walk_root_iff.2 hrt, het⟩
    exact hE.parents hparents e _ _ hc hneeded hmeets

/-- A cut holds what its members reach. -/
lemma IsCut.mem_of_reaches {E : Set Entity} (hE : s.IsCut r E) {e x : Entity} (he : e ∈ E)
    (hex : s.Reaches e x) : x ∈ E := by
  have closed : ∀ a b, a ∈ E → s.Refers a b → b ∈ E := by
    rintro a b ha ⟨⟨definition, hfind, hb⟩, hcontains⟩
    rcases hE.closed a ha definition hfind b hb with hmem | hmissing
    · exact hmem
    · rw [hcontains] at hmissing
      cases hmissing
  exact hex.mem_of_closed closed he

/-- What a request selects is a cut. -/
lemma isCut_selection {selected : EntitySet} (hselected : s.selection r = .ok selected)
    (hroot : s.contains r.root = true) : s.IsCut r {e | e ∈ selected} where
  contained e he := contains_of_mem_selection hselected hroot he
  closed := by
    intro e he definition hfind x hx
    cases hcontains : s.contains x with
    | false => exact .inr rfl
    | true =>
      exact .inl (mem_selection_of_refers hselected hroot he ⟨⟨definition, hfind, hx⟩, hcontains⟩)
  root := (mem_selection_iff hselected hroot).2 ⟨r.root, .inl rfl, .refl hroot⟩
  parents := by
    intro hparents e c needed hc hneeded hmeets
    obtain ⟨t, ht, het⟩ := (closure_meets_iff hc).1 hmeets
    have hrt : s.Reaches r.root t := (mem_closure_iff hneeded).1 ht
    exact (mem_selection_iff hselected hroot).2 ⟨e, .inr ⟨hparents, t, hrt, het⟩, .refl het.1⟩

/-- Nothing is selected that some cut could do without. -/
lemma selection_subset_cut {selected : EntitySet} (hselected : s.selection r = .ok selected)
    (hroot : s.contains r.root = true) {E : Set Entity} (hE : s.IsCut r E) :
    {e | e ∈ selected} ⊆ E := by
  intro x hx
  obtain ⟨e, hstart, hex⟩ := (mem_selection_iff hselected hroot).1 hx
  exact hE.mem_of_reaches (hE.mem_of_startsFrom hstart) hex

/-- A request without shortening whose root is in the schema gets a subset.  Its definitions are
those of the schema, every reference in them names an entity of the subset or one that the schema
does not have, and the entities of the subset are the least cut for the request. -/
theorem subset_isLeast_cut (s : Schema) (r : Request) (hshorten : r.shorten = none)
    (hroot : s.contains r.root = true) :
    ∃ o, s.subset r = .ok o ∧
      (∀ e definition, o.find? e = some definition → s.find? e = some definition) ∧
      (∀ e definition, o.find? e = some definition → ∀ x ∈ definition.references,
        o.contains x = true ∨ s.contains x = false) ∧
      IsLeast {E : Set Entity | s.IsCut r E} {e | o.contains e = true} := by
  obtain ⟨selected, hselected⟩ : ∃ selected, s.selection r = .ok selected :=
    ⟨_, selection_of_contains hroot⟩
  have hcut : s.IsCut r {e | e ∈ selected} := isCut_selection hselected hroot
  have hentities : {e | (s.restrict selected).contains e = true} = {e | e ∈ selected} := by
    ext e
    rw [Set.mem_ofPred_eq, contains_restrict_iff]
    exact and_iff_left_of_imp (hcut.contained e)
  have hfind : ∀ e definition, (s.restrict selected).find? e = some definition →
      e ∈ selected ∧ s.find? e = some definition := by
    intro e definition h
    rw [find?_restrict] at h
    split at h
    · next he => exact ⟨he, h⟩
    · cases h
  refine ⟨s.restrict selected, subset_of_selection hselected hshorten, ?_, ?_, ?_⟩
  · intro e definition h
    exact (hfind e definition h).2
  · intro e definition h x hx
    obtain ⟨he, hsource⟩ := hfind e definition h
    refine (hcut.closed e he definition hsource x hx).imp_left fun hmem => ?_
    exact contains_restrict_iff.2 ⟨hmem, hcut.contained x hmem⟩
  · rw [hentities]
    exact ⟨hcut, fun E hE => selection_subset_cut hselected hroot hE⟩

/-- Two types that refer to each other, one of them also to a type that is missing, and a function
that needs one of them. -/
def circular : Schema :=
  (((∅ : Schema).insert ⟨.type, "a"⟩ (.arr [.str "#/types/b", .str "#/types/missing"])).insert
    ⟨.type, "b"⟩ (.arr [.str "#/types/a"])).insert ⟨.function, "f"⟩ (.arr [.str "#/types/b"])

/-- The first of the two types with full parents. -/
def circularRequest : Request := { root := ⟨.type, "a"⟩, fullParents := true }

/-- `circular` has a subset for `circularRequest`, and it is the least cut. -/
theorem subset_circular_isLeast_cut :
    circularRequest.shorten = none ∧ circular.contains circularRequest.root = true ∧
    ∃ o, circular.subset circularRequest = .ok o ∧
      (∀ e definition, o.find? e = some definition → circular.find? e = some definition) ∧
      (∀ e definition, o.find? e = some definition → ∀ x ∈ definition.references,
        o.contains x = true ∨ circular.contains x = false) ∧
      IsLeast {E : Set Entity | circular.IsCut circularRequest E}
        {e | o.contains e = true} := by
  have hshorten : circularRequest.shorten = none := rfl
  have hroot : circular.contains circularRequest.root = true := by decide +kernel
  exact ⟨hshorten, hroot, subset_isLeast_cut circular circularRequest hshorten hroot⟩

end Schema
end SchemaCut
