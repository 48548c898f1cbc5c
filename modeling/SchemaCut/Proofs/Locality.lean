import Mathlib
import SchemaCut.Proofs.Cut

/-!
# What a closure depends on

A closure reads the definitions of its own members, and of anything else no more than whether the
schema has it.  So a second schema that has the same definitions there, and in which the references
that led nowhere still lead nowhere, gives the same closure, whatever it holds besides: entities of
the same names under other kinds, more entities or fewer.  `AgreesOn` is this condition on a set of
entities.

Where two schemas agree on a set that is closed under the references of the first one, they refer
to the same from there (`AgreesOn.refers_iff`), so a way that starts in the set is a way in both.

* `AgreesOn.closure_eq` : schemas that agree on a closure have it in common.
* `AgreesOn.subset_eq` : they have the subsets for its root in common as well.
* `closure_subset_local` : both, and a cut agrees with its schema on the closures of its members.
-/

namespace SchemaCut
namespace Schema

variable {s t : Schema} {c : EntitySet} {root : Entity}

/-! ## Schemas that agree on a set -/

/-- The schema `t` has the definitions of `s` for the entities of a set, and what these refer to is
missing from `t` wherever it is missing from `s`. -/
structure AgreesOn (s t : Schema) (c : EntitySet) : Prop where
  same : ∀ e ∈ c, t.find? e = s.find? e
  missing : ∀ e ∈ c, ∀ definition, s.find? e = some definition →
    ∀ x ∈ definition.references, s.contains x = false → t.contains x = false

lemma AgreesOn.contains_eq (h : s.AgreesOn t c) {e : Entity} (he : e ∈ c) :
    t.contains e = s.contains e := by
  rw [contains, contains, h.same e he]

/-- From the members of a closed set both schemas refer to the same entities.  A reference of `s`
stays in the set, where `t` has whatever `s` has; a reference that only `t` could resolve would be
one that is missing from `s`. -/
lemma AgreesOn.refers_iff (h : s.AgreesOn t c) (closed : ∀ x y, x ∈ c → s.Refers x y → y ∈ c)
    {x y : Entity} (hx : x ∈ c) : t.Refers x y ↔ s.Refers x y := by
  rw [Refers, Refers, h.same x hx]
  constructor
  · rintro ⟨⟨definition, hfind, hy⟩, hcontains⟩
    refine ⟨⟨definition, hfind, hy⟩, ?_⟩
    by_contra hnot
    have hmissing := h.missing x hx definition hfind y hy (by simpa using hnot)
    rw [hcontains] at hmissing
    cases hmissing
  · rintro ⟨⟨definition, hfind, hy⟩, hcontains⟩
    have hyc : y ∈ c := closed x y hx ⟨⟨definition, hfind, hy⟩, hcontains⟩
    exact ⟨⟨definition, hfind, hy⟩, by rw [h.contains_eq hyc, hcontains]⟩

lemma AgreesOn.reaches_iff (h : s.AgreesOn t c)
    (closed : ∀ x y, x ∈ c → s.Refers x y → y ∈ c) {a b : Entity} (ha : a ∈ c) :
    t.Reaches a b ↔ s.Reaches a b := by
  constructor
  · intro hab
    have step : ∀ x y, x ∈ c → t.Refers x y → y ∈ c ∧ s.Refers x y := by
      intro x y hx hxy
      have hxy' := (h.refers_iff closed hx).1 hxy
      exact ⟨closed x y hx hxy', hxy'⟩
    exact (hab.transfer step ha (by rw [← h.contains_eq ha, hab.1])).2
  · intro hab
    have step : ∀ x y, x ∈ c → s.Refers x y → y ∈ c ∧ t.Refers x y := by
      intro x y hx hxy
      exact ⟨closed x y hx hxy, (h.refers_iff closed hx).2 hxy⟩
    exact (hab.transfer step ha (by rw [h.contains_eq ha, hab.1])).2

lemma AgreesOn.restrict_eq (h : s.AgreesOn t c) : t.restrict c = s.restrict c := by
  refine ext_find? fun e => ?_
  rw [find?_restrict, find?_restrict]
  split
  · next he => exact h.same e he
  · rfl

/-- A part of a schema agrees with the schema on whatever it takes over: it may lose the targets of
references, but it gains none. -/
lemma agreesOn_restrict {keep : EntitySet} (hkeep : ∀ e ∈ c, e ∈ keep) :
    s.AgreesOn (s.restrict keep) c where
  same e he := by rw [find?_restrict, if_pos (hkeep e he)]
  missing e _ definition _ x _ hx := by
    rw [← Bool.not_eq_true, contains_restrict_iff, hx]
    simp

/-! ## Closures and subsets -/

lemma root_mem_closure (hc : s.closure root = .ok c) : root ∈ c :=
  (mem_closure_iff hc).2 (.refl (closure_eq_ok_iff.1 hc).1)

lemma mem_closure_of_refers (hc : s.closure root = .ok c) {x y : Entity} (hx : x ∈ c)
    (hxy : s.Refers x y) : y ∈ c :=
  (mem_closure_iff hc).2 (((mem_closure_iff hc).1 hx).tail hxy)

lemma AgreesOn.closure_eq (h : s.AgreesOn t c) (hc : s.closure root = .ok c) :
    t.closure root = .ok c := by
  have hroot : root ∈ c := root_mem_closure hc
  have hcontains : t.contains root = true := by
    rw [h.contains_eq hroot, (closure_eq_ok_iff.1 hc).1]
  rw [closure_of_contains hcontains]
  refine congrArg Except.ok (EntitySet.ext_mem fun x => ?_)
  rw [mem_closure_iff hc, ← h.reaches_iff (fun _ _ => mem_closure_of_refers hc) hroot]
  simp [mem_walk_iff]

/-- Without full parents a request gets what its closure leaves of the schema. -/
lemma subset_of_closure {r : Request} (hc : s.closure r.root = .ok c)
    (hparents : r.fullParents = false) :
    s.subset r = .ok (match r.shorten with
      | some o => (s.restrict c).shorten o
      | none => s.restrict c) := by
  rw [subset, selection, hc, hparents]
  rfl

lemma AgreesOn.subset_eq (h : s.AgreesOn t c) {r : Request} (hc : s.closure r.root = .ok c)
    (hparents : r.fullParents = false) : ∃ o, s.subset r = .ok o ∧ t.subset r = .ok o := by
  refine ⟨_, subset_of_closure hc hparents, ?_⟩
  rw [subset_of_closure (h.closure_eq hc) hparents, h.restrict_eq]

/-- An entity of a cut needs there what it needs in the schema.  This holds with full parents too:
what is selected is closed under references, so the whole closure of a member is in the cut. -/
lemma closure_of_mem_subset {o : Schema} {r : Request} (hshorten : r.shorten = none)
    (ho : s.subset r = .ok o) {e : Entity} (he : o.contains e = true) :
    ∃ c, s.closure e = .ok c ∧ o.closure e = .ok c := by
  have hroot := contains_root_of_subset ho
  obtain ⟨selected, hselected, hplain, -⟩ := exists_selection_of_subset ho
  obtain rfl := hplain hshorten
  obtain ⟨hmem, hcontains⟩ := contains_restrict_iff.1 he
  have hc : s.closure e = .ok (s.walk [e]) := closure_of_contains hcontains
  have hinside : ∀ x ∈ s.walk [e], x ∈ selected := by
    intro x hx
    have closed : ∀ x y, x ∈ selected → s.Refers x y → y ∈ selected :=
      fun _ _ => mem_selection_of_refers hselected hroot
    exact ((mem_closure_iff hc).1 hx).mem_of_closed closed hmem
  exact ⟨s.walk [e], hc, (agreesOn_restrict hinside).closure_eq hc⟩

/-- A schema that agrees with another one on a closure has the same closure, and every request for
its root without full parents gets the same subset from both, of the same text.  An entity of a cut
without shortening has the closure in the cut that it has in the schema. -/
theorem closure_subset_local (s : Schema) :
    (∀ (t : Schema) (root : Entity) (c : EntitySet), s.closure root = .ok c → s.AgreesOn t c →
      t.closure root = .ok c ∧
      ∀ r : Request, r.root = root → r.fullParents = false →
        (∃ o, s.subset r = .ok o ∧ t.subset r = .ok o) ∧
        ∀ layout : Layout, (t.subset r).map (text · layout) = (s.subset r).map (text · layout)) ∧
    ∀ (r : Request) (o : Schema), r.shorten = none → s.subset r = .ok o →
      ∀ e, o.contains e = true → ∃ c, s.closure e = .ok c ∧ o.closure e = .ok c := by
  constructor
  · intro t root c hc hagree
    refine ⟨hagree.closure_eq hc, fun r hr hparents => ?_⟩
    obtain rfl := hr
    obtain ⟨o, hs, ht⟩ := hagree.subset_eq hc hparents
    exact ⟨⟨o, hs, ht⟩, fun layout => by rw [hs, ht]⟩
  · intro r o hshorten ho e he
    exact closure_of_mem_subset hshorten ho he

/-- `circular` with a resource under the name of one of its types, and with what that refers to. -/
def surrounded : Schema :=
  (circular.insert ⟨.resource, "a"⟩ (.str "#/types/c")).insert ⟨.type, "c"⟩ .null

/-- The types of `circular` with other surroundings: the function is gone, and the resource refers
to one of them. -/
def resettled : Schema :=
  (circular.erase ⟨.function, "f"⟩).insert ⟨.resource, "a"⟩ (.str "#/types/b")

lemma surrounded_agreesOn_resettled :
    surrounded.AgreesOn resettled (.ofList [⟨.type, "a"⟩, ⟨.type, "b"⟩]) := by
  have ha : (Json.arr [.str "#/types/b", .str "#/types/missing"]).references =
      .ofList [⟨.type, "b"⟩, ⟨.type, "missing"⟩] := by cbv
  have hb : (Json.arr [.str "#/types/a"]).references = .ofList [⟨.type, "a"⟩] := by cbv
  constructor
  · intro e he
    rw [EntitySet.mem_ofList] at he
    fin_cases he <;> rfl
  · intro e he definition hfind x hx hmissing
    rw [EntitySet.mem_ofList] at he
    fin_cases he
    · cases hfind
      rw [ha, EntitySet.mem_ofList] at hx
      fin_cases hx
      · cases hmissing
      · rfl
    · cases hfind
      rw [hb, EntitySet.mem_ofList] at hx
      fin_cases hx
      cases hmissing

/-- The two types have one closure and one shortened subset in both surroundings, and the cut of
`surrounded` with full parents, which is `circular`, has the closure of the function. -/
theorem closure_subset_resettled :
    let c := EntitySet.ofList [⟨.type, "a"⟩, ⟨.type, "b"⟩]
    let shortened : Request := { root := ⟨.type, "a"⟩, shorten := some {} }
    surrounded.closure ⟨.type, "a"⟩ = .ok c ∧ surrounded.AgreesOn resettled c ∧
    (resettled.closure ⟨.type, "a"⟩ = .ok c ∧
      ∃ o, surrounded.subset shortened = .ok o ∧ resettled.subset shortened = .ok o) ∧
    surrounded.subset circularRequest = .ok circular ∧
    ∃ c', surrounded.closure ⟨.function, "f"⟩ = .ok c' ∧
      circular.closure ⟨.function, "f"⟩ = .ok c' := by
  have hc : surrounded.closure ⟨.type, "a"⟩ = .ok (.ofList [⟨.type, "a"⟩, ⟨.type, "b"⟩]) := by
    cbv
  have hcut : surrounded.subset circularRequest = .ok circular := by cbv
  have hf : circular.contains ⟨.function, "f"⟩ = true := rfl
  obtain ⟨hlocal, hinside⟩ := closure_subset_local surrounded
  obtain ⟨hclosure, hsubset⟩ := hlocal resettled _ _ hc surrounded_agreesOn_resettled
  exact ⟨hc, surrounded_agreesOn_resettled, ⟨hclosure, (hsubset _ rfl rfl).1⟩, hcut,
    hinside circularRequest _ rfl hcut _ hf⟩

end Schema
end SchemaCut
