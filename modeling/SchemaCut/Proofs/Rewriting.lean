import Mathlib.Data.List.Nodup
import Mathlib.Data.List.Pairwise
import SchemaCut.Proofs.Leaves
import SchemaCut.Proofs.Places

/-!
# Shortening in place

`Json.shortenUnder` goes through a definition by recursion.  The same can be done in one copy of the
definition, with a stack of places that are still to be looked at.  A `Rewriting` is that work
between two turns: no pending place is inside of another, and each of them is there.  A
`RewriteTurn` takes the place on top, rewrites the strings that stand directly under listed names in
the value there, and puts the places of its other parts on the stack, in whatever order.

What carries the result through the turns is `Rewriting.result`: the copy with the value at every
pending place shortened by recursion stays the same from turn to turn.  The pending places are
apart, so it does not matter in which order that is done.

* `rewriteTurn_wellFounded`, `exists_rewriteTurn_iff` : the turns end, and not before all is done.
* `Rewriting.result_of_run` : no turn changes what comes out.
* `copy_of_run` : the copy is the shortened value in the end.
-/

namespace SchemaCut
namespace Json

variable {o : ShortenOptions} {v : Json}

/-! ## One value in the copy -/

/-- Whether a member is a string under a listed name. -/
def isTextUnder (keys : List String) : String × Json → Bool
  | (n, .str _) => n ∈ keys
  | _ => false

/-- A member with its string cut to length, if it is a string under a listed name. -/
def rewriteMember (o : ShortenOptions) : String × Json → String × Json
  | (n, .str s) => (n, .str (if n ∈ o.keys then o.apply s else s))
  | m => m

/-- A value with the strings cut to length that stand directly under listed names in it. -/
def rewriteTexts (o : ShortenOptions) : Json → Json
  | .obj members => .obj (members.map (rewriteMember o))
  | .arr items => .arr items
  | .null => .null
  | .bool b => .bool b
  | .num n => .num n
  | .str s => .str s

/-- The positions of the parts that are to be looked at after the value: all but the strings that
have been cut to length. -/
def pendingParts (keys : List String) : Json → List Nat
  | .arr items => List.range items.length
  | .obj members =>
    (List.range members.length).filter fun i => !members[i]?.any (isTextUnder keys)
  | .null | .bool _ | .num _ | .str _ => []

lemma nodup_pendingParts (keys : List String) (v : Json) : (pendingParts keys v).Nodup := by
  cases v with
  | arr items => exact List.nodup_range
  | obj members => exact List.nodup_range.filter _
  | null | bool b | num n | str s => exact List.nodup_nil

lemma rewriteMember_of_not_text {m : String × Json} (h : isTextUnder o.keys m = false) :
    rewriteMember o m = m := by
  obtain ⟨n, v⟩ := m
  cases v with
  | str s =>
    have hn : n ∉ o.keys := by simpa [isTextUnder] using h
    rw [rewriteMember, if_neg hn]
  | null | bool b | num n | arr items | obj members => rfl

/-- A member is cut to length, or the value in it is shortened. -/
lemma shortenMember_eq_ite (o : ShortenOptions) (m : String × Json) :
    shortenMember o m =
      if isTextUnder o.keys m then rewriteMember o m else (m.1, shortenUnder o m.2) := by
  obtain ⟨n, v⟩ := m
  cases v with
  | str s => by_cases hn : n ∈ o.keys <;>
      simp [shortenMember, isTextUnder, rewriteMember, shortenUnder, Leaf.written, hn]
  | null | bool b | num n | arr items | obj members => rfl

lemma mem_pendingParts_obj_iff {keys : List String} {members : List (String × Json)} {i : Nat} :
    i ∈ pendingParts keys (.obj members) ↔
      ∃ m, members[i]? = some m ∧ isTextUnder keys m = false := by
  rw [pendingParts, List.mem_filter, List.mem_range]
  constructor
  · rintro ⟨hi, htext⟩
    rw [List.getElem?_eq_getElem hi] at htext ⊢
    exact ⟨_, rfl, by simpa using htext⟩
  · rintro ⟨m, hm, htext⟩
    exact ⟨(List.getElem?_eq_some_iff.1 hm).1, by simp [hm, htext]⟩

/-- A part that is to be looked at is there and has not been touched. -/
lemma part_of_mem_pendingParts {i : Nat} (h : i ∈ pendingParts o.keys v) :
    ∃ u, v.parts[i]? = some u ∧ (rewriteTexts o v).parts[i]? = some u := by
  cases v with
  | arr items =>
    have hi : i < items.length := List.mem_range.1 h
    exact ⟨items[i], List.getElem?_eq_getElem hi, List.getElem?_eq_getElem hi⟩
  | obj members =>
    obtain ⟨m, hm, htext⟩ := mem_pendingParts_obj_iff.1 h
    refine ⟨m.2, by simp [parts, memberValues, hm], ?_⟩
    simp [rewriteTexts, parts, memberValues, hm, rewriteMember_of_not_text htext]
  | null | bool b | num n | str s => exact absurd h List.not_mem_nil

lemma foldl_modify {α : Type} (f : α → α) {is : List Nat} (his : is.Nodup) (xs : List α) :
    is.foldl (fun ys i => ys.modify i f) xs = xs.mapIdx fun i x => if i ∈ is then f x else x := by
  induction is generalizing xs with
  | nil => exact List.ext_getElem? fun i => by simp
  | cons j is ih =>
    obtain ⟨hj, his⟩ := List.nodup_cons.1 his
    rw [List.foldl_cons, ih his]
    refine List.ext_getElem? fun i => ?_
    rw [List.getElem?_mapIdx, List.getElem?_mapIdx, List.getElem?_modify]
    cases xs[i]? with
    | none => rfl
    | some x =>
      by_cases hij : j = i
      · subst hij
        simp [hj]
      · simp [hij, Ne.symm hij]

/-- A value is shortened by cutting the strings in it and shortening its other parts. -/
lemma foldl_changePart_pendingParts (o : ShortenOptions) (v : Json) :
    (pendingParts o.keys v).foldl (fun c i => c.changePart (shortenUnder o) i) (rewriteTexts o v) =
      shortenUnder o v := by
  have hnodup := nodup_pendingParts o.keys v
  cases v with
  | arr items =>
    rw [rewriteTexts, List.foldl_hom arr fun _ _ => rfl, foldl_modify _ hnodup, shortenUnder,
      shortenItems_eq_map]
    refine congrArg _ (List.ext_getElem? fun i => ?_)
    rw [List.getElem?_mapIdx, List.getElem?_map]
    cases hi : items[i]? with
    | none => rfl
    | some u =>
      have hmem : i ∈ pendingParts o.keys (.arr items) :=
        List.mem_range.2 (List.getElem?_eq_some_iff.1 hi).1
      simp [hmem]
  | obj members =>
    rw [rewriteTexts, List.foldl_hom obj fun _ _ => rfl, foldl_modify _ hnodup, shortenUnder,
      shortenMembers_eq_map]
    refine congrArg _ (List.ext_getElem? fun i => ?_)
    rw [List.getElem?_mapIdx, List.getElem?_map, List.getElem?_map]
    cases hi : members[i]? with
    | none => rfl
    | some m =>
      have hmem : i ∈ pendingParts o.keys (.obj members) ↔ isTextUnder o.keys m = false := by
        simp [mem_pendingParts_obj_iff, hi]
      cases htext : isTextUnder o.keys m with
      | true => simp [hmem, shortenMember_eq_ite, htext]
      | false => simp [hmem, shortenMember_eq_ite, htext, rewriteMember_of_not_text htext]
  | null | bool b | num n | str s => rfl

/-! ## The turns -/

/-- Shortening between two turns: the copy that is worked on and the places in it that are still to
be looked at, the next one first. -/
structure Rewriting where
  copy : Json
  pending : List Place
  apart : pending.Pairwise Apart
  present : ∀ p ∈ pending, (copy.at? p).isSome = true

/-- Nothing has been looked at. -/
def Rewriting.start (v : Json) : Rewriting where
  copy := v
  pending := [[]]
  apart := List.pairwise_singleton _ _
  present p hp := by
    obtain rfl := List.mem_singleton.1 hp
    rfl

/-- One turn: the value at the next place is rewritten, and the places of its parts that are still
to be looked at take the place of it in any order. -/
def RewriteTurn (o : ShortenOptions) (w w' : Rewriting) : Prop :=
  ∃ p rest u, w.pending = p :: rest ∧ w.copy.at? p = some u ∧
    w'.copy = changeAt (rewriteTexts o) p w.copy ∧
    w'.pending.Perm ((pendingParts o.keys u).map (fun i => p ++ [i]) ++ rest)

/-! The places of the parts take the place of the value itself. -/

section Parts

variable {p : Place} {rest : List Place} {copy u : Json}

lemma pairwise_apart_parts (h : (p :: rest).Pairwise Apart) {is : List Nat} (his : is.Nodup) :
    (is.map (fun i => p ++ [i]) ++ rest).Pairwise Apart := by
  obtain ⟨hp, hrest⟩ := List.pairwise_cons.1 h
  refine List.pairwise_append.2 ⟨?_, hrest, ?_⟩
  · exact List.pairwise_map.2 (his.imp fun hij => apart_of_ne hij p)
  · intro a ha q hq
    obtain ⟨i, -, rfl⟩ := List.mem_map.1 ha
    exact (hp q hq).append [i]

lemma at?_changeAt_part (hu : copy.at? p = some u) {i : Nat} (hi : i ∈ pendingParts o.keys u) :
    ∃ x, u.parts[i]? = some x ∧ (changeAt (rewriteTexts o) p copy).at? (p ++ [i]) = some x := by
  obtain ⟨x, hx, hx'⟩ := part_of_mem_pendingParts hi
  refine ⟨x, hx, ?_⟩
  rw [at?_append, at?_changeAt_self, hu, Option.map_some, Option.bind_some, at?_cons, hx']
  rfl

/-- The state behind a turn that leaves the parts in their order. -/
def Rewriting.next (o : ShortenOptions) (w : Rewriting) (hpending : w.pending = p :: rest)
    (hu : w.copy.at? p = some u) : Rewriting where
  copy := changeAt (rewriteTexts o) p w.copy
  pending := (pendingParts o.keys u).map (fun i => p ++ [i]) ++ rest
  apart := pairwise_apart_parts (hpending ▸ w.apart) (nodup_pendingParts o.keys u)
  present q hq := by
    rcases List.mem_append.1 hq with hq | hq
    · obtain ⟨i, hi, rfl⟩ := List.mem_map.1 hq
      obtain ⟨x, -, hx⟩ := at?_changeAt_part hu hi
      rw [hx, Option.isSome_some]
    · have hpq : Apart p q := (List.pairwise_cons.1 (hpending ▸ w.apart)).1 q hq
      rw [at?_changeAt_of_apart hpq]
      exact w.present q (hpending ▸ List.mem_cons_of_mem p hq)

end Parts

/-- Shortening stops when no place is pending, and not before. -/
lemma exists_rewriteTurn_iff {w : Rewriting} : (∃ w', RewriteTurn o w w') ↔ w.pending ≠ [] := by
  constructor
  · rintro ⟨w', p, rest, u, hpending, -⟩
    simp [hpending]
  · intro hne
    obtain ⟨p, rest, hpending⟩ := List.exists_cons_of_ne_nil hne
    have hpresent := w.present p (hpending ▸ List.mem_cons_self)
    obtain ⟨u, hu⟩ := Option.isSome_iff_exists.1 hpresent
    exact ⟨w.next o hpending hu, p, rest, u, hpending, hu, rfl, .refl _⟩

/-! ## What is left to do -/

/-- The number of values that are pending or inside of a pending one. -/
def Rewriting.weight (w : Rewriting) : Nat := weightItems (w.pending.filterMap w.copy.at?)

lemma weightItems_le_of_sublist {vs ws : List Json} (h : vs.Sublist ws) :
    weightItems vs ≤ weightItems ws := by
  induction h with
  | slnil => exact Nat.le_refl _
  | cons v _ ih =>
    rw [weightItems]
    omega
  | cons_cons v _ ih =>
    rw [weightItems, weightItems]
    omega

lemma sublist_range_pendingParts (keys : List String) (v : Json) :
    (pendingParts keys v).Sublist (List.range v.parts.length) := by
  cases v with
  | arr items => exact .refl _
  | obj members =>
    have hlength : (obj members).parts.length = members.length := List.length_map _
    rw [hlength]
    exact List.filter_sublist
  | null | bool b | num n | str s => exact List.nil_sublist _

lemma filterMap_getElem?_range {α : Type} (xs : List α) :
    (List.range xs.length).filterMap (xs[·]?) = xs := by
  induction xs with
  | nil => rfl
  | cons x xs ih =>
    rw [List.length_cons, List.range_succ_eq_map]
    simp [List.filterMap_map, ih]

/-- The parts that are still to be looked at weigh less than the value. -/
lemma RewriteTurn.weight_lt {w w' : Rewriting} (h : RewriteTurn o w w') : w'.weight < w.weight := by
  obtain ⟨p, rest, u, hpending, hu, hcopy, hperm⟩ := h
  have hapart := (List.pairwise_cons.1 (hpending ▸ w.apart)).1
  have hrest : rest.filterMap w'.copy.at? = rest.filterMap w.copy.at? := by
    refine List.filterMap_congr fun q hq => ?_
    rw [hcopy, at?_changeAt_of_apart (hapart q hq)]
  have hparts : (pendingParts o.keys u).filterMap (fun i => w'.copy.at? (p ++ [i])) =
      (pendingParts o.keys u).filterMap (u.parts[·]?) := by
    refine List.filterMap_congr fun i hi => ?_
    obtain ⟨x, hx, hx'⟩ := at?_changeAt_part hu hi
    rw [hcopy, hx', hx]
  have hless : weightItems ((pendingParts o.keys u).filterMap (u.parts[·]?)) ≤
      weightItems u.parts := by
    have hsub := (sublist_range_pendingParts o.keys u).filterMap (u.parts[·]?)
    rw [filterMap_getElem?_range] at hsub
    exact weightItems_le_of_sublist hsub
  have hnew : w'.weight = weightItems ((pendingParts o.keys u).filterMap (u.parts[·]?)) +
      weightItems (rest.filterMap w.copy.at?) := by
    rw [Rewriting.weight, weightItems_perm (hperm.filterMap _), List.filterMap_append,
      List.filterMap_map, weightItems_append, hrest]
    exact congrArg (weightItems · + _) hparts
  have hold : w.weight = u.weight + weightItems (rest.filterMap w.copy.at?) := by
    rw [Rewriting.weight, hpending, List.filterMap_cons, hu]
    rfl
  rw [hnew, hold, weight_eq_parts u]
  omega

lemma rewriteTurn_wellFounded : WellFounded fun w' w => RewriteTurn o w w' :=
  Subrelation.wf (fun h => h.weight_lt) (measure Rewriting.weight).wf

/-- What comes out once the value at every pending place is shortened. -/
def Rewriting.result (o : ShortenOptions) (w : Rewriting) : Json :=
  w.pending.foldl (fun c p => changeAt (shortenUnder o) p c) w.copy

/-- Places that are apart can be changed in any order. -/
lemma foldl_changeAt_perm {ps qs : List Place} (hperm : ps.Perm qs) (hapart : ps.Pairwise Apart)
    (f : Json → Json) (v : Json) :
    ps.foldl (fun c p => changeAt f p c) v = qs.foldl (fun c p => changeAt f p c) v := by
  refine hperm.foldl_eq' (fun p hp q hq c => ?_) v
  by_cases hpq : p = q
  · rw [hpq]
  · have hap : Apart p q := hapart.forall hp hq hpq
    exact (changeAt_comm hap f f c).symm

lemma RewriteTurn.result_eq {w w' : Rewriting} (h : RewriteTurn o w w') :
    w'.result o = w.result o := by
  obtain ⟨p, rest, u, hpending, hu, hcopy, hperm⟩ := h
  -- the value at the place, rewritten and with its other parts shortened, is the shortened value
  have hvalue : (pendingParts o.keys u).foldl
      (fun c i => changeAt (shortenUnder o) (p ++ [i]) c) (changeAt (rewriteTexts o) p w.copy) =
        changeAt (shortenUnder o) p w.copy := by
    rw [foldl_changeAt_append]
    refine changeAt_congr fun x hx => ?_
    obtain rfl : u = x := Option.some.inj (hu.symm.trans hx)
    exact foldl_changePart_pendingParts o u
  calc
    w'.result o = ((pendingParts o.keys u).map (fun i => p ++ [i]) ++ rest).foldl
        (fun c q => changeAt (shortenUnder o) q c) (changeAt (rewriteTexts o) p w.copy) := by
      rw [Rewriting.result, foldl_changeAt_perm hperm w'.apart, hcopy]
    _ = rest.foldl (fun c q => changeAt (shortenUnder o) q c)
        (changeAt (shortenUnder o) p w.copy) := by
      rw [List.foldl_append, List.foldl_map, hvalue]
    _ = w.result o := by rw [Rewriting.result, hpending, List.foldl_cons]

lemma Rewriting.result_of_run {w w' : Rewriting}
    (hrun : Relation.ReflTransGen (RewriteTurn o) w w') : w'.result o = w.result o := by
  induction hrun with
  | refl => rfl
  | tail _ ht ih => rw [ht.result_eq, ih]

/-- With nothing pending the copy is the shortened value. -/
lemma copy_of_run {w : Rewriting} (hrun : Relation.ReflTransGen (RewriteTurn o) (.start v) w)
    (hdone : w.pending = []) : w.copy = shortenUnder o v := by
  have hresult := Rewriting.result_of_run hrun
  rwa [Rewriting.result, hdone] at hresult

/-- Shortening can be finished from every state. -/
lemma exists_run (o : ShortenOptions) (w : Rewriting) :
    ∃ w', Relation.ReflTransGen (RewriteTurn o) w w' ∧ w'.pending = [] := by
  induction w using rewriteTurn_wellFounded (o := o).induction with
  | h w ih =>
    by_cases hdone : w.pending = []
    · exact ⟨w, .refl, hdone⟩
    · obtain ⟨w₁, hturn⟩ := exists_rewriteTurn_iff.2 hdone
      obtain ⟨w', hrun, hend⟩ := ih w₁ hturn
      exact ⟨w', .head hturn hrun, hend⟩

end Json
end SchemaCut
