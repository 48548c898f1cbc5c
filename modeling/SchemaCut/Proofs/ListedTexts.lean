import SchemaCut.Proofs.Reading.Bounds
import SchemaCut.Proofs.Rewriting
import SchemaCut.Proofs.Shortening

/-!
# Strings under listed names

What shortening makes of a value is said place by place.  A place is under a listed name if it is
the place of a member with such a name, and `TextUnder` picks out the strings there.  Each of these
is cut to length, and at every other place a value has the node that it had before: the same names,
the same number of elements, the same scalar.

A definition fits the options if none of these strings is too long (`Fits`).  Shortened definitions
fit, and definitions that fit are left as they are, so nothing changes when a schema is shortened
for a second time.

* `at?_shortenUnder_text`, `node_at?_shortenUnder` : the result at each place.
* `shortenUnder_exact` : the same by turns in place, by recursion and by places, and for a schema.
* `shortenUnder_eq_self_iff` : what shortening leaves alone.
* `Schema.shorten_settles` : shortened schemas fit, and stay as they are.
-/

namespace SchemaCut
namespace Json

variable {o : ShortenOptions} {keys : List String} {v : Json} {p : Place}

/-! ## Places under listed names -/

/-- The place is that of a member with a listed name. -/
def StandsUnder (keys : List String) (v : Json) (p : Place) : Prop :=
  ∃ q i members n u, p = q ++ [i] ∧ v.at? q = some (.obj members) ∧
    members[i]? = some (n, u) ∧ n ∈ keys

/-- The string stands at the place, directly under a listed name. -/
structure TextUnder (keys : List String) (v : Json) (p : Place) (text : String) : Prop where
  text_at : v.at? p = some (.str text)
  listed : v.StandsUnder keys p

lemma not_standsUnder_nil : ¬ v.StandsUnder keys [] := by
  rintro ⟨q, i, members, n, u, hp, -⟩
  simp at hp

/-- Whether a place is under a listed name is settled by the node that it is a part of. -/
lemma standsUnder_iff_node :
    v.StandsUnder keys p ↔
      ∃ q i names n, p = q ++ [i] ∧ (v.at? q).map node = some (.obj names) ∧
        names[i]? = some n ∧ n ∈ keys := by
  constructor
  · rintro ⟨q, i, members, n, u, hp, hq, hi, hn⟩
    exact ⟨q, i, members.map Prod.fst, n, hp, by rw [hq]; rfl, by simp [hi], hn⟩
  · rintro ⟨q, i, names, n, hp, hq, hi, hn⟩
    obtain ⟨w, hw, hnode⟩ := Option.map_eq_some_iff.1 hq
    cases w with
    | obj members =>
      obtain rfl := Node.obj.inj hnode
      rw [List.getElem?_map] at hi
      obtain ⟨⟨n', u⟩, hmember, rfl⟩ := Option.map_eq_some_iff.1 hi
      exact ⟨q, i, members, n', u, hp, hw, hmember, hn⟩
    | null | bool b | num n | str s | arr items => cases hnode

lemma standsUnder_singleton_iff {i : Nat} :
    v.StandsUnder keys [i] ↔
      ∃ members n u, v = .obj members ∧ members[i]? = some (n, u) ∧ n ∈ keys := by
  constructor
  · rintro ⟨q, j, members, n, u, hp, hq, hi, hn⟩
    obtain ⟨rfl, rfl⟩ : q = [] ∧ j = i := by
      cases q with
      | nil => simpa using hp.symm
      | cons k q => simp at hp
    exact ⟨members, n, u, Option.some.inj hq, hi, hn⟩
  · rintro ⟨members, n, u, rfl, hi, hn⟩
    exact ⟨[], i, members, n, u, rfl, rfl, hi, hn⟩

lemma standsUnder_cons_cons_iff {i j : Nat} :
    v.StandsUnder keys (i :: j :: p) ↔
      ∃ u, v.parts[i]? = some u ∧ u.StandsUnder keys (j :: p) := by
  constructor
  · rintro ⟨q, k, members, n, x, hp, hq, hi, hn⟩
    cases q with
    | nil => simp at hp
    | cons i' q =>
      obtain ⟨rfl, htail⟩ := List.cons.inj hp
      obtain ⟨u, hu, hq⟩ := Option.bind_eq_some_iff.1 hq
      exact ⟨u, hu, q, k, members, n, x, htail, hq, hi, hn⟩
  · rintro ⟨u, hu, q, k, members, n, x, hp, hq, hi, hn⟩
    refine ⟨i :: q, k, members, n, x, by rw [hp]; rfl, ?_, hi, hn⟩
    rw [at?_cons, hu]
    exact hq

/-! ## What shortening makes of a part -/

lemma node_shortenUnder (o : ShortenOptions) (v : Json) : (shortenUnder o v).node = v.node := by
  cases v with
  | arr items => simp [shortenUnder, shortenItems_eq_map, node]
  | obj members => simp [shortenUnder, shortenMembers_eq_map, node, shortenMember]
  | null | bool b | num n | str s => rfl

/-- A string that is a part of a value is cut to length if it is under a listed name. -/
lemma part_shortenUnder_text {i : Nat} {text : String} (h : v.TextUnder o.keys [i] text) :
    (shortenUnder o v).parts[i]? = some (.str (o.apply text)) := by
  obtain ⟨members, n, u, rfl, hi, hn⟩ := standsUnder_singleton_iff.1 h.listed
  have hu := h.text_at
  simp only [at?_cons, parts, memberValues, List.getElem?_map, hi] at hu
  obtain rfl : u = .str text := Option.some.inj hu
  simp [shortenUnder, shortenMembers_eq_map, parts, memberValues, hi, shortenMember, Leaf.written,
    hn]

/-- Any other part is shortened by itself. -/
lemma part_shortenUnder {i : Nat} {u : Json} (hu : v.parts[i]? = some u)
    (h : ¬ ∃ text, v.TextUnder o.keys [i] text) :
    (shortenUnder o v).parts[i]? = some (shortenUnder o u) := by
  cases v with
  | arr items =>
    have hi : items[i]? = some u := hu
    simp [shortenUnder, shortenItems_eq_map, parts, hi]
  | obj members =>
    obtain ⟨⟨n, x⟩, hi, rfl⟩ : ∃ m, members[i]? = some m ∧ m.2 = u := by
      simpa [parts, memberValues] using hu
    have hvalue : (shortenMember o (n, x)).2 = shortenUnder o x := by
      cases x with
      | str text =>
        have hn : n ∉ o.keys := fun hn => h ⟨text, by simp [hu],
          standsUnder_singleton_iff.2 ⟨members, n, .str text, rfl, hi, hn⟩⟩
        simp [shortenMember, Leaf.written, hn, shortenUnder]
      | null | bool b | num n | arr items | obj members => rfl
    simp [shortenUnder, shortenMembers_eq_map, parts, memberValues, hi, hvalue]
  | null | bool b | num n | str s => cases hu

/-- A string has no places inside of it. -/
lemma at?_str_cons (s : String) (i : Nat) (p : Place) : (str s).at? (i :: p) = none := rfl

lemma exists_of_at?_cons {i : Nat} {x : Json} (h : v.at? (i :: p) = some x) :
    ∃ u, v.parts[i]? = some u ∧ u.at? p = some x :=
  Option.bind_eq_some_iff.1 h

/-! ## The result at each place -/

/-- A string under a listed name is cut to length. -/
theorem at?_shortenUnder_text {text : String} (h : v.TextUnder o.keys p text) :
    (shortenUnder o v).at? p = some (.str (o.apply text)) := by
  induction p generalizing v with
  | nil => exact absurd h.listed not_standsUnder_nil
  | cons i p ih =>
    cases p with
    | nil => rw [at?_cons, part_shortenUnder_text h]; rfl
    | cons j p =>
      obtain ⟨u, hu, htext⟩ := exists_of_at?_cons h.text_at
      obtain ⟨u', hu', hlisted⟩ := standsUnder_cons_cons_iff.1 h.listed
      obtain rfl : u = u' := Option.some.inj (hu.symm.trans hu')
      have hno : ¬ ∃ text, v.TextUnder o.keys [i] text := by
        rintro ⟨s, hs⟩
        have hstr : u = .str s := by simpa [hu] using hs.text_at
        rw [hstr, at?_str_cons] at htext
        cases htext
      rw [at?_cons, part_shortenUnder hu hno]
      exact ih ⟨htext, hlisted⟩

/-- At every other place the node stays. -/
theorem node_at?_shortenUnder (h : ¬ ∃ text, v.TextUnder o.keys p text) :
    ((shortenUnder o v).at? p).map node = (v.at? p).map node := by
  induction p generalizing v with
  | nil => exact congrArg some (node_shortenUnder o v)
  | cons i p ih =>
    cases hu : v.parts[i]? with
    | none =>
      have hlength : (shortenUnder o v).parts.length = v.parts.length := by
        rw [length_parts, length_parts, node_shortenUnder]
      have hnone : (shortenUnder o v).parts[i]? = none := by
        rw [List.getElem?_eq_none_iff] at hu ⊢
        omega
      rw [at?_cons, at?_cons, hu, hnone]
    | some u =>
      by_cases htext : ∃ text, v.TextUnder o.keys [i] text
      · obtain ⟨text, htext⟩ := htext
        obtain rfl : u = .str text := by simpa [hu] using htext.text_at
        cases p with
        | nil => exact absurd ⟨text, htext⟩ h
        | cons j p =>
          rw [at?_cons, at?_cons, hu, part_shortenUnder_text htext, Option.bind_some,
            Option.bind_some, at?_str_cons, at?_str_cons]
      · rw [at?_cons, at?_cons, hu, part_shortenUnder hu htext]
        refine ih fun ⟨text, hp⟩ => ?_
        cases p with
        | nil => exact not_standsUnder_nil hp.listed
        | cons j p =>
          exact h ⟨text, by rw [at?_cons, hu]; exact hp.text_at,
            standsUnder_cons_cons_iff.2 ⟨u, hu, hp.listed⟩⟩

/-- A string in an array stays, whatever the array is under. -/
lemma at?_shortenUnder_item {items : List Json} {i : Nat} {text : String}
    (hitems : v.at? p = some (.arr items)) (hi : items[i]? = some (.str text)) :
    (shortenUnder o v).at? (p ++ [i]) = some (.str text) := by
  have hat : v.at? (p ++ [i]) = some (.str text) := by
    rw [at?_append, hitems, Option.bind_some, at?_cons, parts, hi]
    rfl
  have hno : ¬ ∃ s, v.TextUnder o.keys (p ++ [i]) s := by
    rintro ⟨s, -, q, j, members, n, u, hq, hobject, -⟩
    obtain ⟨rfl, -⟩ := List.append_inj' hq rfl
    rw [hitems] at hobject
    cases hobject
  have hnode := node_at?_shortenUnder hno
  rw [hat] at hnode
  obtain ⟨u, hu, hstr⟩ := Option.map_eq_some_iff.1 hnode
  rw [hu, node_eq_str_iff.1 hstr]

/-! ## Values that fit -/

/-- No string under a listed name is too long. -/
def Fits (o : ShortenOptions) (v : Json) : Prop :=
  ∀ p text, v.TextUnder o.keys p text → text.length ≤ o.maxLength

lemma length_apply_le (o : ShortenOptions) (text : String) :
    (o.apply text).length ≤ o.maxLength := by
  by_cases hfits : text.length ≤ o.maxLength
  · rw [ShortenOptions.apply, shorten_of_le hfits]
    exact hfits
  · exact Nat.le_of_eq (length_shorten (Nat.lt_of_not_le hfits))

/-- No object is a string, so shortening keeps the places under listed names. -/
lemma standsUnder_shortenUnder_iff :
    (shortenUnder o v).StandsUnder o.keys p ↔ v.StandsUnder o.keys p := by
  have hobject : ∀ q names, ((shortenUnder o v).at? q).map node = some (.obj names) ↔
      (v.at? q).map node = some (.obj names) := by
    intro q names
    by_cases hq : ∃ text, v.TextUnder o.keys q text
    · obtain ⟨text, htext⟩ := hq
      rw [at?_shortenUnder_text htext, htext.text_at]
      simp [node]
    · rw [node_at?_shortenUnder hq]
  simp only [standsUnder_iff_node, hobject]

/-- The strings under listed names in a shortened value are those that were there before, cut to
length. -/
lemma textUnder_shortenUnder_iff {text : String} :
    (shortenUnder o v).TextUnder o.keys p text ↔
      ∃ before, v.TextUnder o.keys p before ∧ o.apply before = text := by
  constructor
  · rintro ⟨htext, hunder⟩
    by_cases hp : ∃ s, v.TextUnder o.keys p s
    · obtain ⟨s, hs⟩ := hp
      rw [at?_shortenUnder_text hs] at htext
      exact ⟨s, hs, Json.str.inj (Option.some.inj htext)⟩
    · have hnode := node_at?_shortenUnder hp
      rw [htext] at hnode
      obtain ⟨u, hu, hstr⟩ := Option.map_eq_some_iff.1 hnode.symm
      rw [node_eq_str_iff.1 hstr] at hu
      exact absurd ⟨text, hu, standsUnder_shortenUnder_iff.1 hunder⟩ hp
  · rintro ⟨s, hs, rfl⟩
    exact ⟨at?_shortenUnder_text hs, standsUnder_shortenUnder_iff.2 hs.listed⟩

lemma fits_shortenUnder (o : ShortenOptions) (v : Json) : (shortenUnder o v).Fits o := by
  intro p text htext
  obtain ⟨before, -, rfl⟩ := textUnder_shortenUnder_iff.1 htext
  exact length_apply_le o before

/-- Shortening leaves alone what fits, and nothing else. -/
theorem shortenUnder_eq_self_iff : shortenUnder o v = v ↔ v.Fits o := by
  constructor
  · intro h
    rw [← h]
    exact fits_shortenUnder o v
  · intro hfits
    refine ext_at? fun p => ?_
    by_cases hp : ∃ text, v.TextUnder o.keys p text
    · obtain ⟨text, htext⟩ := hp
      have hsame : o.apply text = text := shorten_of_le (hfits p text htext)
      rw [at?_shortenUnder_text htext, htext.text_at, hsame]
    · exact node_at?_shortenUnder hp

end Json

namespace Schema

variable {s : Schema} {o : ShortenOptions}

/-! ## Schemas -/

/-- Setting one definition after the other leaves the last state for every entity that is set. -/
lemma find?_foldl_insert (f : Json → Json) {ds : List (Entity × Json)}
    (hds : ∀ d ∈ ds, s.find? d.1 = some d.2) (t : Schema) (e : Entity) :
    (ds.foldl (fun t d => t.insert d.1 (f d.2)) t).find? e =
      if e ∈ ds.map Prod.fst then (s.find? e).map f else t.find? e := by
  induction ds generalizing t with
  | nil => simp
  | cons d ds ih =>
    rw [List.foldl_cons, ih (fun d' hd' => hds d' (List.mem_cons_of_mem d hd')), find?_insert]
    by_cases he : e = d.1
    · subst he
      simp [hds d List.mem_cons_self]
    · rw [if_neg he]
      simp only [List.map_cons, List.mem_cons, he, false_or]

/-- Setting the changed definition of every entity gives the changed schema. -/
lemma foldl_insert_entities (f : Json → Json) (s : Schema) :
    s.entities.foldl (fun t d => t.insert d.1 (f d.2)) ∅ = s.map f := by
  refine ext_find? fun e => ?_
  rw [find?_foldl_insert f (fun d hd => mem_entities.1 hd), find?_map, find?_empty]
  split
  · rfl
  · next he =>
    cases hfind : s.find? e with
    | none => rfl
    | some definition => exact absurd (List.mem_map.2 ⟨_, mem_entities.2 hfind, rfl⟩) he

lemma entitySet_shorten (s : Schema) (o : ShortenOptions) :
    (s.shorten o).entitySet = s.entitySet := by
  refine EntitySet.ext_mem fun e => ?_
  rw [mem_entitySet, mem_entitySet, contains_shorten]

lemma all_fits_shorten (s : Schema) (o : ShortenOptions) : (s.shorten o).All (Json.Fits o) := by
  intro e definition hfind
  rw [find?_shorten] at hfind
  obtain ⟨source, -, rfl⟩ := Option.map_eq_some_iff.1 hfind
  exact Json.fits_shortenUnder o source

lemma shorten_eq_self_iff : s.shorten o = s ↔ s.All (Json.Fits o) := by
  constructor
  · intro h
    rw [← h]
    exact all_fits_shorten s o
  · intro hfits
    refine ext_find? fun e => ?_
    rw [find?_shorten]
    cases hfind : s.find? e with
    | none => rfl
    | some definition =>
      rw [Option.map_some, Json.shortenUnder_eq_self_iff.2 (hfits e definition hfind)]

/-- Under a listed name no string of a shortened schema is too long, at any depth of any definition,
and shortening leaves a schema alone exactly if this is so.  So shortening once more changes
nothing. -/
theorem shorten_settles (s : Schema) (o : ShortenOptions) :
    (∀ e definition p text, (s.shorten o).find? e = some definition →
      definition.TextUnder o.keys p text → text.length ≤ o.maxLength) ∧
    (s.shorten o).shorten o = s.shorten o ∧
    (s.shorten o = s ↔ s.All (Json.Fits o)) := by
  refine ⟨?_, shorten_eq_self_iff.2 (all_fits_shorten s o), shorten_eq_self_iff⟩
  intro e definition p text hfind htext
  exact all_fits_shorten s o e definition hfind p text htext

end Schema

/-- Shortening a value in place ends, in whatever order the pending places are taken, and it stops
only when none is left.  The copy is then the value shortened by recursion.  Place by place this is
the value itself with the strings cut to length that stand directly under listed names: any other
place keeps its node, so the shape, the names and all other scalars stay, the strings in arrays and
a string that is the whole value among them.  A schema is shortened by doing this to each of its
definitions, and keeps its entities. -/
theorem Json.shortenUnder_exact (o : ShortenOptions) :
    (WellFounded fun w' w => RewriteTurn o w w') ∧
    (∀ w, (∃ w', RewriteTurn o w w') ↔ w.pending ≠ []) ∧
    (∀ v,
      (∃ w, Relation.ReflTransGen (RewriteTurn o) (.start v) w ∧ w.pending = []) ∧
      (∀ w, Relation.ReflTransGen (RewriteTurn o) (.start v) w → w.pending = [] →
        w.copy = shortenUnder o v) ∧
      (∀ p text, v.TextUnder o.keys p text →
        (shortenUnder o v).at? p = some (.str (SchemaCut.shorten text o.maxLength o.fill))) ∧
      (∀ p, (¬ ∃ text, v.TextUnder o.keys p text) →
        ((shortenUnder o v).at? p).map node = (v.at? p).map node) ∧
      ∀ p items i text, v.at? p = some (.arr items) → items[i]? = some (.str text) →
        (shortenUnder o v).at? (p ++ [i]) = some (.str text)) ∧
    (∀ text, shortenUnder o (.str text) = .str text) ∧
    ∀ s : Schema,
      s.entities.foldl (fun t d => t.insert d.1 (shortenUnder o d.2)) ∅ = s.shorten o ∧
      (s.shorten o).entitySet = s.entitySet ∧
      ∀ e, (s.shorten o).find? e = (s.find? e).map (shortenUnder o) := by
  refine ⟨rewriteTurn_wellFounded, fun w => exists_rewriteTurn_iff, fun v =>
    ⟨exists_run o _, fun w => copy_of_run, fun p text => at?_shortenUnder_text,
      fun p => node_at?_shortenUnder, fun p items i text => at?_shortenUnder_item⟩,
    fun text => rfl, fun s =>
      ⟨Schema.foldl_insert_entities _ s, s.entitySet_shorten o, s.find?_shorten o⟩⟩

end SchemaCut
