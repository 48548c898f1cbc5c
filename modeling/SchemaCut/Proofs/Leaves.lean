import Mathlib.Tactic.Lemma
import SchemaCut.Shortening
import SchemaCut.Proofs.References

/-!
# The strings of a definition

References are read from the strings of a definition and shortening rewrites some of them, so both
are described by the list of strings in the order in which they are written.  `Json.strings` is that
list.  `Json.leaves` is the same list with a mark at each string that stands directly under a listed
name, which is where shortening takes hold.

* `mem_references_iff` : a definition refers to what its strings are tokens of, and to nothing else.
* `strings_shortenUnder` : shortening rewrites the marked strings, each for itself, and keeps all
  else.
-/

namespace SchemaCut
namespace Json

/-! ## Strings -/

mutual

/-- The strings in a value. -/
def strings : Json → List String
  | .str s => [s]
  | .arr items => stringsItems items
  | .obj members => stringsMembers members
  | .null | .bool _ | .num _ => []
termination_by structural v => v

/-- The strings in a list of values. -/
def stringsItems : List Json → List String
  | [] => []
  | v :: vs => strings v ++ stringsItems vs
termination_by structural vs => vs

/-- The strings in the values of members. -/
def stringsMembers : List (String × Json) → List String
  | [] => []
  | (_, v) :: ms => strings v ++ stringsMembers ms
termination_by structural ms => ms

end

lemma stringsItems_memberValues (ms : List (String × Json)) :
    stringsItems (memberValues ms) = stringsMembers ms := by
  induction ms with
  | nil => rfl
  | cons m ms ih =>
    obtain ⟨n, v⟩ := m
    simp only [memberValues, List.map_cons, stringsItems, stringsMembers] at ih ⊢
    rw [ih]

lemma mem_stringsItems_iff {vs : List Json} {s : String} :
    s ∈ stringsItems vs ↔ ∃ v ∈ vs, s ∈ v.strings := by
  induction vs with
  | nil => simp [stringsItems]
  | cons v vs ih => simp [stringsItems, ih]

lemma mem_strings_iff_parts {v : Json} {s : String} :
    s ∈ v.strings ↔ v = .str s ∨ ∃ u ∈ v.parts, s ∈ u.strings := by
  cases v with
  | str t => simp [strings, parts, eq_comm]
  | arr items => simp [strings, parts, mem_stringsItems_iff]
  | obj members => simp [strings, parts, ← stringsItems_memberValues, mem_stringsItems_iff]
  | null | bool b | num n => simp [strings, parts]

lemma mem_strings_iff {v : Json} {s : String} : s ∈ v.strings ↔ v.HasLeaf s := by
  induction v using induct_parts with
  | step v ih =>
    rw [mem_strings_iff_parts, hasLeaf_iff]
    exact or_congr_right (exists_congr fun u => and_congr_right fun hu => ih u hu)

theorem mem_references_iff {v : Json} {x : Entity} :
    x ∈ v.references ↔ ∃ s ∈ v.strings, Reference.decode? s = some x := by
  simp only [mem_references_iff_mentions, Mentions, mem_strings_iff]

/-! ## Strings under listed names -/

/-- A string in a value. -/
structure Leaf where
  text : String
  /-- Whether the string stands directly under a listed name. -/
  listed : Bool

mutual

/-- The strings in a value; `listed` says whether the value itself stands under a listed name. -/
def leaves (keys : List String) (listed : Bool) : Json → List Leaf
  | .str s => [⟨s, listed⟩]
  | .arr items => leavesItems keys items
  | .obj members => leavesMembers keys members
  | .null | .bool _ | .num _ => []
termination_by structural v => v

/-- The strings in the elements of an array, which stand under no name. -/
def leavesItems (keys : List String) : List Json → List Leaf
  | [] => []
  | v :: vs => leaves keys false v ++ leavesItems keys vs
termination_by structural vs => vs

/-- The strings in the values of members. -/
def leavesMembers (keys : List String) : List (String × Json) → List Leaf
  | [] => []
  | (n, v) :: ms => leaves keys (n ∈ keys) v ++ leavesMembers keys ms
termination_by structural ms => ms

end

mutual

/-- The mark is all that `leaves` adds. -/
lemma map_text_leaves (keys : List String) (listed : Bool) (v : Json) :
    (v.leaves keys listed).map Leaf.text = v.strings := by
  cases v with
  | str s => rfl
  | arr items => exact map_text_leavesItems keys items
  | obj members => exact map_text_leavesMembers keys members
  | null | bool b | num n => rfl
termination_by structural v

lemma map_text_leavesItems (keys : List String) (vs : List Json) :
    (leavesItems keys vs).map Leaf.text = stringsItems vs := by
  cases vs with
  | nil => rfl
  | cons v vs =>
    rw [leavesItems, List.map_append, map_text_leaves keys false v, map_text_leavesItems keys vs,
      stringsItems]
termination_by structural vs

lemma map_text_leavesMembers (keys : List String) (ms : List (String × Json)) :
    (leavesMembers keys ms).map Leaf.text = stringsMembers ms := by
  match ms with
  | [] => rfl
  | (n, v) :: ms =>
    rw [leavesMembers, List.map_append, map_text_leaves keys (n ∈ keys) v,
      map_text_leavesMembers keys ms, stringsMembers]
termination_by structural ms

end

/-! ## Shortening -/

/-- What shortening writes for a string. -/
def Leaf.written (o : ShortenOptions) (l : Leaf) : String :=
  if l.listed then o.apply l.text else l.text

/-- A member that is a string is rewritten under a listed name only; any other is gone through. -/
lemma shortenMembers_cons (o : ShortenOptions) (n : String) (v : Json)
    (ms : List (String × Json)) :
    shortenMembers o ((n, v) :: ms) =
      (n, match v with
        | .str s => .str (Leaf.written o ⟨s, n ∈ o.keys⟩)
        | v => shortenUnder o v) :: shortenMembers o ms := by
  cases v with
  | str s =>
    by_cases hn : n ∈ o.keys
    · simp [shortenMembers, Leaf.written, hn]
    · simp [shortenMembers, shortenUnder, Leaf.written, hn]
  | null | bool b | num n | arr items | obj members => rfl

lemma shortenItems_eq_map (o : ShortenOptions) (vs : List Json) :
    shortenItems o vs = vs.map (shortenUnder o) := by
  induction vs with
  | nil => rfl
  | cons v vs ih => rw [shortenItems, ih, List.map_cons]

/-- A member after shortening: its name stays, and a string is a string. -/
def shortenMember (o : ShortenOptions) (m : String × Json) : String × Json :=
  (m.1, match m.2 with
    | .str s => .str (Leaf.written o ⟨s, m.1 ∈ o.keys⟩)
    | v => shortenUnder o v)

lemma shortenMembers_eq_map (o : ShortenOptions) (ms : List (String × Json)) :
    shortenMembers o ms = ms.map (shortenMember o) := by
  induction ms with
  | nil => rfl
  | cons m ms ih =>
    obtain ⟨n, v⟩ := m
    rw [shortenMembers_cons, ih]
    rfl

mutual

lemma strings_shortenUnder (o : ShortenOptions) (v : Json) :
    (shortenUnder o v).strings = (v.leaves o.keys false).map (Leaf.written o) := by
  cases v with
  | str s => rfl
  | arr items => exact stringsItems_shortenItems o items
  | obj members => exact stringsMembers_shortenMembers o members
  | null | bool b | num n => rfl
termination_by structural v

lemma stringsItems_shortenItems (o : ShortenOptions) (vs : List Json) :
    stringsItems (shortenItems o vs) = (leavesItems o.keys vs).map (Leaf.written o) := by
  cases vs with
  | nil => rfl
  | cons v vs =>
    rw [shortenItems, stringsItems, strings_shortenUnder o v, stringsItems_shortenItems o vs,
      leavesItems, List.map_append]
termination_by structural vs

lemma stringsMembers_shortenMembers (o : ShortenOptions) (ms : List (String × Json)) :
    stringsMembers (shortenMembers o ms) = (leavesMembers o.keys ms).map (Leaf.written o) := by
  match ms with
  | [] => rfl
  | (n, v) :: ms =>
    rw [shortenMembers_cons, stringsMembers, stringsMembers_shortenMembers o ms, leavesMembers,
      List.map_append]
    congr 1
    -- only a string is treated by the name that it stands under
    cases v with
    | str s => rfl
    | arr items => exact stringsItems_shortenItems o items
    | obj members => exact stringsMembers_shortenMembers o members
    | null | bool b | num n => rfl
termination_by structural ms

end

/-- A shortened definition refers to what its strings are tokens of after shortening. -/
lemma mem_references_shortenUnder_iff {o : ShortenOptions} {v : Json} {x : Entity} :
    x ∈ (shortenUnder o v).references ↔
      ∃ l ∈ v.leaves o.keys false, Reference.decode? (l.written o) = some x := by
  simp only [mem_references_iff, strings_shortenUnder, List.mem_map, exists_exists_and_eq_and]

lemma mem_references_of_leaf {keys : List String} {v : Json} {l : Leaf}
    (hl : l ∈ v.leaves keys false) {x : Entity} (hx : Reference.decode? l.text = some x) :
    x ∈ v.references := by
  rw [mem_references_iff, ← map_text_leaves keys false v]
  exact ⟨l.text, List.mem_map_of_mem hl, hx⟩

end Json

end SchemaCut
