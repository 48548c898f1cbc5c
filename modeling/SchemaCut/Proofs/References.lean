import Mathlib.Logic.Basic
import Mathlib.Logic.Relation
import Mathlib.Tactic.Lemma
import SchemaCut.References

/-!
# What a search for references finds

A value refers to what its strings are tokens of.  `HasLeaf` says which strings a value has: the
value itself, or a string of one of its parts, at any depth.  Names of members are no strings of the
value.

`Json.collectReferences` looks for them with a stack.  A `Scan` is such a search between two turns,
and `ScanTurn` says what a turn may do: it takes the value on top of the stack, keeps the entity
that the value is a token of, and puts the parts of the value on the stack, in whatever order.  An
array or an object makes the stack longer, but the values in all that is pending become fewer, so
the turns end.  What carries the result through them is `Finds`: what is found already together
with what the pending values still mention stays the same from turn to turn.

* `scanTurn_wellFounded` : no search goes on for ever.
* `Scan.finds_of_run` : no turn loses an entity, and none adds one.
* `mem_references_iff_mentions` : the references of a value are what its strings are tokens of.
* `references_exact` : all of this, for every order in which a search may go.
-/

namespace SchemaCut
namespace Json

/-! ## Parts -/

lemma mem_memberValues_iff {v : Json} {ms : List (String × Json)} :
    v ∈ memberValues ms ↔ ∃ n, (n, v) ∈ ms := by
  simp [memberValues]

/-- The values directly in a value. -/
def parts : Json → List Json
  | .arr items => items
  | .obj members => memberValues members
  | .null | .bool _ | .num _ | .str _ => []

/-- Induction from the parts of a value to the value. -/
@[elab_as_elim]
lemma induct_parts {P : Json → Prop} (step : ∀ v, (∀ u ∈ v.parts, P u) → P v) (v : Json) : P v := by
  induction v using induct with
  | null => exact step _ (by simp [parts])
  | bool b => exact step _ (by simp [parts])
  | num n => exact step _ (by simp [parts])
  | str s => exact step _ (by simp [parts])
  | arr items ih => exact step _ ih
  | obj members ih =>
    refine step _ fun u hu => ?_
    obtain ⟨n, hmem⟩ := mem_memberValues_iff.1 hu
    exact ih (n, u) hmem

lemma weight_eq_parts (v : Json) : v.weight = weightItems v.parts + 1 := by
  cases v with
  | arr items => rfl
  | obj members => simp [weight, parts]
  | null | bool b | num n | str s => rfl

/-! ## Strings -/

/-- A string of a value: the value itself, or a string of an element or of the value of a member. -/
inductive HasLeaf (s : String) : Json → Prop
  | self : HasLeaf s (.str s)
  | item {v : Json} {items : List Json} (hmem : v ∈ items) (h : HasLeaf s v) :
      HasLeaf s (.arr items)
  | member {n : String} {v : Json} {members : List (String × Json)} (hmem : (n, v) ∈ members)
      (h : HasLeaf s v) : HasLeaf s (.obj members)

lemma hasLeaf_iff {v : Json} {s : String} :
    v.HasLeaf s ↔ v = .str s ∨ ∃ u ∈ v.parts, u.HasLeaf s := by
  constructor
  · rintro (_ | ⟨hmem, h⟩ | ⟨hmem, h⟩)
    · exact .inl rfl
    · exact .inr ⟨_, hmem, h⟩
    · exact .inr ⟨_, mem_memberValues_iff.2 ⟨_, hmem⟩, h⟩
  · rintro (rfl | ⟨u, hu, h⟩)
    · exact .self
    · cases v with
      | arr items => exact .item hu h
      | obj members =>
        obtain ⟨n, hmem⟩ := mem_memberValues_iff.1 hu
        exact .member hmem h
      | null | bool b | num n | str s => exact absurd hu List.not_mem_nil

/-- The entity that a value is a token of, if it is a string and a token. -/
def token? : Json → Option Entity
  | .str s => Reference.decode? s
  | .arr _ | .obj _ | .null | .bool _ | .num _ => none

/-- One of the strings of the value is a token of the entity. -/
def Mentions (v : Json) (x : Entity) : Prop := ∃ s, v.HasLeaf s ∧ Reference.decode? s = some x

lemma token?_eq_some_iff {v : Json} {x : Entity} :
    v.token? = some x ↔ ∃ s, v = .str s ∧ Reference.decode? s = some x := by
  cases v <;> simp [token?]

/-- What a value mentions it is a token of, or one of its parts mentions it. -/
lemma mentions_iff {v : Json} {x : Entity} :
    v.Mentions x ↔ v.token? = some x ∨ ∃ u ∈ v.parts, u.Mentions x := by
  simp only [Mentions, token?_eq_some_iff]
  constructor
  · rintro ⟨s, hs, hx⟩
    exact (hasLeaf_iff.1 hs).imp (fun h => ⟨s, h, hx⟩) fun ⟨u, hu, h⟩ => ⟨u, hu, s, h, hx⟩
  · rintro (⟨s, h, hx⟩ | ⟨u, hu, s, h, hx⟩)
    · exact ⟨s, hasLeaf_iff.2 (.inl h), hx⟩
    · exact ⟨s, hasLeaf_iff.2 (.inr ⟨u, hu, h⟩), hx⟩

/-! ## The turns of a search -/

/-- A search between two turns: the values on the stack, the top one first, and what is found. -/
structure Scan where
  pending : List Json
  found : EntitySet

/-- What is found once a value has been looked at. -/
def noted (found : EntitySet) (v : Json) : EntitySet :=
  match v.token? with
  | some e => found.insert e
  | none => found

lemma mem_noted_iff {found : EntitySet} {v : Json} {x : Entity} :
    x ∈ noted found v ↔ v.token? = some x ∨ x ∈ found := by
  rw [noted]
  cases v.token? with
  | none => simp
  | some e => simp [eq_comm]

/-- One turn of a search: the top value is looked at, and its parts take its place in any order. -/
def ScanTurn (w w' : Scan) : Prop :=
  ∃ v rest, w.pending = v :: rest ∧ w'.pending.Perm (v.parts ++ rest) ∧ w'.found = noted w.found v

lemma scanTurn_cons (v : Json) (rest : List Json) (found : EntitySet) :
    ScanTurn ⟨v :: rest, found⟩ ⟨v.parts ++ rest, noted found v⟩ :=
  ⟨v, rest, rfl, .refl _, rfl⟩

lemma weightItems_perm {vs ws : List Json} (h : vs.Perm ws) : weightItems vs = weightItems ws := by
  induction h with
  | nil => rfl
  | cons v _ ih => rw [weightItems, weightItems, ih]
  | swap v w vs =>
    simp only [weightItems]
    omega
  | trans _ _ ih ih' => exact ih.trans ih'

/-- The parts of a value weigh less than the value, however many they are. -/
lemma ScanTurn.weight_lt {w w' : Scan} (h : ScanTurn w w') :
    weightItems w'.pending < weightItems w.pending := by
  obtain ⟨v, rest, hpending, hpushed, -⟩ := h
  rw [hpending, weightItems_perm hpushed, weightItems_append, weightItems, weight_eq_parts]
  omega

lemma scanTurn_wellFounded : WellFounded fun w' w => ScanTurn w w' :=
  Subrelation.wf (fun h => h.weight_lt) (measure fun w : Scan => weightItems w.pending).wf

/-- A search stops when its stack is empty, and not before. -/
lemma exists_scanTurn_iff {w : Scan} : (∃ w', ScanTurn w w') ↔ w.pending ≠ [] := by
  constructor
  · rintro ⟨w', v, rest, hpending, -⟩
    simp [hpending]
  · obtain ⟨pending, found⟩ := w
    cases pending with
    | nil => exact fun hne => absurd rfl hne
    | cons v rest => exact fun _ => ⟨_, scanTurn_cons v rest found⟩

/-- What a search has found or will find. -/
def Scan.Finds (w : Scan) (x : Entity) : Prop := x ∈ w.found ∨ ∃ u ∈ w.pending, u.Mentions x

lemma ScanTurn.finds_iff {w w' : Scan} (h : ScanTurn w w') {x : Entity} :
    w'.Finds x ↔ w.Finds x := by
  obtain ⟨v, rest, hpending, hpushed, hfound⟩ := h
  have htop : (∃ u ∈ w.pending, u.Mentions x) ↔
      v.token? = some x ∨ (∃ u ∈ v.parts, u.Mentions x) ∨ ∃ u ∈ rest, u.Mentions x := by
    rw [hpending, ← or_assoc, ← mentions_iff]
    simp
  have hnext : (∃ u ∈ w'.pending, u.Mentions x) ↔
      (∃ u ∈ v.parts, u.Mentions x) ∨ ∃ u ∈ rest, u.Mentions x := by
    simp only [hpushed.mem_iff, List.mem_append, or_and_right, exists_or]
  rw [Scan.Finds, Scan.Finds, htop, hnext, hfound, mem_noted_iff, or_comm (a := v.token? = some x),
    or_assoc]

lemma Scan.finds_of_run {w w' : Scan} (hrun : Relation.ReflTransGen ScanTurn w w') {x : Entity} :
    w'.Finds x ↔ w.Finds x := by
  induction hrun with
  | refl => rfl
  | tail _ ht ih => rw [ht.finds_iff, ih]

/-- With nothing pending a search from one value has found what the value mentions. -/
lemma mem_found_of_run {v : Json} {found : EntitySet}
    (hrun : Relation.ReflTransGen ScanTurn ⟨[v], ∅⟩ ⟨[], found⟩) {x : Entity} :
    x ∈ found ↔ v.Mentions x := by
  have h := Scan.finds_of_run hrun (x := x)
  simpa [Scan.Finds] using h

/-- Looking through the pending values is a run of turns. -/
lemma collectReferences_run (pending : List Json) (found : EntitySet) :
    Relation.ReflTransGen ScanTurn ⟨pending, found⟩ ⟨[], collectReferences pending found⟩ := by
  fun_induction collectReferences pending found with
  | case1 found => exact .refl
  | case2 found s rest e hdecode ih =>
    have hturn := scanTurn_cons (.str s) rest found
    simp only [noted, token?, hdecode] at hturn
    exact .head hturn ih
  | case3 found s rest hdecode ih =>
    have hturn := scanTurn_cons (.str s) rest found
    simp only [noted, token?, hdecode] at hturn
    exact .head hturn ih
  | case4 found items rest ih => exact .head (scanTurn_cons (.arr items) rest found) ih
  | case5 found members rest ih => exact .head (scanTurn_cons (.obj members) rest found) ih
  | case6 found rest ih => exact .head (scanTurn_cons .null rest found) ih
  | case7 found b rest ih => exact .head (scanTurn_cons (.bool b) rest found) ih
  | case8 found n rest ih => exact .head (scanTurn_cons (.num n) rest found) ih

lemma references_run (v : Json) :
    Relation.ReflTransGen ScanTurn ⟨[v], ∅⟩ ⟨[], v.references⟩ :=
  collectReferences_run [v] ∅

theorem mem_references_iff_mentions {v : Json} {x : Entity} : x ∈ v.references ↔ v.Mentions x :=
  mem_found_of_run v.references_run

/-! ## Names of members -/

mutual

/-- A value with the name of every member changed. -/
def rename (f : String → String) : Json → Json
  | .arr items => .arr (renameItems f items)
  | .obj members => .obj (renameMembers f members)
  | .null => .null
  | .bool b => .bool b
  | .num n => .num n
  | .str s => .str s
termination_by structural v => v

/-- `rename` at every element. -/
def renameItems (f : String → String) : List Json → List Json
  | [] => []
  | v :: vs => rename f v :: renameItems f vs
termination_by structural vs => vs

/-- The members with their names changed, and `rename` at every value. -/
def renameMembers (f : String → String) : List (String × Json) → List (String × Json)
  | [] => []
  | (n, v) :: ms => (f n, rename f v) :: renameMembers f ms
termination_by structural ms => ms

end

lemma renameItems_eq_map (f : String → String) (vs : List Json) :
    renameItems f vs = vs.map (rename f) := by
  induction vs with
  | nil => rfl
  | cons v vs ih => rw [renameItems, ih, List.map_cons]

lemma memberValues_renameMembers (f : String → String) (ms : List (String × Json)) :
    memberValues (renameMembers f ms) = (memberValues ms).map (rename f) := by
  induction ms with
  | nil => rfl
  | cons m ms ih =>
    obtain ⟨n, v⟩ := m
    simpa [memberValues, renameMembers] using ih

lemma parts_rename (f : String → String) (v : Json) :
    (v.rename f).parts = v.parts.map (rename f) := by
  cases v with
  | arr items => exact renameItems_eq_map f items
  | obj members => exact memberValues_renameMembers f members
  | null | bool b | num n | str s => rfl

lemma token?_rename (f : String → String) (v : Json) : (v.rename f).token? = v.token? := by
  cases v <;> rfl

lemma mentions_rename_iff {f : String → String} {v : Json} {x : Entity} :
    (v.rename f).Mentions x ↔ v.Mentions x := by
  induction v using induct_parts with
  | step v ih =>
    rw [mentions_iff, mentions_iff (v := v), token?_rename, parts_rename]
    simp only [List.mem_map, exists_exists_and_eq_and]
    exact or_congr_right (exists_congr fun u => and_congr_right fun hu => ih u hu)

/-- A search for references ends, in whatever order it takes what is pending, and it stops only when
nothing is.  From a value it comes to the references of the value in one order and in every other.
They are the entities that a string of the value is a token of, and names of members have no part in
them. -/
theorem references_exact :
    (WellFounded fun w' w => ScanTurn w w') ∧
    (∀ w, (∃ w', ScanTurn w w') ↔ w.pending ≠ []) ∧
    ∀ v : Json,
      Relation.ReflTransGen ScanTurn ⟨[v], ∅⟩ ⟨[], v.references⟩ ∧
      (∀ w, Relation.ReflTransGen ScanTurn ⟨[v], ∅⟩ w → w.pending = [] → w.found = v.references) ∧
      (∀ x, x ∈ v.references ↔ ∃ s, v.HasLeaf s ∧ Reference.decode? s = some x) ∧
      ∀ f, (v.rename f).references = v.references := by
  refine ⟨scanTurn_wellFounded, fun w => exists_scanTurn_iff, fun v =>
    ⟨v.references_run, ?_, fun x => mem_references_iff_mentions, fun f => ?_⟩⟩
  · rintro ⟨pending, found⟩ hrun rfl
    refine EntitySet.ext_mem fun x => ?_
    rw [mem_found_of_run hrun, mem_references_iff_mentions]
  · refine EntitySet.ext_mem fun x => ?_
    rw [mem_references_iff_mentions, mem_references_iff_mentions, mentions_rename_iff]

end Json
end SchemaCut
