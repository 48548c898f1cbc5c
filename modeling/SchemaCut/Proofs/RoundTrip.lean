import Mathlib
import SchemaCut.Proofs.Leaves
import SchemaCut.Proofs.Reading.Written
import SchemaCut.Subset

/-!
# Emitted schemas load again

A schema that has been read can be cut, shortened and cut again, in any order and any number of
times (`Derived`), and what is written for the result is a document of it: reading the text gives
the same schema, down to the last character of every name and every string.

Reading leaves definitions that are objects, canonical, and not too deep.  Cutting keeps
definitions or leaves them out, and shortening changes strings only, so all of this is kept, and
with it the integers.

* `loaded_shortenUnder`, `integral_shortenUnder` : what shortening keeps of a definition.
* `ofText_text_of_derived` : the round trip.
-/

namespace SchemaCut

/-! ## What shortening keeps -/

namespace Json

variable {o : ShortenOptions}

/-- What holds of strings and of shortened values holds of shortened members. -/
lemma shortenMember_cases {P : Json → Prop} {m : String × Json} (hstr : ∀ s, P (.str s))
    (hvalue : P (shortenUnder o m.2)) : P (shortenMember o m).2 := by
  obtain ⟨n, v⟩ := m
  cases v with
  | str s => exact hstr _
  | null | bool b | num n | arr items | obj members => exact hvalue

lemma ascending_shortenMembers {ms : List (String × Json)} (h : Entries.Ascending ms) :
    Entries.Ascending (shortenMembers o ms) := by
  rw [shortenMembers_eq_map]
  exact List.pairwise_map.2 h

lemma bounded_shortenUnder {v : Json} {room : Nat} (h : v.Bounded room) :
    (shortenUnder o v).Bounded room := by
  induction v using Json.induct generalizing room with
  | null | bool b | num n | str s => exact h
  | arr items ih =>
    cases room with
    | zero => exact absurd h.depth_le (by simp [Json.depth])
    | succ room =>
      rw [bounded_arr_iff] at h
      rw [shortenUnder, shortenItems_eq_map, bounded_arr_iff, List.forall_mem_map]
      exact fun v hv => ih v hv (h v hv)
  | obj members ih =>
    cases room with
    | zero => exact absurd h.depth_le (by simp [Json.depth])
    | succ room =>
      rw [bounded_obj_iff] at h
      refine bounded_obj_iff.2 ⟨ascending_shortenMembers h.1, ?_⟩
      rw [shortenMembers_eq_map, List.forall_mem_map]
      exact fun m hm => shortenMember_cases (fun s => ⟨trivial, Nat.zero_le room⟩)
        (ih m hm (h.2 m hm))

lemma integral_shortenUnder {v : Json} (h : v.Integral) : (shortenUnder o v).Integral := by
  induction v using Json.induct with
  | null | bool b | num n | str s => exact h
  | arr items ih =>
    rw [integral_arr_iff] at h
    rw [shortenUnder, shortenItems_eq_map, integral_arr_iff, List.forall_mem_map]
    exact fun v hv => ih v hv (h v hv)
  | obj members ih =>
    rw [integral_obj_iff] at h
    rw [shortenUnder, shortenMembers_eq_map, integral_obj_iff, List.forall_mem_map]
    exact fun m hm => shortenMember_cases (fun s n hn => absurd hn List.not_mem_nil)
      (ih m hm (h m hm))

lemma loaded_shortenUnder {v : Json} (h : v.Loaded) : (shortenUnder o v).Loaded where
  isObject := by
    cases v with
    | obj members => rfl
    | null | bool b | num n | str s | arr items => exact absurd h.isObject Bool.false_ne_true
  bounded := bounded_shortenUnder h.bounded

end Json

/-! ## Derived schemas -/

namespace Schema

open Json

/-- What can be made of a schema by cutting and shortening. -/
inductive Derived (s : Schema) : Schema → Prop
  | self : Derived s s
  | restrict {d : Schema} (keep : EntitySet) (h : Derived s d) : Derived s (d.restrict keep)
  | shorten {d : Schema} (o : ShortenOptions) (h : Derived s d) : Derived s (d.shorten o)
  | subset {d part : Schema} (r : Request) (h : Derived s d) (hcut : d.subset r = .ok part) :
    Derived s part

section All

variable {P : Json → Prop} {s : Schema}

lemma all_empty : (∅ : Schema).All P := by
  intro e definition hfind
  rw [find?_empty] at hfind
  cases hfind

lemma All.insert (h : s.All P) {v : Json} (hv : P v) {e : Entity} : (s.insert e v).All P := by
  intro x definition hfind
  rw [find?_insert] at hfind
  split at hfind
  · cases hfind
    exact hv
  · exact h x definition hfind

lemma All.restrict (h : s.All P) (keep : EntitySet) : (s.restrict keep).All P := by
  intro e definition hfind
  rw [find?_restrict] at hfind
  split at hfind
  · exact h e definition hfind
  · cases hfind

lemma All.shorten {o : ShortenOptions} (h : s.All P) (hshorten : ∀ v, P v → P (shortenUnder o v)) :
    (s.shorten o).All P := by
  intro e definition hfind
  rw [find?_shorten, Option.map_eq_some_iff] at hfind
  obtain ⟨source, hsource, rfl⟩ := hfind
  exact hshorten source (h e source hsource)

/-- What shortening keeps of definitions holds of all derived schemas. -/
lemma All.derived {d : Schema} (h : s.All P) (hshorten : ∀ o v, P v → P (shortenUnder o v))
    (hderived : s.Derived d) : d.All P := by
  induction hderived with
  | self => exact h
  | restrict keep _ ih => exact ih.restrict keep
  | shorten o _ ih => exact ih.shorten (hshorten o)
  | subset r _ hcut ih =>
    obtain ⟨selected, -, hplain, hshortened⟩ := exists_selection_of_subset hcut
    cases hoptions : r.shorten with
    | none =>
      rw [← hplain hoptions]
      exact ih.restrict selected
    | some o =>
      rw [← hshortened o hoptions]
      exact (ih.restrict selected).shorten (hshorten o)

end All

/-! ## The round trip -/

/-- A schema of loaded definitions with integers only is read from what is written for it. -/
lemma ofText_text {s : Schema} (hloaded : s.All Loaded) (hintegral : s.All Integral)
    (layout : Layout) : ofText (s.text layout) = .ok s :=
  ofText_eq_ok_iff.2 ⟨ofDocument_written (fun e definition h => (hloaded e definition h).bounded)
    hintegral layout, fun e definition h => (hloaded e definition h).isObject⟩

/-- Document and section are the two containers around the definitions. -/
lemma depth_toJson_le {s : Schema} (hloaded : s.All Loaded) : s.toJson.depth ≤ maxDepth := by
  have hsections : ∀ k, (Json.obj (s.definitions k).entries).depth ≤ 126 := fun k =>
    (bounded_section (fun e definition h => (hloaded e definition h).bounded) k).depth_le
  rw [toJson, Json.depth, maxDepth, Nat.add_le_add_iff_right, depthMembers_le_iff,
    List.forall_mem_map]
  exact fun k _ => hsections k

/-- Whatever is derived from a schema that has been read is a valid schema that fits the reader, and
it is read again from what is written for it, if the numbers in the schema are integers. -/
theorem ofText_text_of_derived (text : String) (s d : Schema) (layout : Layout)
    (hload : ofText text = .ok s) (hintegral : s.All Integral) (hderived : s.Derived d) :
    ofText (d.text layout) = .ok d ∧
    (∀ e definition, d.find? e = some definition → definition.isObject = true) ∧
    d.toJson.depth ≤ maxDepth := by
  have hloaded := (loaded_of_ofText hload).derived (fun _ _ => loaded_shortenUnder) hderived
  have hnumbers := hintegral.derived (fun _ _ => integral_shortenUnder) hderived
  exact ⟨ofText_text hloaded hnumbers layout,
    fun e definition h => (hloaded e definition h).isObject, depth_toJson_le hloaded⟩

/-! A type with strings, numbers and an empty array, and the type that it refers to. -/

def full : Schema :=
  ((∅ : Schema).insert ⟨.type, "a"⟩ (.obj [("description", .str "tab\tquote\"bell\x07"),
    ("list", .arr [.num (.int (-1)), .num (.int 18446744073709551615), .null, .arr []]),
    ("type", .str "#/types/\u00e9")])).insert ⟨.type, "é"⟩ (.obj [])

/-- The first type and what it needs, with a description of more than ten characters shortened. -/
def fullRequest : Request :=
  { root := ⟨.type, "a"⟩, shorten := some { maxLength := 10, fill := "…" } }

def fullCut : Schema :=
  ((∅ : Schema).insert ⟨.type, "a"⟩ (.obj [("description", .str "tab\t…bell\x07"),
    ("list", .arr [.num (.int (-1)), .num (.int 18446744073709551615), .null, .arr []]),
    ("type", .str "#/types/\u00e9")])).insert ⟨.type, "é"⟩ (.obj [])

lemma full_loaded : full.All Loaded := by
  refine (all_empty.insert ⟨rfl, ?_⟩).insert ⟨rfl, ?_⟩
  · constructor
    · simp only [Canonical, CanonicalMembers, CanonicalItems, Entries.Ascending]
      decide
    · decide
  · constructor
    · simp [Canonical, CanonicalMembers, Entries.Ascending]
    · decide

lemma full_integral : full.All Integral := by
  refine (all_empty.insert ?_).insert ?_
  · simp [Integral, numbers, numbersMembers, numbersItems, Number.Integral]
  · simp [Integral, numbers, numbersMembers]

/-- A shortened cut of a schema that is loaded from a text loads from its own pretty text. -/
theorem ofText_text_fullCut :
    ofText (full.text .compact) = .ok full ∧ full.All Integral ∧ full.Derived fullCut ∧
    (ofText (fullCut.text .pretty) = .ok fullCut ∧
      (∀ e definition, fullCut.find? e = some definition → definition.isObject = true) ∧
      fullCut.toJson.depth ≤ maxDepth) := by
  have hload := ofText_text full_loaded full_integral .compact
  have hcut : full.subset fullRequest = .ok fullCut := by
    cbv
  have hderived : full.Derived fullCut := .subset fullRequest .self hcut
  exact ⟨hload, full_integral, hderived,
    ofText_text_of_derived _ full fullCut .pretty hload full_integral hderived⟩

end Schema
end SchemaCut
