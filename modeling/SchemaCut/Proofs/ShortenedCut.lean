import SchemaCut.Proofs.Cut
import SchemaCut.Proofs.RoundTrip
import SchemaCut.Proofs.Shortening
import SchemaCut.Proofs.Tokens

/-!
# References of a shortened cut

A cut is meant to be closed under references, also with its descriptions shortened.  It is not
always: a request with shortening gets the cut that it would get without, and then the descriptions
in it are cut to length, and nothing looks at their references again.  A description that keeps its
length refers to what it referred to before, and so does every string that is no description; but
head and tail of a longer one are joined by a marker that has no blank in it, and can make up a
token where free text was.  Then the cut refers to an entity of the schema that it does not have.

What is said of long descriptions here is said of those in the schema, before they are shortened; in
the cut there are none left.

* `subset_eq_shorten` : a request with shortening shortens the cut of the same request without.
* `mem_references_shortened` : a shortened definition refers to what it referred to before, and to
  what its cut texts are tokens of.
* `shortened_closed_iff` : these are the only references that can lead out of the cut, and they are
  none if each long description has a blank near one of its ends.
* `shortening_opens_cut` : a schema where one does.
-/

namespace SchemaCut

/-! ## A text cut to length -/

/-- By default a long text keeps 43 characters at each end. -/
lemma apply_default {text : String} (hlong : 99 < text.toList.length) :
    ShortenOptions.apply {} text =
      String.ofList (text.toList.take 43 ++ "<<shortened>>".toList ++
        text.toList.drop (text.toList.length - 43)) := by
  rw [String.length_toList] at hlong ⊢
  exact shorten_of_lt hlong (by decide)

namespace Json

variable {o : ShortenOptions} {v : Json} {x : Entity}

/-- A text directly under a listed name that is too long and is cut to length. -/
structure IsCutText (o : ShortenOptions) (v : Json) (text : String) : Prop where
  listed : ⟨text, true⟩ ∈ v.leaves o.keys false
  long : o.maxLength < text.toList.length

lemma IsCutText.mem_references {text : String} (h : v.IsCutText o text)
    (hx : Reference.decode? (o.apply text) = some x) : x ∈ (shortenUnder o v).references :=
  mem_references_shortenUnder_iff.2 ⟨_, h.listed, hx⟩

/-- What a shortened value refers to was a reference before, or is one since a text was cut. -/
lemma mem_references_shortened (hx : x ∈ (shortenUnder o v).references) :
    x ∈ v.references ∨
      ∃ text, v.IsCutText o text ∧ Reference.decode? (o.apply text) = some x := by
  obtain ⟨⟨text, listed⟩, hleaf, hdecode⟩ := mem_references_shortenUnder_iff.1 hx
  cases listed with
  | false => exact .inl (mem_references_of_leaf hleaf hdecode)
  | true =>
    by_cases hlong : o.maxLength < text.toList.length
    · exact .inr ⟨text, ⟨hleaf, hlong⟩, hdecode⟩
    · rw [String.length_toList] at hlong
      have hsame : o.apply text = text := shorten_of_le (Nat.not_lt.1 hlong)
      rw [Leaf.written, if_pos rfl, hsame] at hdecode
      exact .inl (mem_references_of_leaf hleaf hdecode)

/-- A blank character is among the first or the last `n` characters of a text. -/
def HasBlankEnd (n : ℕ) (text : String) : Prop :=
  ∃ c, (c ∈ text.toList.take n ∨ c ∈ text.toList.drop (text.toList.length - n)) ∧
    Text.isBlank c = true

/-- A blank near one end of a long text survives the cut, and then there is no token. -/
lemma decode?_apply_default {text : String} (hlong : 99 < text.toList.length)
    (hblank : HasBlankEnd 43 text) : Reference.decode? (ShortenOptions.apply {} text) = none := by
  obtain ⟨c, hc, hblank⟩ := hblank
  have hkept : c ∈ (ShortenOptions.apply {} text).toList := by
    rw [apply_default hlong, String.toList_ofList, List.mem_append, List.mem_append]
    exact hc.imp_left .inl
  exact Reference.decode?_eq_none_of_isBlank hkept hblank

end Json

namespace Schema

variable {s o : Schema} {r : Request} {options : ShortenOptions}

/-! ## A cut whose texts are cut -/

/-- Every reference in a part of a schema names an entity of the part, or one that the schema does
not have. -/
def ClosedIn (s o : Schema) : Prop :=
  ∀ e definition, o.find? e = some definition → ∀ x ∈ definition.references,
    o.contains x = true ∨ s.contains x = false

/-- With shortening a request gets the shortened cut of the same request without. -/
lemma subset_eq_shorten (hshorten : r.shorten = some options) (hcut : s.subset r = .ok o) :
    ∃ part, s.subset { r with shorten := none } = .ok part ∧ o = part.shorten options := by
  obtain ⟨selected, hselected, -, hshortened⟩ := exists_selection_of_subset hcut
  have hsame : s.selection { r with shorten := none } = .ok selected := hselected
  exact ⟨s.restrict selected, subset_of_selection hsame rfl, (hshortened options hshorten).symm⟩

lemma find?_shorten_eq_some {part : Schema} {e : Entity} {definition : Json} :
    (part.shorten options).find? e = some definition ↔
      ∃ source, part.find? e = some source ∧ Json.shortenUnder options source = definition := by
  rw [find?_shorten, Option.map_eq_some_iff]

/-- The references of a cut are closed before its texts are cut, and its definitions are those of
the schema. -/
lemma closedIn_of_subset {part : Schema} (hshorten : r.shorten = none)
    (hcut : s.subset r = .ok part) :
    s.ClosedIn part ∧ ∀ e, part.contains e = true → part.find? e = s.find? e := by
  have hroot := contains_root_of_subset hcut
  obtain ⟨selected, hselected, hplain, -⟩ := exists_selection_of_subset hcut
  obtain rfl := hplain hshorten
  have hfind : ∀ e, (s.restrict selected).contains e = true →
      e ∈ selected ∧ (s.restrict selected).find? e = s.find? e := fun e he => by
    have hmem := (contains_restrict_iff.1 he).1
    exact ⟨hmem, by rw [find?_restrict, if_pos hmem]⟩
  refine ⟨fun e definition hdefinition x hx => ?_, fun e he => (hfind e he).2⟩
  obtain ⟨he, hsame⟩ := hfind e (contains_of_find? hdefinition)
  rw [hsame] at hdefinition
  refine ((isCut_selection hselected hroot).closed e he definition hdefinition x hx).imp_left ?_
  intro hx
  exact contains_restrict_iff.2 ⟨hx, contains_of_mem_selection hselected hroot hx⟩

/-- A cut with its texts cut is closed under references as far as these texts let it. -/
lemma closedIn_shorten_iff {part : Schema} (hclosed : s.ClosedIn part) :
    s.ClosedIn (part.shorten options) ↔
      ∀ e definition, part.find? e = some definition → ∀ text, definition.IsCutText options text →
        ∀ x, Reference.decode? (options.apply text) = some x →
          part.contains x = true ∨ s.contains x = false := by
  simp only [ClosedIn, contains_shorten]
  constructor
  · intro h e definition hfind text htext x hx
    exact h e _ (find?_shorten_eq_some.2 ⟨definition, hfind, rfl⟩) x (htext.mem_references hx)
  · intro h e definition hfind x hx
    obtain ⟨source, hsource, rfl⟩ := find?_shorten_eq_some.1 hfind
    rcases Json.mem_references_shortened hx with hx | ⟨text, htext, hx⟩
    · exact hclosed e source hsource x hx
    · exact h e source hsource text htext x hx

/-- A cut with descriptions shortened by default options is closed under references exactly if no
description of more than 99 characters that the schema has for an entity of the cut is shortened to
a token of an entity of the schema that is outside of the cut.  None is if each of them has a blank
among its first or its last 43 characters. -/
theorem shortened_closed_iff (s o : Schema) (r : Request) (hshorten : r.shorten = some {})
    (hcut : s.subset r = .ok o) :
    (s.ClosedIn o ↔
      ∀ e definition, o.contains e = true → s.find? e = some definition →
        ∀ text, definition.IsCutText {} text →
          ∀ x, Reference.decode? (ShortenOptions.apply {} text) = some x →
            o.contains x = true ∨ s.contains x = false) ∧
    ((∀ e definition, o.contains e = true → s.find? e = some definition →
        ∀ text, definition.IsCutText {} text → Json.HasBlankEnd 43 text) →
      s.ClosedIn o) := by
  obtain ⟨part, hpart, rfl⟩ := subset_eq_shorten hshorten hcut
  obtain ⟨hclosed, hsame⟩ := closedIn_of_subset rfl hpart
  have hexact : s.ClosedIn (part.shorten {}) ↔
      ∀ e definition, (part.shorten {}).contains e = true → s.find? e = some definition →
        ∀ text, definition.IsCutText {} text →
          ∀ x, Reference.decode? (ShortenOptions.apply {} text) = some x →
            (part.shorten {}).contains x = true ∨ s.contains x = false := by
    rw [closedIn_shorten_iff hclosed]
    simp only [contains_shorten]
    constructor
    · intro h e definition he hfind
      exact h e definition (by rw [hsame e he]; exact hfind)
    · intro h e definition hfind
      have he := contains_of_find? hfind
      exact h e definition he (by rw [← hsame e he]; exact hfind)
  refine ⟨hexact, fun hblank => hexact.2 fun e definition he hfind text htext x hx => ?_⟩
  have hnone := Json.decode?_apply_default htext.long (hblank e definition he hfind text htext)
  exact absurd (hnone.symm.trans hx) (by simp)

/-! ## A description that turns into a token -/

/-- Starts with an address and ends with a token, and has words in between. -/
def linkedDescription : String :=
  "https://docs.example.com/providers/storage/ describes the schema that is kept at " ++
    "/providers/storage/v1.0.0/schema.json#/types/t"

/-- A type that is described in this way, and the type of the token. -/
def linked : Schema :=
  ((∅ : Schema).insert ⟨.type, "a"⟩ (.obj [("description", .str linkedDescription)])).insert
    ⟨.type, "t"⟩ (.obj [])

/-- The described type with its description shortened. -/
def linkedRequest : Request := { root := ⟨.type, "a"⟩, shorten := some {} }

/-- What is left of the description has no blank any more. -/
def linkedRemains : String :=
  "https://docs.example.com/providers/storage/<<shortened>>" ++
    "oviders/storage/v1.0.0/schema.json#/types/t"

/-- The described type with what is left. -/
def linkedCut : Schema :=
  (∅ : Schema).insert ⟨.type, "a"⟩ (.obj [("description", .str linkedRemains)])

lemma subset_linked : linked.subset linkedRequest = .ok linkedCut := by
  cbv

/-- What `linked` leaves open after shortening is what the cut description says. -/
theorem shortened_closed_linked :
    linkedRequest.shorten = some {} ∧ linked.subset linkedRequest = .ok linkedCut ∧
    (linked.ClosedIn linkedCut ↔
      ∀ e definition, linkedCut.contains e = true → linked.find? e = some definition →
        ∀ text, definition.IsCutText {} text →
          ∀ x, Reference.decode? (ShortenOptions.apply {} text) = some x →
            linkedCut.contains x = true ∨ linked.contains x = false) :=
  ⟨rfl, subset_linked, (shortened_closed_iff linked linkedCut linkedRequest rfl subset_linked).1⟩

lemma linked_loaded : linked.All Json.Loaded := by
  refine (all_empty.insert ⟨rfl, ?_⟩).insert ⟨rfl, ?_⟩
  · exact ⟨by simp [Json.Canonical, Json.CanonicalMembers, Entries.Ascending], by decide⟩
  · exact ⟨by simp [Json.Canonical, Json.CanonicalMembers, Entries.Ascending], by decide⟩

lemma linked_integral : linked.All Json.Integral := by
  refine (all_empty.insert ?_).insert ?_
  · simp [Json.Integral, Json.numbers, Json.numbersMembers]
  · simp [Json.Integral, Json.numbers, Json.numbersMembers]

/-- Shortening can add a reference that leads out of the cut to another entity of the schema. -/
theorem shortening_opens_cut :
    ¬ ∀ (text : String) (s o : Schema) (r : Request), ofText text = .ok s →
      r.shorten = some {} → s.subset r = .ok o → s.ClosedIn o := by
  intro h
  have hclosed := h _ linked linkedCut linkedRequest
    (ofText_text linked_loaded linked_integral .compact) rfl subset_linked
  have htoken : Reference.decode? linkedRemains = some ⟨.type, "t"⟩ := by
    decide +kernel
  have hreference : ⟨.type, "t"⟩ ∈ (Json.obj [("description", .str linkedRemains)]).references :=
    Json.mem_references_iff.2 ⟨linkedRemains, List.mem_singleton.2 rfl, htoken⟩
  rcases hclosed ⟨.type, "a"⟩ _ rfl ⟨.type, "t"⟩ hreference with hinside | hmissing
  · revert hinside
    decide
  · revert hmissing
    decide

end Schema
end SchemaCut
