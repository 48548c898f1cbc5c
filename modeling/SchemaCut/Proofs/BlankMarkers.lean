import SchemaCut.Proofs.ShortenedCut

/-!
# Markers with a blank

Head and tail of a description can make up a token when the marker between them has no blank in
it.  A marker with a blank early enough rules that out.  What is left of a text that is too long
always has the first characters of the marker in it, as many as the length allows: all of them
between head and tail, or the start of the marker alone.  So a blank among these stands in every
text that is cut, and a text with a blank is no token.

* `decode?_apply_of_blank` : a text that is cut is a token of nothing.
* `mem_references_shortenUnder_iff_of_blank` : a shortened definition refers to what the strings
  that are kept are tokens of.
* `blank_marker_closed` : shortening with such a marker adds no reference, and leaves every cut
  closed.
-/

namespace SchemaCut

variable {o : ShortenOptions} {text fill : String} {length : Nat} {x : Entity}

/-- A blank is among the characters of the marker for which there is room. -/
def ShortenOptions.HasBlankMarker (o : ShortenOptions) : Prop :=
  ∃ c ∈ o.fill.toList.take o.maxLength, Text.isBlank c = true

/-- Whatever the cut leaves of a text, it leaves the start of the marker. -/
lemma mem_shorten_of_mem_take (hlong : length < text.length) {c : Char}
    (hc : c ∈ fill.toList.take length) : c ∈ (shorten text length fill).toList := by
  by_cases hfill : length ≤ fill.length
  · rw [shorten_of_marker hlong hfill, String.toList_ofList]
    exact hc
  · obtain ⟨head, removed, tail, -, -, -, -, hresult⟩ :=
      exists_ends_of_lt hlong (Nat.lt_of_not_le hfill)
    rw [hresult, String.toList_append, String.toList_append]
    exact List.mem_append_left _ (List.mem_append_right _ (List.mem_of_mem_take hc))

lemma decode?_apply_of_blank (h : o.HasBlankMarker) (hlong : o.maxLength < text.length) :
    Reference.decode? (o.apply text) = none := by
  obtain ⟨c, hc, hblank⟩ := h
  exact Reference.decode?_eq_none_of_isBlank (mem_shorten_of_mem_take hlong hc) hblank

namespace Json

variable {v : Json}

/-- The string is not cut: it stands under no listed name, or it fits. -/
def Leaf.Kept (o : ShortenOptions) (l : Leaf) : Prop :=
  l.listed = true → l.text.length ≤ o.maxLength

lemma Leaf.Kept.written_eq {l : Leaf} (h : l.Kept o) : l.written o = l.text := by
  rw [Leaf.written]
  split
  · next hlisted => exact shorten_of_le (h hlisted)
  · rfl

lemma Leaf.decode?_written_iff (h : o.HasBlankMarker) {l : Leaf} :
    Reference.decode? (l.written o) = some x ↔ l.Kept o ∧ Reference.decode? l.text = some x := by
  by_cases hkept : l.Kept o
  · rw [hkept.written_eq, and_iff_right hkept]
  · obtain ⟨hlisted, hlong⟩ := Classical.not_imp.1 hkept
    have hnone : Reference.decode? (l.written o) = none := by
      rw [Leaf.written, if_pos hlisted]
      exact decode?_apply_of_blank h (Nat.lt_of_not_le hlong)
    simp [hnone, hkept]

/-- The references that a definition keeps are those of the strings that are not cut, and it gets no
other ones. -/
theorem mem_references_shortenUnder_iff_of_blank (h : o.HasBlankMarker) :
    x ∈ (shortenUnder o v).references ↔
      ∃ l ∈ v.leaves o.keys false, l.Kept o ∧ Reference.decode? l.text = some x := by
  rw [mem_references_shortenUnder_iff]
  exact exists_congr fun l => and_congr_right fun _ => Leaf.decode?_written_iff h

lemma mem_references_of_shortenUnder (h : o.HasBlankMarker)
    (hx : x ∈ (shortenUnder o v).references) : x ∈ v.references := by
  obtain ⟨l, hl, -, hdecode⟩ := (mem_references_shortenUnder_iff_of_blank h).1 hx
  exact mem_references_of_leaf hl hdecode

end Json

namespace Schema

lemma ClosedIn.shorten {s part : Schema} (hclosed : s.ClosedIn part) (h : o.HasBlankMarker) :
    s.ClosedIn (part.shorten o) := by
  refine (closedIn_shorten_iff hclosed).2 fun e definition hfind text htext x hx => ?_
  have hlong := htext.long
  rw [String.length_toList] at hlong
  rw [decode?_apply_of_blank h hlong] at hx
  cases hx

/-- With a blank among the characters of the marker for which there is room, no value refers to
more after shortening than before.  So whatever subset is shortened in this way, with full parents
or without, every reference in it names an entity of the subset or one that the schema does not
have. -/
theorem blank_marker_closed (options : ShortenOptions) (h : options.HasBlankMarker) :
    (∀ v x, x ∈ (Json.shortenUnder options v).references → x ∈ v.references) ∧
    ∀ (s out : Schema) (r : Request), r.shorten = some options → s.subset r = .ok out →
      s.ClosedIn out := by
  refine ⟨fun v x => Json.mem_references_of_shortenUnder h, fun s out r hshorten hcut => ?_⟩
  obtain ⟨part, hpart, rfl⟩ := subset_eq_shorten hshorten hcut
  exact (closedIn_of_subset rfl hpart).1.shorten h

/-- A marker that is set off by blanks. -/
def spacedMarker : ShortenOptions := { fill := " [...] " }

/-- What a plain marker opens stays closed with this one: the cut of `linked` does not refer to what
its long description ends with. -/
theorem spacedMarker_closed :
    spacedMarker.HasBlankMarker ∧
    (∀ v x, x ∈ (Json.shortenUnder spacedMarker v).references → x ∈ v.references) ∧
    ∃ out, linked.subset { root := ⟨.type, "a"⟩, shorten := some spacedMarker } = .ok out ∧
      linked.ClosedIn out := by
  have hblank : spacedMarker.HasBlankMarker := ⟨' ', by decide, rfl⟩
  obtain ⟨hreferences, hclosed⟩ := blank_marker_closed spacedMarker hblank
  have hroot : linked.contains ⟨.type, "a"⟩ = true := by decide
  obtain ⟨out, hout⟩ :=
    exists_subset_of_contains (r := { root := ⟨.type, "a"⟩, shorten := some spacedMarker }) hroot
  exact ⟨hblank, hreferences, out, hout, hclosed linked out _ rfl hout⟩

end Schema
end SchemaCut
