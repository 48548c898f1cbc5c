import SchemaCut.Proofs.Tokens

/-!
# Ways to write a name

A slash in the name of an entity may stand in a token as it is, as `%2F` or as `%2f`, each slash in
its own way.  `Writes` relates a name to the texts that write it.  A name may hold percent signs,
digits and letters next to a slash, so a written slash may follow a `%` or a `%2`; still nothing is
read as an escape but the written slashes, because no way to write a slash starts with what could
go on with an escape.

* `readSlashes_eq_iff` : a text is read as a name if and only if it writes the name and no escape is
  left in the name.
* `written_names_decode` : every way to write a name makes a token for it, and no other text does.
-/

namespace SchemaCut.Reference

/-- The ways to write a slash. -/
def slashForms : List (List Char) := [['/'], ['%', '2', 'F'], ['%', '2', 'f']]

lemma mem_slashForms_iff {form : List Char} :
    form ∈ slashForms ↔ form = ['/'] ∨ form = ['%', '2', 'F'] ∨ form = ['%', '2', 'f'] := by
  simp [slashForms]

/-- `Writes name raw`: the text `raw` is the name with each slash in one of the three forms and
everything else as it is. -/
inductive Writes : List Char → List Char → Prop
  | nil : Writes [] []
  | slash {form name raw : List Char} (hform : form ∈ slashForms) (h : Writes name raw) :
      Writes ('/' :: name) (form ++ raw)
  | char {c : Char} {name raw : List Char} (hc : c ≠ '/') (h : Writes name raw) :
      Writes (c :: name) (c :: raw)

variable {name raw : List Char}

/-- A written slash starts with a slash or a percent sign, so any other first character is one of
the name. -/
lemma Writes.eq_cons {x : Char} (h : Writes name (x :: raw)) (hslash : x ≠ '/')
    (hpercent : x ≠ '%') : ∃ name', name = x :: name' ∧ Writes name' raw := by
  generalize htext : x :: raw = text at h
  cases h with
  | nil => cases htext
  | slash hform h =>
    rcases mem_slashForms_iff.1 hform with rfl | rfl | rfl
    · exact absurd (List.cons.inj htext).1 hslash
    · exact absurd (List.cons.inj htext).1 hpercent
    · exact absurd (List.cons.inj htext).1 hpercent
  | char hc h =>
    obtain ⟨rfl, rfl⟩ := List.cons.inj htext
    exact ⟨_, rfl, h⟩

/-- What would be an escape behind a character of the name stands in the name itself. -/
lemma Writes.escape {c letter : Char} {rest : List Char} (h : Writes name raw)
    (hslash : letter ≠ '/') (hpercent : letter ≠ '%')
    (hescape : c :: raw = '%' :: '2' :: letter :: rest) :
    ∃ rest', c :: name = '%' :: '2' :: letter :: rest' := by
  obtain ⟨rfl, rfl⟩ := List.cons.inj hescape
  obtain ⟨name', rfl, htail⟩ := h.eq_cons (by decide) (by decide)
  obtain ⟨rest', rfl, -⟩ := htail.eq_cons hslash hpercent
  exact ⟨rest', rfl⟩

/-- Reading goes over a character that starts no escape. -/
lemma readSlashes_cons {c : Char} {cs : List Char}
    (hupper : ∀ rest, c :: cs ≠ '%' :: '2' :: 'F' :: rest)
    (hlower : ∀ rest, c :: cs ≠ '%' :: '2' :: 'f' :: rest) :
    readSlashes (c :: cs) = c :: readSlashes cs := by
  rw [readSlashes.eq_def]
  split
  · next rest heq => exact absurd heq (hupper rest)
  · next rest heq => exact absurd heq (hlower rest)
  · next heq =>
    obtain ⟨rfl, rfl⟩ := List.cons.inj heq
    rfl
  · next heq => cases heq

/-- A written slash is read as a slash. -/
lemma readSlashes_form {form : List Char} (hform : form ∈ slashForms) (cs : List Char) :
    readSlashes (form ++ cs) = '/' :: readSlashes cs := by
  rcases mem_slashForms_iff.1 hform with rfl | rfl | rfl
  · exact readSlashes_cons (by simp) (by simp)
  · rfl
  · rfl

lemma Writes.readSlashes_eq (h : Writes name raw) (hname : NoEscape name) :
    readSlashes raw = name := by
  induction h with
  | nil => rfl
  | slash hform _ ih => rw [readSlashes_form hform, ih (noEscape_cons_iff.1 hname).2]
  | @char c name raw _ h ih =>
    obtain ⟨hfirst, hrest⟩ := noEscape_cons_iff.1 hname
    rw [readSlashes_cons, ih hrest]
    -- an escape that starts at this character would start at it in the name
    · intro rest hescape
      obtain ⟨rest', hname⟩ := h.escape (by decide) (by decide) hescape
      exact (hfirst rest').1 hname
    · intro rest hescape
      obtain ⟨rest', hname⟩ := h.escape (by decide) (by decide) hescape
      exact (hfirst rest').2 hname

/-- Every text writes what it is read as. -/
lemma writes_readSlashes (raw : List Char) : Writes (readSlashes raw) raw := by
  fun_induction readSlashes raw with
  | case1 cs ih => exact .slash (mem_slashForms_iff.2 (.inr (.inl rfl))) ih
  | case2 cs ih => exact .slash (mem_slashForms_iff.2 (.inr (.inr rfl))) ih
  | case3 c cs _ _ ih =>
    by_cases hc : c = '/'
    · subst hc
      exact .slash (mem_slashForms_iff.2 (.inl rfl)) ih
    · exact .char hc ih
  | case4 => exact .nil

/-- The texts that are read as a name are the ways to write it. -/
theorem readSlashes_eq_iff : readSlashes raw = name ↔ NoEscape name ∧ Writes name raw := by
  constructor
  · rintro rfl
    exact ⟨noEscape_readSlashes raw, writes_readSlashes raw⟩
  · rintro ⟨hname, h⟩
    exact h.readSlashes_eq hname

/-! ## Tokens with a written name -/

/-- A way to write a name has no characters but those of the name and of the forms of a slash. -/
lemma Writes.mem {c : Char} (h : Writes name raw) (hc : c ∈ raw) :
    c ∈ name ∨ c ∈ slashForms.flatten := by
  induction h with
  | nil => exact .inl hc
  | slash hform _ ih =>
    rcases List.mem_append.1 hc with hc | hc
    · exact .inr (List.mem_flatten.2 ⟨_, hform, hc⟩)
    · exact (ih hc).imp_left (List.mem_cons_of_mem '/')
  | @char d _ _ _ _ ih =>
    rcases List.mem_cons.1 hc with rfl | hc
    · exact .inl List.mem_cons_self
    · exact (ih hc).imp_left (List.mem_cons_of_mem d)

lemma isBlank_of_mem_slashForms {c : Char} (hc : c ∈ slashForms.flatten) :
    Text.isBlank c = false := by
  have hall : slashForms.flatten.any Text.isBlank = false := by decide
  exact Bool.eq_false_iff.2 (List.any_eq_false.1 hall c hc)

/-- What a string says that has a document in front and a text behind a section. -/
lemma decode?_parts {k : Kind} {document name raw : String}
    (hdocument : ∀ c ∈ document.toList, c ≠ '#' ∧ Text.isBlank c = false) :
    decode? (document ++ "#/" ++ k.sectionName ++ "/" ++ raw) = some ⟨k, name⟩ ↔
      raw ≠ "" ∧ (∀ c ∈ raw.toList, Text.isBlank c = false) ∧
        name = String.ofList (readSlashes raw.toList) := by
  rw [decode?_eq_some_iff]
  constructor
  · rintro ⟨document', raw', h, rfl⟩
    obtain ⟨rfl, -, rfl⟩ :=
      parts_inj (fun hmem => (hdocument '#' hmem).1 rfl) h.not_mem_document h.text
    exact ⟨h.nonempty, h.visible, rfl⟩
  · rintro ⟨hnonempty, hvisible, rfl⟩
    exact ⟨document, raw, ⟨rfl, hdocument, hnonempty, hvisible⟩, rfl⟩

/-- Behind a document without number sign and blanks, and a section, a text makes a token for a name
if and only if the name is referable and the text is one of the ways to write it.  The two passes of
`unescape` do what the single pass of `readSlashes` does, leave no escape, and change nothing when
they are made again. -/
theorem written_names_decode :
    (∀ (k : Kind) (document name raw : String),
      (∀ c ∈ document.toList, c ≠ '#' ∧ Text.isBlank c = false) →
      (decode? (document ++ "#/" ++ k.sectionName ++ "/" ++ raw) = some ⟨k, name⟩ ↔
        IsReferable name ∧ Writes name.toList raw.toList)) ∧
    ∀ cs : List Char, unescape cs = readSlashes cs ∧ NoEscape (unescape cs) ∧
      unescape (unescape cs) = unescape cs := by
  refine ⟨fun k document name raw hdocument => ⟨fun h => ?_, fun ⟨hname, h⟩ => ?_⟩, fun cs => ?_⟩
  · obtain ⟨-, -, hname⟩ := (decode?_parts hdocument).1 h
    have hread : readSlashes raw.toList = name.toList := by rw [hname, String.toList_ofList]
    exact ⟨isReferable_of_decode? h, (readSlashes_eq_iff.1 hread).2⟩
  · have hread : readSlashes raw.toList = name.toList :=
      readSlashes_eq_iff.2 ⟨hname.unescaped, h⟩
    refine (decode?_parts hdocument).2 ⟨?_, fun c hc => ?_, by rw [hread, String.ofList_toList]⟩
    · rintro rfl
      exact hname.nonempty (String.toList_inj.1 hread.symm)
    · exact (h.mem hc).elim (hname.visible c) isBlank_of_mem_slashForms
  · rw [unescape_eq_readSlashes, unescape_eq_readSlashes]
    exact ⟨rfl, noEscape_readSlashes cs, readSlashes_of_noEscape (noEscape_readSlashes cs)⟩

/-- Stray percent signs and digits stand in front of slashes, and the slashes are written in all
three ways. -/
theorem written_names_decode_mixed :
    (∀ c ∈ "schema.json".toList, c ≠ '#' ∧ Text.isBlank c = false) ∧
    IsReferable "%/%2/2F/f" ∧ Writes "%/%2/2F/f".toList "%%2F%2%2f2F/f".toList ∧
    decode? ("schema.json" ++ "#/" ++ Kind.type.sectionName ++ "/" ++ "%%2F%2%2f2F/f") =
      some ⟨.type, "%/%2/2F/f"⟩ := by
  have hdocument : ∀ c ∈ "schema.json".toList, c ≠ '#' ∧ Text.isBlank c = false := by
    have hall : "schema.json".toList.all (fun c => c ≠ '#' ∧ Text.isBlank c = false) = true := by
      decide +kernel
    simpa only [List.all_eq_true, decide_eq_true_eq] using hall
  have hvisible : ∀ c ∈ "%/%2/2F/f".toList, Text.isBlank c = false := by
    have hall : "%/%2/2F/f".toList.all (fun c => Text.isBlank c = false) = true := by
      decide +kernel
    simpa only [List.all_eq_true, decide_eq_true_eq] using hall
  have hname : IsReferable "%/%2/2F/f" := ⟨by decide, hvisible, by unfold NoEscape; decide⟩
  have hwrites : Writes "%/%2/2F/f".toList "%%2F%2%2f2F/f".toList := by
    have h := writes_readSlashes "%%2F%2%2f2F/f".toList
    simpa [readSlashes] using h
  exact ⟨hdocument, hname, hwrites,
    (written_names_decode.1 .type _ _ _ hdocument).2 ⟨hname, hwrites⟩⟩

end SchemaCut.Reference
