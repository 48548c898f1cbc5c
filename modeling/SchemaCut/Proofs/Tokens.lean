import Mathlib.Data.List.Infix
import Mathlib.Data.List.TakeWhile
import Mathlib.Tactic.Lemma
import SchemaCut.Proofs.Closure
import SchemaCut.Proofs.Leaves

/-!
# Reference tokens

A token is put together from a document, the section of a kind and a written name.  `IsToken` says
how, without the reader: nothing in a token is blank, the document holds no number sign, and the
written name is not empty.  The reader gives an entity exactly for the tokens, the parts of a token
are determined by it, and the names that tokens can stand for are the `IsReferable` ones.

`Reference.unescape` replaces the two spellings of an escaped slash one after the other.
`readSlashes` replaces them in a single pass, and since a slash starts neither spelling the two are
the same.

* `unescape_eq_readSlashes` : two passes replace what one pass does.
* `decode?_eq_some_iff` : a string refers to an entity if and only if it is a token for it.
* `isBlank_of_mem_token` : no blank character stands in a token.
* `IsToken.unique` : a token has only one document, kind and written name.
* `exists_decode?_iff` : the entities that tokens refer to.
* `decode?_exact` : all of this together.
-/

namespace SchemaCut.Reference

/-! ## Escaped slashes -/

/-- A written name with every `%2F` and every `%2f` read as a slash, in one pass. -/
def readSlashes : List Char → List Char
  | '%' :: '2' :: 'F' :: cs => '/' :: readSlashes cs
  | '%' :: '2' :: 'f' :: cs => '/' :: readSlashes cs
  | c :: cs => c :: readSlashes cs
  | [] => []

/-- A pass that starts with anything but a slash has left its first character alone. -/
lemma eq_cons_of_unescapeLetter {letter x : Char} {cs rest : List Char} (hx : x ≠ '/')
    (h : unescapeLetter letter cs = x :: rest) :
    ∃ cs', cs = x :: cs' ∧ unescapeLetter letter cs' = rest := by
  unfold unescapeLetter at h
  split at h
  · cases h
  · next c cs =>
    split_ifs at h with hc
    · exact absurd (List.cons.inj h).1.symm hx
    · obtain ⟨rfl, hrest⟩ := List.cons.inj h
      exact ⟨_, rfl, hrest⟩
  · next c cs _ =>
    obtain ⟨rfl, hrest⟩ := List.cons.inj h
    exact ⟨_, rfl, hrest⟩

lemma eq_cons_of_readSlashes {x : Char} {cs rest : List Char} (hx : x ≠ '/')
    (h : readSlashes cs = x :: rest) : ∃ cs', cs = x :: cs' ∧ readSlashes cs' = rest := by
  unfold readSlashes at h
  split at h
  · exact absurd (List.cons.inj h).1.symm hx
  · exact absurd (List.cons.inj h).1.symm hx
  · next c cs _ _ =>
    obtain ⟨rfl, hrest⟩ := List.cons.inj h
    exact ⟨_, rfl, hrest⟩
  · cases h

/-- A pass goes over a character that starts no escape. -/
lemma unescapeLetter_cons {letter c : Char} {cs : List Char}
    (h : ∀ rest, ¬(c = '%' ∧ cs = '2' :: letter :: rest)) :
    unescapeLetter letter (c :: cs) = c :: unescapeLetter letter cs := by
  rw [unescapeLetter.eq_def]
  split
  · next heq => cases heq
  · next d ds heq =>
    obtain ⟨rfl, rfl⟩ := List.cons.inj heq
    rw [if_neg]
    rintro rfl
    exact h ds ⟨rfl, rfl⟩
  · next heq =>
    obtain ⟨rfl, rfl⟩ := List.cons.inj heq
    rfl

/-- The second pass sees the escapes of its letter that were there before the first, and no others:
what the first pass puts in starts none. -/
theorem unescape_eq_readSlashes (raw : List Char) : unescape raw = readSlashes raw := by
  unfold unescape
  fun_induction readSlashes raw with
  | case1 cs ih =>
    have hfirst : unescapeLetter 'F' ('%' :: '2' :: 'F' :: cs) = '/' :: unescapeLetter 'F' cs := by
      simp [unescapeLetter]
    rw [hfirst, unescapeLetter_cons (by simp), ih]
  | case2 cs ih =>
    have hfirst : unescapeLetter 'F' ('%' :: '2' :: 'f' :: cs) =
        '%' :: '2' :: 'f' :: unescapeLetter 'F' cs := by
      rw [unescapeLetter_cons (by simp), unescapeLetter_cons (by simp),
        unescapeLetter_cons (by simp)]
    have hsecond : unescapeLetter 'f' ('%' :: '2' :: 'f' :: unescapeLetter 'F' cs) =
        '/' :: unescapeLetter 'f' (unescapeLetter 'F' cs) := by
      simp [unescapeLetter]
    rw [hfirst, hsecond, ih]
  | case3 c cs hupper hlower ih =>
    have hfirst : unescapeLetter 'F' (c :: cs) = c :: unescapeLetter 'F' cs := by
      apply unescapeLetter_cons
      rintro rest ⟨rfl, rfl⟩
      exact hupper rest rfl rfl
    rw [hfirst, unescapeLetter_cons, ih]
    -- an escape that the second pass finds stood there before the first pass
    rintro rest ⟨rfl, htwo⟩
    obtain ⟨cs', rfl, hletter⟩ := eq_cons_of_unescapeLetter (by decide) htwo
    obtain ⟨cs'', rfl, -⟩ := eq_cons_of_unescapeLetter (by decide) hletter
    exact hlower cs'' rfl rfl
  | case4 => rfl

/-- A text in which no slash is escaped. -/
def NoEscape (cs : List Char) : Prop :=
  ¬['%', '2', 'F'] <:+: cs ∧ ¬['%', '2', 'f'] <:+: cs

lemma noEscape_cons_iff {c : Char} {cs : List Char} :
    NoEscape (c :: cs) ↔
      (∀ rest, c :: cs ≠ '%' :: '2' :: 'F' :: rest ∧ c :: cs ≠ '%' :: '2' :: 'f' :: rest) ∧
        NoEscape cs := by
  simp only [NoEscape, List.infix_cons_iff, List.prefix_iff_exists_eq_append, List.cons_append,
    List.nil_append, not_or, not_exists, ne_eq, forall_and]
  tauto

lemma noEscape_nil : NoEscape [] := by
  simp [NoEscape]

/-- What is an escape behind the pass was one before it. -/
lemma exists_escape_of_readSlashes {letter c : Char} {cs rest : List Char} (hletter : letter ≠ '/')
    (h : c :: readSlashes cs = '%' :: '2' :: letter :: rest) :
    c = '%' ∧ ∃ rest', cs = '2' :: letter :: rest' := by
  obtain ⟨rfl, htwo⟩ := List.cons.inj h
  obtain ⟨cs', rfl, htail⟩ := eq_cons_of_readSlashes (by decide) htwo
  obtain ⟨rest', rfl, -⟩ := eq_cons_of_readSlashes hletter htail
  exact ⟨rfl, rest', rfl⟩

/-- No escape is left, and none comes about. -/
lemma noEscape_readSlashes (cs : List Char) : NoEscape (readSlashes cs) := by
  fun_induction readSlashes cs with
  | case1 cs ih => exact noEscape_cons_iff.2 ⟨by simp, ih⟩
  | case2 cs ih => exact noEscape_cons_iff.2 ⟨by simp, ih⟩
  | case3 c cs hupper hlower ih =>
    refine noEscape_cons_iff.2 ⟨fun rest => ⟨?_, ?_⟩, ih⟩
    · intro h
      obtain ⟨rfl, rest', rfl⟩ := exists_escape_of_readSlashes (by decide) h
      exact hupper rest' rfl rfl
    · intro h
      obtain ⟨rfl, rest', rfl⟩ := exists_escape_of_readSlashes (by decide) h
      exact hlower rest' rfl rfl
  | case4 => exact noEscape_nil

lemma readSlashes_of_noEscape {cs : List Char} (h : NoEscape cs) : readSlashes cs = cs := by
  fun_induction readSlashes cs with
  | case1 cs ih => exact absurd rfl ((noEscape_cons_iff.1 h).1 cs).1
  | case2 cs ih => exact absurd rfl ((noEscape_cons_iff.1 h).1 cs).2
  | case3 c cs hupper hlower ih => rw [ih (noEscape_cons_iff.1 h).2]
  | case4 => rfl

/-- Reading slashes puts in nothing but slashes. -/
lemma mem_of_mem_readSlashes {c : Char} {cs : List Char} (hc : c ∈ readSlashes cs) :
    c = '/' ∨ c ∈ cs := by
  fun_induction readSlashes cs with
  | case1 cs ih | case2 cs ih =>
    rcases List.mem_cons.1 hc with rfl | hc
    · exact .inl rfl
    · exact (ih hc).imp_right fun h => by simp [h]
  | case3 d cs _ _ ih =>
    rcases List.mem_cons.1 hc with rfl | hc
    · exact .inr List.mem_cons_self
    · exact (ih hc).imp_right (List.mem_cons_of_mem d)
  | case4 => exact .inr hc

lemma readSlashes_eq_nil_iff {cs : List Char} : readSlashes cs = [] ↔ cs = [] := by
  constructor
  · intro h
    unfold readSlashes at h
    split at h
    · cases h
    · cases h
    · cases h
    · rfl
  · rintro rfl
    rfl

/-! ## The parts of a token -/

/-- A string is the token with the given document, kind and written name. -/
structure IsToken (document : String) (k : Kind) (raw token : String) : Prop where
  text : token = document ++ "#/" ++ k.sectionName ++ "/" ++ raw
  document : ∀ c ∈ document.toList, c ≠ '#' ∧ Text.isBlank c = false
  nonempty : raw ≠ ""
  visible : ∀ c ∈ raw.toList, Text.isBlank c = false

lemma afterDocument?_eq_some_iff {cs rest : List Char} :
    afterDocument? cs = some rest ↔
      ∃ document, cs = document ++ '#' :: '/' :: rest ∧
        ∀ c ∈ document, c ≠ '#' ∧ Text.isBlank c = false := by
  unfold afterDocument?
  constructor
  · intro h
    split at h
    · next rest' hdrop =>
      cases h
      refine ⟨cs.takeWhile fun c => !(c == '#' || Text.isBlank c), ?_, ?_⟩
      · rw [← hdrop, List.takeWhile_append_dropWhile]
      · intro c hc
        have hpassed := List.mem_takeWhile_imp hc
        simpa using hpassed
    · cases h
  · rintro ⟨document, rfl, hdocument⟩
    have hpassed : ∀ c ∈ document, (!(c == '#' || Text.isBlank c)) = true := by
      intro c hc
      have hvisible := hdocument c hc
      simp [hvisible.1, hvisible.2]
    rw [List.dropWhile_append_of_pos hpassed, List.dropWhile_cons_of_neg (by simp)]
    rfl

lemma isBlank_of_mem_sectionName {k : Kind} {c : Char} (hc : c ∈ k.sectionName.toList) :
    Text.isBlank c = false := by
  have hall : k.sectionName.toList.any Text.isBlank = false := by
    cases k <;> decide +kernel
  exact Bool.eq_false_iff.2 (List.any_eq_false.1 hall c hc)

lemma ne_slash_of_mem_sectionName {k : Kind} {c : Char} (hc : c ∈ k.sectionName.toList) :
    c ≠ '/' := by
  rintro rfl
  have hall : k.sectionName.toList.any (· = '/') = false := by
    cases k <;> decide +kernel
  simpa using List.any_eq_false.1 hall '/' hc

lemma target?_eq_some_iff {cs : List Char} {k : Kind} {name : String} :
    target? cs = some ⟨k, name⟩ ↔
      ∃ raw, cs = k.sectionName.toList ++ '/' :: raw ∧ raw ≠ [] ∧
        (∀ c ∈ raw, Text.isBlank c = false) ∧ name = String.ofList (readSlashes raw) := by
  unfold target?
  constructor
  · intro h
    split at h
    · next raw hdrop =>
      split at h
      · cases h
      · next hraw =>
        simp only [Bool.or_eq_true, List.isEmpty_iff, not_or, Bool.not_eq_true,
          List.any_eq_false] at hraw
        obtain ⟨k', hk, heq⟩ := Option.map_eq_some_iff.1 h
        obtain ⟨rfl, rfl⟩ := Entity.mk.inj heq
        have hsection : cs.takeWhile (· ≠ '/') = k'.sectionName.toList := by
          rw [← Kind.ofSection?_eq_some_iff.1 hk, String.toList_ofList]
        refine ⟨raw, ?_, hraw.1, by simpa using hraw.2, ?_⟩
        · rw [← hsection, ← hdrop, List.takeWhile_append_dropWhile]
        · rw [unescape_eq_readSlashes]
    · cases h
  · rintro ⟨raw, rfl, hnonempty, hvisible, rfl⟩
    have hpassed : ∀ c ∈ k.sectionName.toList, decide (c ≠ '/') = true := by
      intro c hc
      simpa using ne_slash_of_mem_sectionName hc
    rw [List.dropWhile_append_of_pos hpassed, List.dropWhile_cons_of_neg (by simp),
      List.takeWhile_append_of_pos hpassed, List.takeWhile_cons_of_neg (by simp),
      List.append_nil, String.ofList_toList, Kind.ofSection?_sectionName]
    have hany : raw.any Text.isBlank = false := by simpa using hvisible
    simp [hnonempty, hany, unescape_eq_readSlashes]

/-- A string refers to an entity if and only if it is a token for it. -/
lemma decode?_eq_some_iff {token name : String} {k : Kind} :
    decode? token = some ⟨k, name⟩ ↔
      ∃ document raw, IsToken document k raw token ∧
        name = String.ofList (readSlashes raw.toList) := by
  simp only [decode?, Option.bind_eq_some_iff, afterDocument?_eq_some_iff, target?_eq_some_iff]
  constructor
  · rintro ⟨rest, ⟨document, htoken, hdocument⟩, raw, rfl, hnonempty, hvisible, rfl⟩
    refine ⟨String.ofList document, String.ofList raw, ⟨?_, by simpa, by simpa, by simpa⟩, by simp⟩
    rw [← String.toList_inj, htoken]
    simp
  · rintro ⟨document, raw, ⟨rfl, hdocument, hnonempty, hvisible⟩, rfl⟩
    exact ⟨k.sectionName.toList ++ '/' :: raw.toList, ⟨document.toList, by simp, hdocument⟩,
      raw.toList, rfl, by simpa using hnonempty, hvisible, rfl⟩

/-- None of the parts of a token holds a blank character, and nothing between them is blank. -/
lemma IsToken.isBlank_of_mem {document raw token : String} {k : Kind}
    (h : IsToken document k raw token) {c : Char} (hc : c ∈ token.toList) :
    Text.isBlank c = false := by
  rw [h.text] at hc
  simp only [String.toList_append, List.mem_append] at hc
  rcases hc with (((hc | hc) | hc) | hc) | hc
  · exact (h.document c hc).2
  · have hmark : c = '#' ∨ c = '/' := by simpa using hc
    rcases hmark with rfl | rfl
    · decide
    · decide
  · exact isBlank_of_mem_sectionName hc
  · obtain rfl : c = '/' := by simpa using hc
    decide
  · exact h.visible c hc

theorem isBlank_of_mem_token {token : String} {x : Entity} (h : decode? token = some x) {c : Char}
    (hc : c ∈ token.toList) : Text.isBlank c = false := by
  obtain ⟨k, name⟩ := x
  obtain ⟨document, raw, htoken, -⟩ := decode?_eq_some_iff.1 h
  exact htoken.isBlank_of_mem hc

lemma decode?_eq_none_of_isBlank {text : String} {c : Char} (hc : c ∈ text.toList)
    (hblank : Text.isBlank c = true) : decode? text = none := by
  rw [Option.eq_none_iff_forall_ne_some]
  intro x hx
  rw [isBlank_of_mem_token hx hc] at hblank
  cases hblank

/-- The first occurrence of a character divides a text in one way. -/
lemma append_cons_inj_of_not_mem {a : Char} {x y r s : List Char} (hx : a ∉ x) (hy : a ∉ y)
    (h : x ++ a :: r = y ++ a :: s) : x = y ∧ r = s := by
  induction x generalizing y with
  | nil =>
    cases y with
    | nil => exact ⟨rfl, (List.cons.inj h).2⟩
    | cons d y => exact absurd ((List.cons.inj h).1 ▸ List.mem_cons_self) hy
  | cons c x ih =>
    cases y with
    | nil => exact absurd ((List.cons.inj h).1 ▸ List.mem_cons_self) hx
    | cons d y =>
      obtain ⟨rfl, htail⟩ := List.cons.inj h
      obtain ⟨rfl, rfl⟩ := ih (List.not_mem_of_not_mem_cons hx) (List.not_mem_of_not_mem_cons hy)
        htail
      exact ⟨rfl, rfl⟩

/-- The parts from which a string is put together, if the document holds no number sign. -/
lemma parts_inj {document document' raw raw' : String} {k k' : Kind}
    (hdocument : '#' ∉ document.toList) (hdocument' : '#' ∉ document'.toList)
    (h : document ++ "#/" ++ k.sectionName ++ "/" ++ raw =
      document' ++ "#/" ++ k'.sectionName ++ "/" ++ raw') :
    document = document' ∧ k = k' ∧ raw = raw' := by
  have hsame : document.toList ++ '#' :: '/' :: (k.sectionName.toList ++ '/' :: raw.toList) =
      document'.toList ++ '#' :: '/' :: (k'.sectionName.toList ++ '/' :: raw'.toList) := by
    simpa using congrArg String.toList h
  -- the first number sign ends the document, and the first slash behind it the section
  obtain ⟨hfirst, hrest⟩ := append_cons_inj_of_not_mem hdocument hdocument' hsame
  obtain ⟨hsection, hraw⟩ := append_cons_inj_of_not_mem
    (fun hmem => ne_slash_of_mem_sectionName hmem rfl)
    (fun hmem => ne_slash_of_mem_sectionName hmem rfl) (List.cons.inj hrest).2
  exact ⟨String.toList_inj.1 hfirst, Kind.sectionName_injective (String.toList_inj.1 hsection),
    String.toList_inj.1 hraw⟩

lemma IsToken.not_mem_document {token document raw : String} {k : Kind}
    (h : IsToken document k raw token) : '#' ∉ document.toList :=
  fun hmem => (h.document '#' hmem).1 rfl

/-- A token has only one document, kind and written name. -/
lemma IsToken.unique {token document document' raw raw' : String} {k k' : Kind}
    (h : IsToken document k raw token) (h' : IsToken document' k' raw' token) :
    document = document' ∧ k = k' ∧ raw = raw' :=
  parts_inj h.not_mem_document h'.not_mem_document (h.text.symm.trans h'.text)

/-! ## The names that tokens stand for -/

/-- A name that a token can stand for: it is not empty, nothing in it is blank, and it holds neither
`%2F` nor `%2f`. -/
structure IsReferable (name : String) : Prop where
  nonempty : name ≠ ""
  visible : ∀ c ∈ name.toList, Text.isBlank c = false
  unescaped : NoEscape name.toList

/-- A referable name is written as it is. -/
lemma IsReferable.decode? {name : String} (h : IsReferable name) (k : Kind) :
    decode? ("#/" ++ k.sectionName ++ "/" ++ name) = some ⟨k, name⟩ := by
  refine decode?_eq_some_iff.2 ⟨"", name, ⟨by simp, by simp, h.nonempty, h.visible⟩, ?_⟩
  rw [readSlashes_of_noEscape h.unescaped, String.ofList_toList]

lemma isReferable_of_decode? {token : String} {x : Entity} (h : Reference.decode? token = some x) :
    IsReferable x.name := by
  obtain ⟨k, name⟩ := x
  obtain ⟨document, raw, htoken, rfl⟩ := decode?_eq_some_iff.1 h
  refine ⟨?_, ?_, ?_⟩
  · intro hempty
    have hnil : readSlashes raw.toList = [] := by simpa using hempty
    exact htoken.nonempty (by simpa using readSlashes_eq_nil_iff.1 hnil)
  · intro c hc
    rw [String.toList_ofList] at hc
    rcases mem_of_mem_readSlashes hc with rfl | hc
    · decide
    · exact htoken.visible c hc
  · rw [String.toList_ofList]
    exact noEscape_readSlashes raw.toList

/-- The entities that tokens refer to. -/
lemma exists_decode?_iff {k : Kind} {name : String} :
    (∃ token, Reference.decode? token = some ⟨k, name⟩) ↔ IsReferable name := by
  constructor
  · rintro ⟨token, h⟩
    exact isReferable_of_decode? h
  · intro h
    exact ⟨_, h.decode? k⟩

/-- Strings refer to entities exactly as tokens do.  A string refers to an entity if and only if it
is a token of its kind whose written name, with all escaped slashes read, is its name; there is only
one way to see a string as a token; and the names that tokens reach are the referable ones, each of
them by the token that has no document and the name as it is.  So no definition of a schema refers
to an entity with another name. -/
theorem decode?_exact :
    (∀ token k name, Reference.decode? token = some ⟨k, name⟩ ↔
      ∃ document raw, IsToken document k raw token ∧
        name = String.ofList (readSlashes raw.toList)) ∧
    (∀ token document k raw document' k' raw', IsToken document k raw token →
      IsToken document' k' raw' token → document = document' ∧ k = k' ∧ raw = raw') ∧
    (∀ k name, (∃ token, Reference.decode? token = some ⟨k, name⟩) ↔ IsReferable name) ∧
    (∀ k name, IsReferable name →
      Reference.decode? ("#/" ++ k.sectionName ++ "/" ++ name) = some ⟨k, name⟩) ∧
    ∀ (s : Schema) (a b : Entity), ¬IsReferable b.name → ¬s.Refers a b := by
  refine ⟨fun _ _ _ => decode?_eq_some_iff, fun _ _ _ _ _ _ _ h h' => h.unique h',
    fun _ _ => exists_decode?_iff, fun k _ h => h.decode? k, ?_⟩
  rintro s a b hname ⟨⟨definition, -, hb⟩, -⟩
  obtain ⟨text, -, htext⟩ := Json.mem_references_iff.1 hb
  exact hname (isReferable_of_decode? htext)

end SchemaCut.Reference
