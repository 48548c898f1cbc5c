import Mathlib.Tactic.Lemma
import Mathlib.Tactic.SplitIfs
import SchemaCut.Settings.Basic

/-!
# Laying settings over one another

A value that is laid over another replaces it, unless it is a table: then its entries are laid over
those that are there.  `laidOver` is what comes out at one name, and `under` gives the entries of
the table that stands under a name, of which there are none where no table stands.  Both are
followed through a whole layer one entry at a time, so nothing here asks for the names of a layer
to be different.

A key of a layer is a place.  `Place.ofNames` is the place at the end of several names, and
`IsPlainName` says of a name that it means itself: no letter of it changes in lower case, and it is
not taken apart into several.

* `layOver_eq_put` : laying a value over an entry changes the entry of one name.
* `entries_layAllOver` : laying a table over a value lays its entries one after the other.
* `Place.exists_set_ofNames` : a value at a place with two names changes one entry under the first.
* `Place.ofKey_key` : the place that a key of plain names stands for.
-/

namespace SchemaCut

namespace Setting

/-! ## Laying values over values -/

/-- The settings that have entries. -/
inductive IsTable : Setting → Prop where
  | intro (origin : Option String) (entries : List (String × Setting)) :
    IsTable (.table origin entries)

/-- A value laid over the value that stood at its name. -/
def laidOver (v : Setting) (old : Option Setting) : Setting :=
  match v with
  | .table _ es => layAllOver es (old.getD (.table none []))
  | v => v

variable {v s : Setting}

lemma laidOver_of_not_isTable (hv : ¬v.IsTable) (old : Option Setting) : v.laidOver old = v := by
  cases v with
  | table o es => exact absurd (.intro o es) hv
  | missing | boolean | integer | float | text | null | list => rfl

lemma layOver_eq_put (name : String) (v : Setting) (into : List (String × Setting)) :
    layOver name v into = Entries.put (Text.lowerCase name)
      (v.laidOver (Entries.find? (Text.lowerCase name) into)) into := by
  cases v <;> rfl

/-- Entries are laid over a value one after the other; a value that is no table counts as one
without entries. -/
lemma entries_layAllOver (es : List (String × Setting)) (target : Setting) :
    (layAllOver es target).entries =
      es.foldl (fun into e => layOver e.1 e.2 into) target.entries := by
  induction es generalizing target with
  | nil => rfl
  | cons e es ih =>
    obtain ⟨n, v⟩ := e
    cases target <;> exact ih _

lemma isTable_layAllOver {es : List (String × Setting)} {target : Setting}
    (h : es ≠ [] ∨ target.IsTable) : (layAllOver es target).IsTable := by
  induction es generalizing target with
  | nil => exact h.resolve_left (fun hne => hne rfl)
  | cons e es ih =>
    obtain ⟨n, v⟩ := e
    cases target <;> exact ih (.inr (.intro _ _))

/-! ## Groups of settings -/

/-- The entries of the table that stands under a name. -/
def under (name : String) (s : Setting) : List (String × Setting) :=
  ((Entries.find? name s.entries).map entries).getD []

lemma under_of_entries_eq_put {name m : String} {x s' : Setting}
    (h : s'.entries = Entries.put name x s.entries) :
    s'.under m = if m = name then x.entries else s.under m := by
  rw [under, h, Entries.find?_put]
  split_ifs with hm
  · rfl
  · rfl

/-- The entries that a value has when it has been laid over what stood under a name. -/
lemma entries_laidOver_table (o : Option String) (es : List (String × Setting)) (name : String)
    (s : Setting) :
    ((table o es).laidOver (Entries.find? name s.entries)).entries =
      es.foldl (fun into e => layOver e.1 e.2 into) (s.under name) := by
  rw [laidOver, entries_layAllOver, under]
  cases Entries.find? name s.entries <;> rfl

/-! ## Plain names -/

/-- The characters of plain names. -/
def isPlainChar (c : Char) : Bool := ('a' ≤ c && c ≤ 'z') || ('0' ≤ c && c ≤ '9') || c = '_'

/-- A name of lower-case letters, digits and underscores. -/
structure IsPlainName (name : String) : Prop where
  nonempty : name ≠ ""
  plain : ∀ c ∈ name.toList, isPlainChar c = true

lemma isPlainName_of_all {name : String} (hne : name ≠ "")
    (h : name.toList.all isPlainChar = true) : IsPlainName name := ⟨hne, List.all_eq_true.1 h⟩

lemma isPlainChar_iff {c : Char} :
    isPlainChar c = true ↔
      97 ≤ c.toNat ∧ c.toNat ≤ 122 ∨ 48 ≤ c.toNat ∧ c.toNat ≤ 57 ∨ c.toNat = 95 := by
  have hline : c = '_' ↔ c.toNat = 95 := by
    rw [← Char.toNat_inj]
    rfl
  simp only [isPlainChar, Bool.or_eq_true, Bool.and_eq_true, decide_eq_true_eq, hline,
    Char.le_def, UInt32.le_iff_toNat_le, or_assoc]
  rfl

lemma lowerChar_of_isPlainChar {c : Char} (hc : isPlainChar c = true) : Text.lowerChar c = c := by
  have hcode := isPlainChar_iff.1 hc
  have hsmall : c ≤ '~' := by
    rw [Char.le_def, UInt32.le_iff_toNat_le]
    show c.toNat ≤ 126
    omega
  have hno : ¬('A'.val ≤ c.val ∧ c.val ≤ 'Z'.val) := by
    simp only [UInt32.le_iff_toNat_le]
    show ¬(65 ≤ c.toNat ∧ c.toNat ≤ 90)
    omega
  rw [Text.lowerChar, if_pos hsmall]
  exact dif_neg hno

lemma lowerAfter_of_plain {before cs : List Char} (h : ∀ c ∈ cs, isPlainChar c = true) :
    Text.lowerAfter before cs = cs := by
  induction cs generalizing before with
  | nil => rfl
  | cons c cs ih =>
    have hc := h c List.mem_cons_self
    have hsigma : c ≠ 'Σ' := by
      rintro rfl
      exact absurd hc (by decide)
    have hdotted : c ≠ 'İ' := by
      rintro rfl
      exact absurd hc (by decide)
    rw [Text.lowerAfter, if_neg hsigma, if_neg hdotted, lowerChar_of_isPlainChar hc,
      ih fun d hd => h d (List.mem_cons_of_mem c hd)]
    rfl

lemma IsPlainName.lowerCase {name : String} (h : IsPlainName name) :
    Text.lowerCase name = name := by
  rw [Text.lowerCase, lowerAfter_of_plain h.plain, String.ofList_toList]

end Setting

/-! ## Places -/

namespace Place

open Setting

variable {s : Setting}

lemma entries_atEntry (n : String) (f : Setting → Setting) (s : Setting) :
    (atEntry n f s).entries = Entries.put (Text.lowerCase n)
      (f ((Entries.find? (Text.lowerCase n) s.entries).getD .missing)) s.entries := by
  cases s <;> rfl

lemma isTable_atEntry (n : String) (f : Setting → Setting) (s : Setting) :
    (atEntry n f s).IsTable := by
  cases s <;> exact .intro _ _

/-- The place at the end of several names. -/
def ofNames (first : String) (more : List String) : Place := more.foldl .child (.name first)

/-- A change at the end of several names is a change at the first that changes the others. -/
lemma modify_foldl_child (f : Setting → Setting) (p : Place) (more : List String) :
    modify f (more.foldl .child p) = modify (more.foldr atEntry f) p := by
  induction more generalizing p with
  | nil => rfl
  | cons n more ih =>
    rw [List.foldl_cons, ih, List.foldr_cons]
    rfl

lemma set_ofNames_append (v : Setting) (first : String) (more : List String) (last : String) :
    set v (ofNames first (more ++ [last])) =
      atEntry first (more.foldr atEntry (layAllOver [(last, v)])) := by
  rw [ofNames, List.foldl_append]
  exact modify_foldl_child (layAllOver [(last, v)]) (.name first) more

/-- A value at a place always leaves a table. -/
lemma isTable_set (v : Setting) (p : Place) (s : Setting) : (p.set v s).IsTable := by
  have hmodify : ∀ (p : Place) (f : Setting → Setting), (modify f p s).IsTable := by
    intro p
    induction p with
    | name n =>
      intro f
      exact isTable_atEntry n f s
    | child p n ih =>
      intro f
      exact ih _
    | element p i ih =>
      intro f
      exact ih _
  cases p with
  | name n => exact isTable_layAllOver (.inl (List.cons_ne_nil _ _))
  | child p n => exact hmodify p _
  | element p i => exact hmodify p _

lemma entries_set_name (v : Setting) (n : String) (s : Setting) :
    (set v (.name n) s).entries = Entries.put (Text.lowerCase n)
      (v.laidOver (Entries.find? (Text.lowerCase n) s.entries)) s.entries := by
  rw [set, entries_layAllOver]
  exact layOver_eq_put n v s.entries

/-- A value at a place with two names or more changes one entry under the first name.  If there are
just two names, the value is laid over that entry. -/
lemma exists_set_ofNames (v : Setting) (first second : String) (more : List String) (s : Setting) :
    ∃ x y, (set v (ofNames first (second :: more)) s).entries =
        Entries.put (Text.lowerCase first) x s.entries ∧ x.IsTable ∧
      x.entries = Entries.put (Text.lowerCase second) y (s.under (Text.lowerCase first)) ∧
      (more = [] → y = v.laidOver
        (Entries.find? (Text.lowerCase second) (s.under (Text.lowerCase first)))) := by
  have hunder : ((Entries.find? (Text.lowerCase first) s.entries).getD .missing).entries =
      s.under (Text.lowerCase first) := by
    rw [under]
    cases Entries.find? (Text.lowerCase first) s.entries <;> rfl
  rcases List.eq_nil_or_concat more with rfl | ⟨between, last, rfl⟩
  · refine ⟨layAllOver [(second, v)]
      ((Entries.find? (Text.lowerCase first) s.entries).getD .missing), _, ?_,
      isTable_layAllOver (.inl (List.cons_ne_nil _ _)), ?_, fun _ => rfl⟩
    · exact entries_atEntry first _ s
    · rw [entries_layAllOver, hunder]
      exact layOver_eq_put second v _
  · rw [List.concat_eq_append, ← List.cons_append, set_ofNames_append, List.foldr_cons]
    have hinner := entries_atEntry second (between.foldr atEntry (layAllOver [(last, v)]))
      ((Entries.find? (Text.lowerCase first) s.entries).getD .missing)
    rw [hunder] at hinner
    exact ⟨_, _, entries_atEntry first _ s, isTable_atEntry second _ _, hinner,
      fun h => absurd h (by simp)⟩

/-! ### Keys of plain names -/

/-- The key of a place at the end of several names: a dot before each but the first. -/
def key (first : String) (more : List String) : String :=
  String.ofList (first.toList ++ more.flatMap fun n => '.' :: n.toList)

lemma isNameChar_of_isPlainChar {c : Char} (hc : isPlainChar c = true) :
    isNameChar c = true := by
  simp only [isPlainChar, Bool.or_eq_true, decide_eq_true_eq] at hc
  simp only [isNameChar, Bool.or_eq_true, decide_eq_true_eq]
  rcases hc with (hletter | hdigit) | hline
  · have hlower : c.isLower = true := hletter
    have halphanum : (c.isUpper || c.isLower || c.isDigit) = true := by simp [hlower]
    exact .inl (.inl (.inl halphanum))
  · have hdigit : c.isDigit = true := hdigit
    have halphanum : (c.isUpper || c.isLower || c.isDigit) = true := by simp [hdigit]
    exact .inl (.inl (.inl halphanum))
  · exact .inl (.inr hline)

/-- A name ends where its last plain character stands. -/
lemma span_plainName {n : String} (hn : IsPlainName n) (more : List String) :
    (n.toList ++ more.flatMap fun n => '.' :: n.toList).takeWhile isNameChar = n.toList ∧
      (n.toList ++ more.flatMap fun n => '.' :: n.toList).dropWhile isNameChar =
        more.flatMap fun n => '.' :: n.toList := by
  have hname : ∀ c ∈ n.toList, isNameChar c = true := fun c hc =>
    isNameChar_of_isPlainChar (hn.plain c hc)
  have hdot : isNameChar '.' = false := by decide
  rw [List.takeWhile_append_of_pos hname, List.dropWhile_append_of_pos hname]
  cases more with
  | nil => simp
  | cons m more => simp [hdot]

lemma toList_ne_nil_of_plain {n : String} (hn : IsPlainName n) : n.toList ≠ [] := by
  simpa using hn.nonempty

lemma continue?_names (p : Place) {more : List String} (h : ∀ n ∈ more, IsPlainName n) :
    continue? p (more.flatMap fun n => '.' :: n.toList) = some (more.foldl .child p) := by
  induction more generalizing p with
  | nil => rw [List.flatMap_nil, continue?]; rfl
  | cons n more ih =>
    have hn := h n List.mem_cons_self
    obtain ⟨htake, hdrop⟩ := span_plainName hn more
    rw [List.flatMap_cons, List.cons_append, continue?, if_pos rfl, skipWhile]
    dsimp only
    rw [htake, hdrop, if_neg (by simpa using toList_ne_nil_of_plain hn), String.ofList_toList,
      ih _ fun m hm => h m (List.mem_cons_of_mem n hm)]
    rfl

/-- A key of plain names stands for the place at their end. -/
lemma ofKey_key {first : String} {more : List String}
    (h : ∀ n ∈ first :: more, IsPlainName n) : ofKey (key first more) = ofNames first more := by
  have hfirst := h first List.mem_cons_self
  obtain ⟨htake, hdrop⟩ := span_plainName hfirst more
  rw [ofKey, ofText?, key, String.toList_ofList]
  rw [htake, hdrop, if_neg (by simpa using toList_ne_nil_of_plain hfirst), String.ofList_toList,
    continue?_names _ fun n hn => h n (List.mem_cons_of_mem first hn)]
  rfl

/-- A plain name stands for itself. -/
lemma ofKey_plainName {n : String} (hn : IsPlainName n) : ofKey n = .name n := by
  have hkey : key n [] = n := by simp [key]
  rw [← hkey, ofKey_key (by simpa using hn), hkey]
  rfl

end Place

end SchemaCut
