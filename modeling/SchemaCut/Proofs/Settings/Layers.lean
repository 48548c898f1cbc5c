import Mathlib.Logic.Function.Basic
import Mathlib.Tactic.Lemma
import SchemaCut.Proofs.Settings.Given
import SchemaCut.Proofs.Settings.Variables

/-!
# Layers of settings

What an entry of a layer says about the settings that count is a relation without any merging in
it: an entry of a group gives one of its settings a value of its type, a group says what its
entries say, and every other entry with a plain name says nothing.  A variable of the environment
names a setting by both of its names, and its value is a text that stands for a count, a text or a
layout.

What a layer says is the last thing that its entries say, setting by setting.

* `SettingSays`, `EntrySays`, `VariableSays` : what an entry of a group, an entry of a settings file
  and a variable of the environment say.
* `lays_addLayer`, `lays_addLayer_ofEnvironment` : a layer of such entries sets what they say and
  leaves the other settings that count alone.
-/

namespace SchemaCut

namespace Config

open Setting

/-! ## Entries that are put into a group -/

/-- The settings that count, each with its group. -/
def knownSettings : List (String × String) :=
  [("shorten", "max_length"), ("shorten", "fill"), ("shorten", "keys"), ("output", "format")]

section Puts

open Function (update)

variable {g : Given} {a : Groups} {s s' v x : Setting} {group n : String}

lemma turns_put_maxLength {count : Nat} (h : IsCount v count) (a : Groups) :
    Turns { maxLength := some count } a
      (update a "shorten" (Entries.put "max_length" v (a "shorten"))) where
  maxLength := ⟨v, by simp [Entries.find?_put], h⟩
  fill := by simp [Sets, Entries.find?_put]
  keys := by simp [Sets, Entries.find?_put]
  layout := by simp [Sets, update]

lemma turns_put_fill {text : String} (h : IsText v text) (a : Groups) :
    Turns { fill := some text } a
      (update a "shorten" (Entries.put "fill" v (a "shorten"))) where
  maxLength := by simp [Sets, Entries.find?_put]
  fill := ⟨v, by simp [Entries.find?_put], h⟩
  keys := by simp [Sets, Entries.find?_put]
  layout := by simp [Sets, update]

lemma turns_put_keys {texts : List String} (h : IsTexts v texts) (a : Groups) :
    Turns { keys := some texts } a
      (update a "shorten" (Entries.put "keys" v (a "shorten"))) where
  maxLength := by simp [Sets, Entries.find?_put]
  fill := by simp [Sets, Entries.find?_put]
  keys := ⟨v, by simp [Entries.find?_put], h⟩
  layout := by simp [Sets, update]

lemma turns_put_layout {l : Layout} (h : IsLayout v l) (a : Groups) :
    Turns { layout := some l } a
      (update a "output" (Entries.put "format" v (a "output"))) where
  maxLength := by simp [Sets, update]
  fill := by simp [Sets, update]
  keys := by simp [Sets, update]
  layout := ⟨v, by simp [Entries.find?_put], h⟩

/-- A value under any other name of a group is passed over. -/
lemma turns_put_other (hother : (group, n) ∉ knownSettings) (v : Setting) (a : Groups) :
    Turns {} a (update a group (Entries.put n v (a group))) := by
  have hkept : ∀ known ∈ knownSettings,
      Entries.find? known.2 (update a group (Entries.put n v (a group)) known.1) =
        Entries.find? known.2 (a known.1) := by
    rintro ⟨group', n'⟩ hknown
    by_cases hgroup : group' = group
    · subst hgroup
      have hn : n' ≠ n := by
        rintro rfl
        exact hother hknown
      simp [Entries.find?_put, hn]
    · simp [hgroup]
  exact ⟨hkept ("shorten", "max_length") (by simp [knownSettings]),
    hkept ("shorten", "fill") (by simp [knownSettings]),
    hkept ("shorten", "keys") (by simp [knownSettings]),
    hkept ("output", "format") (by simp [knownSettings])⟩

/-- A change under a name that is no group is passed over. -/
lemma turns_update_of_not_mem (hgroup : group ∉ groupNames) (a : Groups)
    (es : List (String × Setting)) : Turns {} a (update a group es) := by
  simp only [groupNames, List.mem_cons, List.not_mem_nil, or_false, not_or] at hgroup
  obtain ⟨hshorten, houtput⟩ := hgroup
  constructor
  · simp [Sets, Ne.symm hshorten]
  · simp [Sets, Ne.symm hshorten]
  · simp [Sets, Ne.symm hshorten]
  · simp [Sets, Ne.symm houtput]

lemma groupsOf_of_entries_eq_put (h : s'.entries = Entries.put n x s.entries) :
    groupsOf s' = update (groupsOf s) n x.entries := by
  funext m
  rw [groupsOf, under_of_entries_eq_put h, Function.update_apply]
  rfl

/-- A value that is put under one name changes the settings that count only through the group with
that name. -/
lemma lays_of_entries_eq_put (htable : s'.IsTable) (h : s'.entries = Entries.put n x s.entries)
    (hgroup : Grouped s → n ∈ groupNames → x.IsTable)
    (hturns : Turns g (groupsOf s) (update (groupsOf s) n x.entries)) : Lays g s s' where
  turns := groupsOf_of_entries_eq_put h ▸ hturns
  grouped hs := by
    refine ⟨htable, fun m hm w hw => ?_⟩
    rw [h, Entries.find?_put] at hw
    by_cases hmn : m = n
    · rw [if_pos hmn] at hw
      cases hw
      exact hgroup hs (hmn ▸ hm)
    · rw [if_neg hmn] at hw
      exact hs.groups m hm w hw

/-- A change under a name that is no group is passed over. -/
lemma lays_of_not_mem (htable : s'.IsTable) (h : s'.entries = Entries.put n x s.entries)
    (hn : n ∉ groupNames) : Lays {} s s' :=
  lays_of_entries_eq_put htable h (fun _ hmem => absurd hmem hn)
    (turns_update_of_not_mem hn _ _)

end Puts

/-! ## Settings files -/

/-- What an entry of a group says.  The word for a layout may be in any letter case. -/
inductive SettingSays : String → String × Setting → Given → Prop where
  | maxLength (origin : String) (n : Nat) :
    SettingSays "shorten" ("max_length", .integer origin n) { maxLength := some n }
  | fill (origin text : String) :
    SettingSays "shorten" ("fill", .text origin text) { fill := some text }
  | keys (origin : Option String) (texts : List (String × String)) :
    SettingSays "shorten" ("keys", .list origin (texts.map fun t => .text t.1 t.2))
      { keys := some (texts.map Prod.snd) }
  | layout (origin : String) {word : String} {l : Layout} (hword : Text.lowered word = l.word) :
    SettingSays "output" ("format", .text origin word) { layout := some l }
  | other {group n : String} (v : Setting) (hn : IsPlainName n)
    (hother : (group, n) ∉ knownSettings) : SettingSays group (n, v) {}

/-- What an entry of a settings file says: that of a group what its entries say. -/
inductive EntrySays : String × Setting → Given → Prop where
  | group (origin : Option String) {n : String} {es : List (String × Setting)} {gs : List Given}
    (hn : n ∈ groupNames) (h : List.Forall₂ (SettingSays n) es gs) :
    EntrySays (n, .table origin es) (Given.last gs)
  | other {n : String} (v : Setting) (hn : IsPlainName n) (hother : n ∉ groupNames) :
    EntrySays (n, v) {}

lemma isCount_integer (origin : String) (n : Nat) : IsCount (.integer origin n) n := by
  intro key
  rw [toCount, if_pos (Int.natCast_nonneg n), Int.toNat_natCast]

lemma isText_text (origin text : String) : IsText (.text origin text) text := fun _ => rfl

lemma isTexts_list (origin : Option String) (texts : List (String × String)) :
    IsTexts (.list origin (texts.map fun t => .text t.1 t.2)) (texts.map Prod.snd) := by
  intro key
  rw [toTexts, elements, List.zipIdx_map, List.map_map, List.mapM_map]
  -- the index of an element is only for messages
  generalize 0 = i
  induction texts generalizing i with
  | nil => rfl
  | cons t texts ih =>
    rw [List.zipIdx_cons, List.mapM_cons, ih]
    rfl

lemma isLayout_text (origin : String) {word : String} {l : Layout}
    (hword : Text.lowered word = l.word) : IsLayout (.text origin word) l where
  choice := by
    have hchars : String.ofList (word.toList.map Char.toLower) = l.word := hword
    simp only [toChoice, hchars]
    cases l <;> rfl
  noTable := by
    intro h
    cases h

/-- The names of the groups and of the settings that count are plain. -/
lemma isPlainName_of_known (group n : String) (h : (group, n) ∈ knownSettings) :
    IsPlainName group ∧ IsPlainName n := by
  have hall : ∀ known ∈ knownSettings, ∀ n ∈ [known.1, known.2],
      n ≠ "" ∧ n.toList.all isPlainChar = true := by decide
  have hplain : ∀ n' ∈ [group, n], IsPlainName n' := fun n' hn' =>
    isPlainName_of_all (hall _ h n' hn').1 (hall _ h n' hn').2
  exact ⟨hplain group (by simp), hplain n (by simp)⟩

lemma isPlainName_of_mem_groupNames {group : String} (h : group ∈ groupNames) :
    IsPlainName group := by
  simp only [groupNames, List.mem_cons, List.not_mem_nil, or_false] at h
  rcases h with rfl | rfl
  · exact (isPlainName_of_known "shorten" "fill" (by simp [knownSettings])).1
  · exact (isPlainName_of_known "output" "format" (by simp [knownSettings])).1

lemma layOver_of_plain {n : String} (hn : IsPlainName n) {v : Setting} (hv : ¬v.IsTable)
    (into : List (String × Setting)) : layOver n v into = Entries.put n v into := by
  rw [layOver_eq_put, hn.lowerCase, laidOver_of_not_isTable hv]

lemma SettingSays.isPlainName {group : String} {e : String × Setting} {g : Given}
    (h : SettingSays group e g) : IsPlainName e.1 := by
  cases h with
  | maxLength | fill | keys =>
    exact (isPlainName_of_known "shorten" _ (by simp [knownSettings])).2
  | layout => exact (isPlainName_of_known "output" _ (by simp [knownSettings])).2
  | other v hn _ => exact hn

/-- Laying an entry over the entries of its group sets what it says. -/
lemma SettingSays.turns {group : String} {e : String × Setting} {g : Given}
    (h : SettingSays group e g) (a : Groups) :
    Turns g a (Function.update a group (layOver e.1 e.2 (a group))) := by
  have hplain := h.isPlainName
  cases h with
  | maxLength origin n =>
    rw [layOver_of_plain hplain (isCount_integer origin n).not_isTable]
    exact turns_put_maxLength (isCount_integer origin n) a
  | fill origin text =>
    rw [layOver_of_plain hplain (isText_text origin text).not_isTable]
    exact turns_put_fill (isText_text origin text) a
  | keys origin texts =>
    rw [layOver_of_plain hplain (isTexts_list origin texts).not_isTable]
    exact turns_put_keys (isTexts_list origin texts) a
  | layout origin hword =>
    rw [layOver_of_plain hplain (isLayout_text origin hword).noTable]
    exact turns_put_layout (isLayout_text origin hword) a
  | other v hn hother =>
    rw [layOver_eq_put, hn.lowerCase]
    exact turns_put_other hother _ a

/-- Laying entries over a group one after the other is a run of changes of that group. -/
lemma update_foldl_layOver (group : String) (es : List (String × Setting)) (a : Groups) :
    Function.update a group (es.foldl (fun into e => layOver e.1 e.2 into) (a group)) =
      es.foldl (fun a e => Function.update a group (layOver e.1 e.2 (a group))) a := by
  induction es generalizing a with
  | nil => exact Function.update_eq_self group a
  | cons e es ih =>
    rw [List.foldl_cons, List.foldl_cons, ← ih, Function.update_self, Function.update_idem]

/-- Laying an entry of a settings file over settings sets what it says. -/
lemma EntrySays.lays {e : String × Setting} {g : Given} (h : EntrySays e g) (s : Setting) :
    Lays g s ((Place.ofKey e.1).set e.2 s) := by
  cases h with
  | @group origin n es gs hn h =>
    have hplain := isPlainName_of_mem_groupNames hn
    rw [Place.ofKey_plainName hplain]
    have hentries := Place.entries_set_name (.table origin es) n s
    rw [hplain.lowerCase] at hentries
    refine lays_of_entries_eq_put (Place.isTable_set _ _ s) hentries ?_ ?_
    · intro hs _
      rw [laidOver]
      refine isTable_layAllOver (.inr ?_)
      cases hfound : Entries.find? n s.entries with
      | none => exact .intro _ _
      | some w => exact hs.groups n hn w hfound
    · rw [entries_laidOver_table]
      show Turns _ _ (Function.update _ n (es.foldl _ (groupsOf s n)))
      rw [update_foldl_layOver]
      exact Turns.foldl (h.imp fun _ _ hsaid => hsaid.turns) _
  | @other n v hn hother =>
    have hentries := Place.entries_set_name v n s
    rw [hn.lowerCase] at hentries
    rw [Place.ofKey_plainName hn]
    exact lays_of_not_mem (Place.isTable_set _ _ s) hentries hother

/-- A layer sets what its entries say. -/
lemma lays_addLayer {layer : List (String × Setting)} {gs : List Given}
    (h : List.Forall₂ EntrySays layer gs) (s : Setting) :
    Lays (Given.last gs) s (s.addLayer layer) :=
  Lays.foldl (h.imp fun _ _ hsaid => hsaid.lays) s

/-! ## The environment -/

/-- Names in a row that lead to no setting that counts. -/
def IsUnknown (first : String) (more : List String) : Prop :=
  first ∉ groupNames ∨ ∃ second rest, more = second :: rest ∧ (first, second) ∉ knownSettings

/-- What a variable of the environment says.  Those with other names are no settings. -/
inductive VariableSays : String × String → Given → Prop where
  | foreign {name : String} (value : String) (hname : variableKey? name = none) :
    VariableSays (name, value) {}
  | maxLength {name value : String} {n : Nat}
    (hname : variableKey? name = some "shorten.max_length")
    (hvalue : Text.digits? value.toList = some n) (hn : n < Nat.pow 2 63) :
    VariableSays (name, value) { maxLength := some n }
  | fill {name value : String} (hname : variableKey? name = some "shorten.fill")
    (hvalue : Unread value) : VariableSays (name, value) { fill := some value }
  | layout {name value : String} {l : Layout} (hname : variableKey? name = some "output.format")
    (hvalue : Text.lowered value = l.word) : VariableSays (name, value) { layout := some l }
  | other {name first : String} {more : List String} (value : String)
    (hname : variableKey? name = some (Place.key first more))
    (hplain : ∀ n ∈ first :: more, IsPlainName n) (hother : IsUnknown first more) :
    VariableSays (name, value) {}

/-- A value at a place in a group changes the group like an entry of it. -/
lemma lays_set_key {group n : String} (hgroup : IsPlainName group) (hn : IsPlainName n)
    {v : Setting}
    {g : Given} (h : ∀ a : Groups, Turns g a (Function.update a group (layOver n v (a group))))
    (s : Setting) : Lays g s ((Place.ofKey (Place.key group [n])).set v s) := by
  rw [Place.ofKey_key (by simpa using ⟨hgroup, hn⟩)]
  obtain ⟨x, y, hentries, htable, hx, hy⟩ := Place.exists_set_ofNames v group n [] s
  rw [hgroup.lowerCase] at hentries hx hy
  refine lays_of_entries_eq_put (Place.isTable_set _ _ s) hentries (fun _ _ => htable) ?_
  have hlaid : x.entries = layOver n v (groupsOf s group) := by
    rw [hx, hy rfl, layOver_eq_put]
    rfl
  rw [hlaid]
  exact h _

/-- The keys of the settings that the environment gives. -/
lemma key_known : Place.key "shorten" ["max_length"] = "shorten.max_length" ∧
    Place.key "shorten" ["fill"] = "shorten.fill" ∧
    Place.key "output" ["format"] = "output.format" := by decide

lemma lays_set_maxLength {v : Setting} {n : Nat} (h : IsCount v n) (s : Setting) :
    Lays { maxLength := some n } s ((Place.ofKey "shorten.max_length").set v s) := by
  obtain ⟨hgroup, hn⟩ := isPlainName_of_known "shorten" "max_length" (by simp [knownSettings])
  rw [← key_known.1]
  refine lays_set_key hgroup hn (fun a => ?_) s
  rw [layOver_of_plain hn h.not_isTable]
  exact turns_put_maxLength h a

lemma lays_set_fill {v : Setting} {text : String} (h : IsText v text) (s : Setting) :
    Lays { fill := some text } s ((Place.ofKey "shorten.fill").set v s) := by
  obtain ⟨hgroup, hn⟩ := isPlainName_of_known "shorten" "fill" (by simp [knownSettings])
  rw [← key_known.2.1]
  refine lays_set_key hgroup hn (fun a => ?_) s
  rw [layOver_of_plain hn h.not_isTable]
  exact turns_put_fill h a

lemma lays_set_layout {v : Setting} {l : Layout} (h : IsLayout v l) (s : Setting) :
    Lays { layout := some l } s ((Place.ofKey "output.format").set v s) := by
  obtain ⟨hgroup, hn⟩ := isPlainName_of_known "output" "format" (by simp [knownSettings])
  rw [← key_known.2.2]
  refine lays_set_key hgroup hn (fun a => ?_) s
  rw [layOver_of_plain hn h.noTable]
  exact turns_put_layout h a

/-- A value at a place that leads to no setting that counts is passed over. -/
lemma lays_of_isUnknown {first : String} {more : List String}
    (hplain : ∀ n ∈ first :: more, IsPlainName n) (h : IsUnknown first more) (v s : Setting) :
    Lays {} s ((Place.ofKey (Place.key first more)).set v s) := by
  have hfirst := hplain first List.mem_cons_self
  rw [Place.ofKey_key hplain]
  cases more with
  | nil =>
    have hentries := Place.entries_set_name v first s
    rw [hfirst.lowerCase] at hentries
    rcases h with hfirst | ⟨_, _, hmore, _⟩
    · exact lays_of_not_mem (Place.isTable_set _ _ s) hentries hfirst
    · cases hmore
  | cons second rest =>
    have hsecond := hplain second (by simp)
    obtain ⟨x, y, hentries, htable, hx, -⟩ := Place.exists_set_ofNames v first second rest s
    rw [hfirst.lowerCase] at hentries hx
    rw [hsecond.lowerCase] at hx
    rcases h with hother | ⟨_, _, hmore, hother⟩
    · exact lays_of_not_mem (Place.isTable_set _ _ s) hentries hother
    · cases hmore
      refine lays_of_entries_eq_put (Place.isTable_set _ _ s) hentries (fun _ _ => htable) ?_
      rw [hx]
      exact turns_put_other hother _ _

/-- The words for layouts stay texts. -/
lemma unread_of_lowered_eq_word {value : String} {l : Layout} (h : Text.lowered value = l.word) :
    Unread value := by
  cases l with
  | pretty => exact unread_of_lowered_eq "pretty" rfl h (by decide) (by decide)
  | compact => exact unread_of_lowered_eq "compact" rfl h (by decide) (by decide)

/-- A variable sets what is given: it is no setting and gives nothing, or its value at its place
sets what is given. -/
def VariableLays (e : String × String) (g : Given) : Prop :=
  (variableKey? e.1 = none ∧ g = {}) ∨ ∃ key, variableKey? e.1 = some key ∧
    ∀ s, Lays g s ((Place.ofKey key).set (ofVariable e.2) s)

/-- The layer of the environment sets what the variables give. -/
lemma lays_addLayer_ofEnvironment {environment : List (String × String)} {gs : List Given}
    (h : List.Forall₂ VariableLays environment gs) (s : Setting) :
    Lays (Given.last gs) s (s.addLayer (ofEnvironment environment)) := by
  induction h generalizing s with
  | nil => exact .refl s
  | @cons e g environment gs hlays _ ih =>
    rw [Given.last_cons]
    rcases hlays with ⟨hnone, rfl⟩ | ⟨key, hkey, hlays⟩
    · have hskip : ofEnvironment (e :: environment) = ofEnvironment environment :=
        List.filterMap_cons_none (by simp [hnone])
      rw [hskip]
      exact (Lays.refl s).trans (ih s)
    · have hfirst : ofEnvironment (e :: environment) =
          (key, ofVariable e.2) :: ofEnvironment environment :=
        List.filterMap_cons_some (by simp [hkey])
      rw [hfirst]
      exact (hlays s).trans (ih _)

/-- A variable sets what it says. -/
lemma VariableSays.lays {e : String × String} {g : Given} (h : VariableSays e g) :
    VariableLays e g := by
  cases h with
  | foreign value hname => exact .inl ⟨hname, rfl⟩
  | maxLength hname hvalue hn =>
    refine .inr ⟨_, hname, lays_set_maxLength ?_⟩
    rw [ofVariable_of_digits hvalue hn]
    exact isCount_integer _ _
  | fill hname hvalue =>
    refine .inr ⟨_, hname, lays_set_fill ?_⟩
    rw [ofVariable_of_unread hvalue]
    exact isText_text _ _
  | layout hname hvalue =>
    refine .inr ⟨_, hname, lays_set_layout ?_⟩
    rw [ofVariable_of_unread (unread_of_lowered_eq_word hvalue)]
    exact isLayout_text _ hvalue
  | other value hname hplain hother =>
    exact .inr ⟨_, hname, lays_of_isUnknown hplain hother _⟩

end Config

end SchemaCut
