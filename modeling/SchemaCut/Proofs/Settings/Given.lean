import Mathlib.Data.List.Forall2
import Mathlib.Tactic.Lemma
import SchemaCut.Config
import SchemaCut.Proofs.Settings.Layering

/-!
# What is given for the settings that count

Four settings make up a configuration.  A `Given` says which of them something sets, and to what;
`Given.last` takes of several the last value of each setting, and `Given.config` fills in the
defaults.

The settings that a configuration is read from are followed through their changes by `Turns`: a
change sets what is given to a value that is read as such, and leaves the other three alone.  This
says nothing about all other settings, so whatever happens to those can be passed over.  A
configuration can be read if moreover the two groups are tables, which is `Grouped`.

* `Turns.trans` : one change behind another gives the later values where there are some.
* `ofSettings_of_turns` : what is read after a change of empty settings.
-/

namespace SchemaCut

namespace Config

open Setting

/-! ## Given values -/

/-- The values given for the settings that count. -/
structure Given where
  maxLength : Option Nat := none
  fill : Option String := none
  keys : Option (List String) := none
  layout : Option Layout := none
  deriving DecidableEq, Repr

namespace Given

/-- What is given later, and earlier values where nothing is given later. -/
def or (later earlier : Given) : Given where
  maxLength := later.maxLength.or earlier.maxLength
  fill := later.fill.or earlier.fill
  keys := later.keys.or earlier.keys
  layout := later.layout.or earlier.layout

/-- The last value given for each setting. -/
def last (gs : List Given) : Given where
  maxLength := (gs.filterMap (·.maxLength)).getLast?
  fill := (gs.filterMap (·.fill)).getLast?
  keys := (gs.filterMap (·.keys)).getLast?
  layout := (gs.filterMap (·.layout)).getLast?

/-- The configuration with the given values, and the defaults where none is given. -/
def config (g : Given) : Config :=
  let standard : ShortenOptions := {}
  { shorten := {
      maxLength := g.maxLength.getD standard.maxLength
      fill := g.fill.getD standard.fill
      keys := g.keys.getD standard.keys }
    layout := g.layout.getD .pretty }

lemma last_append (gs gs' : List Given) : last (gs ++ gs') = (last gs').or (last gs) := by
  simp only [last, or, List.filterMap_append, List.getLast?_append]

lemma last_singleton (g : Given) : last [g] = g := by
  obtain ⟨maxLength, fill, keys, layout⟩ := g
  cases maxLength <;> cases fill <;> cases keys <;> cases layout <;> rfl

lemma last_cons (g : Given) (gs : List Given) : last (g :: gs) = (last gs).or g := by
  rw [← List.singleton_append, last_append, last_singleton]

end Given

/-! ## Values that are read -/

/-- A setting that is read as a count. -/
def IsCount (v : Setting) (n : Nat) : Prop := ∀ key, v.toCount key = .ok n

/-- A setting that is read as a text. -/
def IsText (v : Setting) (s : String) : Prop := ∀ key, v.toText key = .ok s

/-- A setting that is read as a list of texts. -/
def IsTexts (v : Setting) (ss : List String) : Prop := ∀ key, v.toTexts key = .ok ss

/-- A setting that is read as a layout, and is no table. -/
structure IsLayout (v : Setting) (l : Layout) : Prop where
  choice : v.toChoice "OutputFormat" Layout.choice = .ok l
  noTable : ¬v.IsTable

lemma IsCount.not_isTable {v : Setting} {n : Nat} (h : IsCount v n) : ¬v.IsTable := by
  rintro ⟨o, es⟩
  cases h ""

lemma IsText.not_isTable {v : Setting} {s : String} (h : IsText v s) : ¬v.IsTable := by
  rintro ⟨o, es⟩
  cases h ""

lemma IsTexts.not_isTable {v : Setting} {ss : List String} (h : IsTexts v ss) : ¬v.IsTable := by
  rintro ⟨o, es⟩
  cases h ""

/-! ## Changes of a setting -/

/-- A change sets a setting to a value that is read as the given one, or leaves it alone if none is
given. -/
def Sets {β : Type} (is : Setting → β → Prop) (old new : Option Setting) : Option β → Prop
  | none => new = old
  | some b => ∃ v, new = some v ∧ is v b

/-- Reads a setting that may not be there. -/
def readOr {β : Type} (read : Setting → Except SettingsFault β) (standard : β) :
    Option Setting → Except SettingsFault β
  | some v => read v
  | none => .ok standard

namespace Sets

variable {β : Type} {is : Setting → β → Prop} {a b c : Option Setting}

lemma trans {x y : Option β} (h : Sets is a b x) (h' : Sets is b c y) : Sets is a c (y.or x) := by
  cases y with
  | none =>
    have hsame : c = b := h'
    rw [hsame]
    exact h
  | some y => exact h'

/-- A setting that was set from nothing is read as given, or as its default. -/
lemma readOr_eq {new : Option Setting} {x : Option β} (h : Sets is none new x)
    {read : Setting → Except SettingsFault β} (hread : ∀ v b, is v b → read v = .ok b)
    (standard : β) : readOr read standard new = .ok (x.getD standard) := by
  cases x with
  | none =>
    have hnone : new = none := h
    rw [hnone]
    rfl
  | some x =>
    obtain ⟨v, hv, his⟩ := h
    rw [hv]
    exact hread v x his

end Sets

/-! ## Changes of the groups -/

/-- The entries of each group of settings. -/
abbrev Groups := String → List (String × Setting)

/-- The groups in settings. -/
def groupsOf (s : Setting) : Groups := fun n => s.under n

/-- The names of the groups that count. -/
def groupNames : List String := ["shorten", "output"]

/-- A change of the groups sets what is given. -/
structure Turns (g : Given) (before after : Groups) : Prop where
  maxLength : Sets IsCount (Entries.find? "max_length" (before "shorten"))
    (Entries.find? "max_length" (after "shorten")) g.maxLength
  fill : Sets IsText (Entries.find? "fill" (before "shorten"))
    (Entries.find? "fill" (after "shorten")) g.fill
  keys : Sets IsTexts (Entries.find? "keys" (before "shorten"))
    (Entries.find? "keys" (after "shorten")) g.keys
  layout : Sets IsLayout (Entries.find? "format" (before "output"))
    (Entries.find? "format" (after "output")) g.layout

namespace Turns

variable {g g' : Given} {a b c : Groups}

lemma refl (a : Groups) : Turns {} a a := ⟨rfl, rfl, rfl, rfl⟩

lemma trans (h : Turns g a b) (h' : Turns g' b c) : Turns (g'.or g) a c :=
  ⟨h.maxLength.trans h'.maxLength, h.fill.trans h'.fill, h.keys.trans h'.keys,
    h.layout.trans h'.layout⟩

/-- A run of changes sets the last value given for each setting. -/
lemma foldl {ι : Type} {step : Groups → ι → Groups} {xs : List ι} {gs : List Given}
    (h : List.Forall₂ (fun x g => ∀ a, Turns g a (step a x)) xs gs) (a : Groups) :
    Turns (Given.last gs) a (xs.foldl step a) := by
  induction h generalizing a with
  | nil => exact refl a
  | cons hx _ ih =>
    rw [Given.last_cons]
    exact (hx a).trans (ih _)

end Turns

/-- Settings in which only tables stand in the places of the two groups. -/
structure Grouped (s : Setting) : Prop where
  table : s.IsTable
  groups : ∀ n ∈ groupNames, ∀ v, Entries.find? n s.entries = some v → v.IsTable

/-- A change of settings sets what is given, and keeps groups tables. -/
structure Lays (g : Given) (s s' : Setting) : Prop where
  turns : Turns g (groupsOf s) (groupsOf s')
  grouped : Grouped s → Grouped s'

namespace Lays

variable {g g' : Given} {s t u : Setting}

lemma refl (s : Setting) : Lays {} s s := ⟨.refl _, id⟩

lemma trans (h : Lays g s t) (h' : Lays g' t u) : Lays (g'.or g) s u :=
  ⟨h.turns.trans h'.turns, fun hs => h'.grouped (h.grouped hs)⟩

/-- A run of changes sets the last value given for each setting. -/
lemma foldl {ι : Type} {step : Setting → ι → Setting} {xs : List ι} {gs : List Given}
    (h : List.Forall₂ (fun x g => ∀ s, Lays g s (step s x)) xs gs) (s : Setting) :
    Lays (Given.last gs) s (xs.foldl step s) := by
  induction h generalizing s with
  | nil => exact refl s
  | cons hx _ ih =>
    rw [Given.last_cons]
    exact (hx s).trans (ih _)

end Lays

/-! ## Reading a configuration -/

/-- The entries that were found under some names, each with its name. -/
lemma lookup_filterMap {β : Type} (names : List String) (f : String → Option β) (n : String) :
    (names.filterMap fun n => (f n).map fun b => (n, b)).lookup n =
      if n ∈ names then f n else none := by
  induction names with
  | nil => rfl
  | cons m names ih =>
    by_cases hnm : n = m
    · subst hnm
      cases hf : f n with
      | none =>
        rw [List.filterMap_cons_none (by simp [hf]), ih, hf]
        simp
      | some b =>
        rw [List.filterMap_cons_some (b := (n, b)) (by simp [hf])]
        simp
    · have hne : (n == m) = false := by simpa using hnm
      cases hf : f m with
      | none =>
        rw [List.filterMap_cons_none (by simp [hf]), ih]
        simp [hnm]
      | some b =>
        rw [List.filterMap_cons_some (b := (m, b)) (by simp [hf]), List.lookup_cons, hne]
        simp [ih, hnm]

/-- A group that is a table gives each of its names the entry of the table. -/
lemma exists_group_table (title key : String) (names : List String) (o : Option String)
    (es : List (String × Setting)) :
    ∃ parts, (table o es).group title key names = .ok parts ∧ ∀ n ∈ names, parts.lookup n =
      (Entries.find? n es).map fun v => (if key.isEmpty then n else key ++ "." ++ n, v) := by
  refine ⟨_, rfl, fun n hn => ?_⟩
  have hlookup := lookup_filterMap names
    (fun n => (Entries.find? n es).map fun v => (if key.isEmpty then n else key ++ "." ++ n, v)) n
  rw [if_pos hn] at hlookup
  rw [← hlookup]
  simp only [Option.map_map]
  rfl

/-- A group that is a table is read one setting after the other. -/
lemma shortenOf_table (o : Option String) (es : List (String × Setting)) :
    shortenOf "shorten" (.table o es) = do
      let standard : ShortenOptions := {}
      let maxLength ← readOr (toCount "shorten.max_length") standard.maxLength
        (Entries.find? "max_length" es)
      let fill ← readOr (toText "shorten.fill") standard.fill (Entries.find? "fill" es)
      let keys ← readOr (toTexts "shorten.keys") standard.keys (Entries.find? "keys" es)
      return { maxLength, fill, keys } := by
  obtain ⟨parts, hparts, hlookup⟩ :=
    exists_group_table "struct ShortenOptions" "shorten" ["max_length", "fill", "keys"] o es
  unfold shortenOf
  rw [hparts]
  simp only [bind, Except.bind]
  rw [hlookup "max_length" (by simp), hlookup "fill" (by simp), hlookup "keys" (by simp)]
  cases Entries.find? "max_length" es <;> cases Entries.find? "fill" es <;>
    cases Entries.find? "keys" es <;> rfl

lemma layoutOf_table (o : Option String) (es : List (String × Setting)) :
    layoutOf "output" (.table o es) =
      readOr (toChoice "OutputFormat" Layout.choice) .pretty (Entries.find? "format" es) := by
  obtain ⟨parts, hparts, hlookup⟩ :=
    exists_group_table "struct OutputConfig" "output" ["format"] o es
  unfold layoutOf
  rw [hparts]
  simp only [bind, Except.bind]
  rw [hlookup "format" (by simp)]
  cases Entries.find? "format" es <;> rfl

/-- Settings whose groups are tables are read group by group; a group that is not there is read as
an empty one. -/
lemma ofSettings_grouped {s : Setting} (h : Grouped s) :
    ofSettings s = do
      let shorten ← shortenOf "shorten" (.table none (groupsOf s "shorten"))
      let layout ← layoutOf "output" (.table none (groupsOf s "output"))
      return { shorten, layout } := by
  obtain ⟨⟨o, es⟩, hgroups⟩ := h
  obtain ⟨parts, hparts, hlookup⟩ :=
    exists_group_table "struct SubsetConfig" "" ["shorten", "output"] o es
  have hkey : ∀ n, (if "".isEmpty then n else "" ++ "." ++ n) = n := fun n => if_pos rfl
  simp only [hkey] at hlookup
  unfold ofSettings
  rw [hparts]
  simp only [bind, Except.bind]
  rw [hlookup "shorten" (by simp), hlookup "output" (by simp)]
  simp only [groupsOf, under, Setting.entries]
  cases hfirst : Entries.find? "shorten" es with
  | none =>
    cases hsecond : Entries.find? "output" es with
    | none => rfl
    | some w =>
      obtain ⟨o'', es''⟩ := hgroups "output" (by simp [groupNames]) w hsecond
      simp only [Option.map_some, Option.map_none, Option.getD_some, Option.getD_none,
        Setting.entries, layoutOf_table]
      rfl
  | some v =>
    obtain ⟨o', es'⟩ := hgroups "shorten" (by simp [groupNames]) v hfirst
    cases hsecond : Entries.find? "output" es with
    | none =>
      simp only [Option.map_some, Option.map_none, Option.getD_some, Option.getD_none,
        Setting.entries, shortenOf_table]
      rfl
    | some w =>
      obtain ⟨o'', es''⟩ := hgroups "output" (by simp [groupNames]) w hsecond
      simp only [Option.map_some, Option.getD_some, Setting.entries, shortenOf_table,
        layoutOf_table]

variable {g : Given} {s : Setting}

/-- What a configuration is read as when the settings have been changed from empty ones. -/
lemma ofSettings_of_turns (hgrouped : Grouped s) (h : Turns g (fun _ => []) (groupsOf s)) :
    ofSettings s = .ok g.config := by
  rw [ofSettings_grouped hgrouped, shortenOf_table, layoutOf_table]
  dsimp only
  rw [h.maxLength.readOr_eq fun _ _ his => his "shorten.max_length",
    h.fill.readOr_eq fun _ _ his => his "shorten.fill",
    h.keys.readOr_eq fun _ _ his => his "shorten.keys",
    h.layout.readOr_eq fun _ _ his => his.choice]
  rfl

end Config

end SchemaCut
