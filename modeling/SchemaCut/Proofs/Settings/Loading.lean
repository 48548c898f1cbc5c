import Mathlib
import SchemaCut.Proofs.Settings.Layers

/-!
# Loading a configuration

A configuration is put together from layers: the files at the standard places, the file of the user,
a file that is asked for, and the environment.  `locations` lists where files are looked for, in
their order, and `LocationSays` tells what the file at one of them says, if there is one.  What that
is depends on the reader of its format, and nothing is asked of the readers.

* `load_of_lays` : a configuration is read off what its layers set.
* `load_eq_config_last` : a configuration has the last value given for each setting.
-/

namespace SchemaCut

namespace Config

open Setting

variable {around : Surroundings} {path : Option String}

/-! ## Files and layers -/

/-- Where settings files are looked for, the first one first, and whether one has to be there. -/
def locations (around : Surroundings) (path : Option String) : List (Bool × String) :=
  standardPaths.map (false, ·) ++
    (around.userFile.toList.filter around.files.hasEntry).map (false, ·) ++
      path.toList.map (true, ·)

/-- Where nothing is asked for, no file has to be there. -/
lemma mem_locations_none {l : Bool × String} :
    l ∈ locations around none ↔ l.1 = false ∧
      (l.2 ∈ standardPaths ∨ around.userFile = some l.2 ∧ around.files.hasEntry l.2 = true) := by
  obtain ⟨required, place⟩ := l
  simp only [locations, Option.toList_none, List.map_nil, List.append_nil, List.mem_append,
    List.mem_map, Prod.mk.injEq, List.mem_filter, Option.mem_toList]
  constructor
  · rintro (⟨p, hp, rfl, rfl⟩ | ⟨p, hp, rfl, rfl⟩)
    · exact ⟨rfl, .inl hp⟩
    · exact ⟨rfl, .inr hp⟩
  · rintro ⟨rfl, hp | hp⟩
    · exact .inl ⟨place, hp, rfl, rfl⟩
    · exact .inr ⟨place, hp, rfl, rfl⟩

/-- A file can be found and read at a path. -/
def IsThere (around : Surroundings) (path found : String) (format : Setting.Format)
    (text : String) : Prop :=
  locate around path = .ok (found, format) ∧ around.files.read found = .ok text

lemma fileLayer_of_isThere {required : Bool} {place found text : String}
    {format : Setting.Format} (h : IsThere around place found format text) :
    fileLayer around required place =
      (Setting.ofFile around.readers format (plainPath found) text).mapError
        (.unreadable (plainPath found)) := by
  obtain ⟨hlocate, hread⟩ := h
  unfold fileLayer
  rw [hlocate]
  simp only [bind, Except.bind]
  rw [hread]
  rfl

lemma fileLayer_of_not_isThere {place : String}
    (h : ∀ found format text, ¬IsThere around place found format text) :
    fileLayer around false place = .ok [] := by
  unfold fileLayer
  cases hlocate : locate around place with
  | error fault => rfl
  | ok found =>
    obtain ⟨found, format⟩ := found
    simp only [bind, Except.bind]
    cases hread : around.files.read found with
    | error fault => rfl
    | ok text => exact absurd ⟨hlocate, hread⟩ (h found format text)

lemma mapM_ok {α β ε : Type} {f : α → Except ε β} {as : List α} {bs : List β}
    (h : List.Forall₂ (fun a b => f a = .ok b) as bs) : as.mapM f = .ok bs := by
  induction h with
  | nil => rfl
  | cons ha _ ih =>
    rw [List.mapM_cons, ha, ih]
    rfl

/-- The layers are those of the files in their order, and the environment last. -/
lemma layers_eq (around : Surroundings) (path : Option String) :
    layers around path = do
      let files ← (locations around path).mapM fun l => fileLayer around l.1 l.2
      return files ++ [Setting.ofEnvironment around.environment] := by
  simp only [layers, locations, List.mapM_append, List.mapM_map, bind_assoc, pure_bind,
    List.append_assoc]
  rfl

/-- A configuration is read off what its layers set. -/
lemma load_of_lays {files : List (List (String × Setting))} {gs : List Given}
    (hfiles : List.Forall₂ (fun l layer => fileLayer around l.1 l.2 = .ok layer)
      (locations around path) files)
    (hlays : List.Forall₂ (fun layer g => ∀ s, Lays g s (s.addLayer layer))
      (files ++ [Setting.ofEnvironment around.environment]) gs) :
    load around path = .ok (Given.last gs).config := by
  have hlayers : layers around path =
      .ok (files ++ [Setting.ofEnvironment around.environment]) := by
    rw [layers_eq, mapM_ok hfiles]
    rfl
  have hall := Lays.foldl hlays (.table none [])
  have hgrouped : Grouped (.table none []) := ⟨.intro _ _, fun _ _ _ h => nomatch h⟩
  have hsettings := ofSettings_of_turns (hall.grouped hgrouped) hall.turns
  unfold load
  rw [hlayers]
  simp only [bind, Except.bind]
  rw [hsettings]
  rfl

/-! ## What is said at a location -/

/-- What the settings file at a location says. Where none has to be there, there may be none. -/
inductive LocationSays (around : Surroundings) : Bool × String → Given → Prop where
  | nothing {place : String} (h : ∀ found format text, ¬IsThere around place found format text) :
    LocationSays around (false, place) {}
  | file (required : Bool) {place found text : String} {format : Setting.Format}
    {layer : List (String × Setting)} {gs : List Given}
    (hthere : IsThere around place found format text)
    (hlayer : Setting.ofFile around.readers format (plainPath found) text = .ok layer)
    (hsaid : List.Forall₂ EntrySays layer gs) :
    LocationSays around (required, place) (Given.last gs)

/-- What the environment says. -/
def EnvironmentSays (environment : List (String × String)) (e : Given) : Prop :=
  ∃ gs, List.Forall₂ VariableSays environment gs ∧ e = Given.last gs

/-- The layer at a location sets what the location says. -/
lemma LocationSays.exists_layer {l : Bool × String} {g : Given} (h : LocationSays around l g) :
    ∃ layer, fileLayer around l.1 l.2 = .ok layer ∧ ∀ s, Lays g s (s.addLayer layer) := by
  cases h with
  | nothing h => exact ⟨[], fileLayer_of_not_isThere h, fun s => .refl s⟩
  | @file required place found text format layer gs hthere hlayer hsaid =>
    refine ⟨layer, ?_, lays_addLayer hsaid⟩
    rw [fileLayer_of_isThere hthere, hlayer]
    rfl

/-- The layers at several locations. -/
lemma exists_layers {ls : List (Bool × String)} {gs : List Given}
    (h : List.Forall₂ (LocationSays around) ls gs) :
    ∃ files, List.Forall₂ (fun l layer => fileLayer around l.1 l.2 = .ok layer) ls files ∧
      List.Forall₂ (fun layer g => ∀ s, Lays g s (s.addLayer layer)) files gs := by
  induction h with
  | nil => exact ⟨[], .nil, .nil⟩
  | cons hsaid _ ih =>
    obtain ⟨layer, hlayer, hlays⟩ := hsaid.exists_layer
    obtain ⟨files, hfiles, hall⟩ := ih
    exact ⟨layer :: files, .cons hlayer hfiles, .cons hlays hall⟩

/-- Each of the four settings has the value of the last layer that sets it, and its default if no
layer does.  Nothing is merged within a value, and whatever else the layers set is passed over. -/
theorem load_eq_config_last {gs : List Given} {e : Given}
    (hfiles : List.Forall₂ (LocationSays around) (locations around path) gs)
    (henvironment : EnvironmentSays around.environment e) :
    load around path = .ok (Given.last (gs ++ [e])).config := by
  obtain ⟨files, hlayers, hlays⟩ := exists_layers hfiles
  obtain ⟨es, hes, rfl⟩ := henvironment
  have hvariables := lays_addLayer_ofEnvironment (hes.imp fun _ _ hsaid => hsaid.lays)
  exact load_of_lays hlayers (List.rel_append hlays (.cons hvariables .nil))

/-- A standard settings file and another one, each with some of the settings, and a variable. -/
def layered : Surroundings where
  files := ⟨[
    (["schema-subset.toml"], .text "[shorten]\nfill = \"-\"\nkeys = [\"a\", \"b\"]"),
    (["custom.toml"], .text "colour = \"red\"\nshorten.keys = [\"c\"]")]⟩
  directory := "/work"
  environment := [("HOME", "/home/user"), ("SCHEMA_SUBSET__OUTPUT__FORMAT", "Compact")]

/-- Each setting is taken from the last of the layers that has it, a list as a whole. -/
theorem load_layered :
    (∃ gs e, List.Forall₂ (LocationSays layered) (locations layered (some "custom.toml")) gs ∧
      EnvironmentSays layered.environment e) ∧
    load layered (some "custom.toml") =
      .ok { shorten := { fill := "-", keys := ["c"] }, layout := .compact } := by
  have hfirst : Setting.ofFile layered.readers .toml "schema-subset.toml"
      "[shorten]\nfill = \"-\"\nkeys = [\"a\", \"b\"]" = .ok [("shorten",
        .table (some "schema-subset.toml") [("fill", .text "schema-subset.toml" "-"),
          ("keys", .list (some "schema-subset.toml")
            [.text "schema-subset.toml" "a", .text "schema-subset.toml" "b"])])] := by
    cbv
  have hasked : Setting.ofFile layered.readers .toml "custom.toml"
      "colour = \"red\"\nshorten.keys = [\"c\"]" = .ok [("colour", .text "custom.toml" "red"),
        ("shorten", .table (some "custom.toml")
          [("keys", .list (some "custom.toml") [.text "custom.toml" "c"])])] := by
    cbv
  have hthere : IsThere layered "schema-subset.toml" "schema-subset.toml" .toml _ :=
    ⟨by rfl, by rfl⟩
  have hcustom : IsThere layered "custom.toml" "custom.toml" .toml _ := ⟨by rfl, by rfl⟩
  have hcolour : IsPlainName "colour" := isPlainName_of_all (by decide) (by decide)
  have hnothing : ∀ place ∈ [".schema-subset.toml", "config/schema-subset.toml"],
      LocationSays layered (false, place) {} := by
    intro place hplace
    have hmissing : ∀ place ∈ [".schema-subset.toml", "config/schema-subset.toml"],
        locate layered place = .error (.fileMissing place) := by decide +kernel
    refine .nothing fun found format text hthere => ?_
    rw [IsThere, hmissing place hplace] at hthere
    cases hthere.1
  have hfiles : List.Forall₂ (LocationSays layered) (locations layered (some "custom.toml"))
      [Given.last [Given.last [{ fill := some "-" }, { keys := some ["a", "b"] }]], {}, {},
        Given.last [{}, Given.last [{ keys := some ["c"] }]]] := by
    refine .cons ?_ (.cons (hnothing _ (by simp)) (.cons (hnothing _ (by simp)) (.cons ?_ .nil)))
    · exact .file false hthere hfirst
        (.cons (.group _ (by decide) (.cons (.fill _ "-")
          (.cons (.keys _ [("schema-subset.toml", "a"), ("schema-subset.toml", "b")]) .nil))) .nil)
    · exact .file true hcustom hasked
        (.cons (.other _ hcolour (by decide)) (.cons (.group _ (by decide)
          (.cons (.keys _ [("custom.toml", "c")]) .nil)) .nil))
  have henvironment : EnvironmentSays layered.environment
      (Given.last [{}, { layout := some .compact }]) :=
    ⟨_, .cons (.foreign _ (by decide +kernel))
      (.cons (.layout (by decide +kernel) (by decide +kernel)) .nil), rfl⟩
  exact ⟨⟨_, _, hfiles, henvironment⟩, load_eq_config_last hfiles henvironment⟩

end Config

end SchemaCut
