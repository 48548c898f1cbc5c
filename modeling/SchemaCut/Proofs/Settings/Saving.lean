import Mathlib.Tactic.Lemma
import SchemaCut.Proofs.Files
import SchemaCut.Proofs.Settings.Loading
import SchemaCut.Proofs.Toml.Lines

/-!
# Saving a configuration and loading it again

A saved configuration is a layer that gives all four settings, and a file that is asked for is laid
over all others.  So it does not matter what the other files say, only that each of them can be
read, and that is so after saving if it was before: a path that leads to another file still does,
and one that now leads to the saved file finds a settings file there, since a file whose name ends
with the ending of this format is not looked for under another.  In which order the endings are
tried does not matter for this, nor do the readers of the other formats.

* `ofSettings_addLayer_saved` : the saved layer over any settings is read as what was saved.
* `isThere_of_after` : the settings files that are found after saving.
* `load_save` : a configuration that has been saved is loaded again.
-/

namespace SchemaCut

namespace Config

open Setting

/-! ## The saved layer -/

/-- All the settings of a configuration. -/
def Given.all (c : Config) : Given where
  maxLength := some c.shorten.maxLength
  fill := some c.shorten.fill
  keys := some c.shorten.keys
  layout := some c.layout

/-- The layer of the file that is written for a configuration. -/
def savedLayer (origin : String) (c : Config) : List (String × Setting) :=
  ofTomlEntries origin (Toml.tablesOf c)

lemma ofTomlItems_texts (origin : String) (texts : List String) :
    ofTomlItems origin (texts.map .text) =
      (texts.map fun t => (origin, t)).map fun t => .text t.1 t.2 := by
  induction texts with
  | nil => rfl
  | cons t texts ih => exact congrArg (Setting.text origin t :: ·) ih

lemma savedLayer_eq (origin : String) (c : Config) :
    savedLayer origin c = [
      ("shorten", .table (some origin) [("max_length", .integer origin c.shorten.maxLength),
        ("fill", .text origin c.shorten.fill), ("keys", .list (some origin)
          ((c.shorten.keys.map fun t => (origin, t)).map fun t => .text t.1 t.2))]),
      ("output", .table (some origin) [("format", .text origin c.layout.word)])] := by
  rw [← ofTomlItems_texts]
  rfl

lemma lowered_word (l : Layout) : Text.lowered l.word = l.word := by
  cases l <;> decide

/-- The saved layer gives every setting. -/
lemma lays_savedLayer (origin : String) (c : Config) (s : Setting) :
    Lays (Given.all c) s (s.addLayer (savedLayer origin c)) := by
  have hkeys := SettingSays.keys (some origin) (c.shorten.keys.map fun t => (origin, t))
  have hsaid : List.Forall₂ EntrySays (savedLayer origin c)
      [Given.last [{ maxLength := some c.shorten.maxLength }, { fill := some c.shorten.fill },
          { keys := some ((c.shorten.keys.map fun t => (origin, t)).map Prod.snd) }],
        Given.last [{ layout := some c.layout }]] := by
    rw [savedLayer_eq]
    exact .cons (.group _ (by decide) (.cons (.maxLength _ _) (.cons (.fill _ _)
      (.cons hkeys .nil)))) (.cons (.group _ (by decide)
        (.cons (.layout _ (lowered_word c.layout)) .nil)) .nil)
  have hkept : (c.shorten.keys.map fun t => (origin, t)).map Prod.snd = c.shorten.keys := by
    simp [Function.comp_def]
  have hlays := lays_addLayer hsaid s
  rw [hkept] at hlays
  exact hlays

/-- A table that is laid over settings under a plain name leaves a table there, and whatever stands
under other names. -/
lemma find?_set_table {o : Option String} {n : String} (hn : IsPlainName n)
    {es : List (String × Setting)} (hes : es ≠ []) (s : Setting) {m : String} {v : Setting}
    (h : Entries.find? m ((Place.ofKey n).set (.table o es) s).entries = some v) :
    if m = n then v.IsTable else Entries.find? m s.entries = some v := by
  rw [Place.ofKey_plainName hn, Place.entries_set_name, hn.lowerCase, Entries.find?_put] at h
  split_ifs at h ⊢ with hm
  · cases h
    exact isTable_layAllOver (.inl hes)
  · exact h

/-- The saved layer leaves tables in the places of the groups, whatever stood there. -/
lemma grouped_addLayer_saved (origin : String) (c : Config) (s : Setting) :
    Grouped (s.addLayer (savedLayer origin c)) := by
  have hshorten : IsPlainName "shorten" := isPlainName_of_mem_groupNames (by decide)
  have houtput : IsPlainName "output" := isPlainName_of_mem_groupNames (by decide)
  rw [savedLayer_eq]
  refine ⟨Place.isTable_set _ _ _, fun n hn v hv => ?_⟩
  have hlast := find?_set_table houtput (List.cons_ne_nil _ _) _ hv
  split_ifs at hlast with hn'
  · exact hlast
  · have hfirst := find?_set_table hshorten (List.cons_ne_nil _ _) _ hlast
    rwa [if_pos] at hfirst
    simpa [groupNames, hn'] using hn

/-- Settings with the saved layer over them are read as the configuration that was saved. -/
theorem ofSettings_addLayer_saved (origin : String) (c : Config) (s : Setting) :
    ofSettings (s.addLayer (savedLayer origin c)) = .ok c := by
  have hturns := (lays_savedLayer origin c s).turns
  -- every setting is given, so what there was before does not matter
  exact ofSettings_of_turns (g := Given.all c) (grouped_addLayer_saved origin c s)
    ⟨hturns.maxLength, hturns.fill, hturns.keys, hturns.layout⟩

/-! ## Endings -/

section Endings

variable {path last : String}

lemma getLast?_pathSteps (h : (FileTree.steps path).getLast? = some last)
    (hlast : last ∉ ["", "."]) : (pathSteps path).getLast? = some last := by
  obtain ⟨before, hsteps⟩ := List.getLast?_eq_some_iff.1 h
  have hstep : last ≠ "" ∧ last ≠ "." := by simpa using hlast
  rw [pathSteps, hsteps, List.filter_append, List.filter_cons_of_pos (by simp [hstep]),
    List.filter_nil, List.getLast?_append]
  rfl

/-- A name ends with its ending. -/
lemma suffix_of_ending? {word : String} (hlast : (pathSteps path).getLast? = some last)
    (h : ending? path = some word) : word.toList <:+ last.toList := by
  rw [ending?, hlast] at h
  dsimp only at h
  split at h
  · next part before more hparts =>
    split_ifs at h
    cases h
    have hpart : (Text.parts '.' last).getLast? = some word := by
      rw [List.getLast?_eq_head?_reverse, hparts]
      rfl
    exact Text.suffix_of_getLast?_parts hpart
  · cases h

/-- Each ending names one format. -/
lemma ofEnding?_eq_some_iff {ending : String} {format : Format} :
    Format.ofEnding? ending = some format ↔ ending ∈ format.endings := by
  constructor
  · intro h
    simpa using List.find?_some h
  · revert ending
    cases format with
    | toml | json => decide
    | foreign f => cases f <;> decide

/-- A settings file is found at its path if a file is there, and else at a candidate. -/
lemma locate_eq_ok {around : Surroundings} {place found : String} {format : Format} :
    locate around place = .ok (found, format) ↔
      around.files.isFile place = true ∧ found = place ∧
        (ending? place).bind Format.ofEnding? = some format ∨
      around.files.isFile place = false ∧
        ((candidates around.order place).find? fun c => around.files.isFile c.1) =
          some (found, format) := by
  unfold locate
  by_cases hfile : around.files.isFile place = true
  · rw [if_pos hfile]
    cases (ending? place).bind Format.ofEnding? with
    | none => simp [hfile]
    | some f => simp [hfile, eq_comm]
  · rw [if_neg hfile]
    cases (candidates around.order place).find? fun c => around.files.isFile c.1 with
    | none => simp [hfile]
    | some c => simp [hfile]

/-- Where a settings file is found, the path ends with an ending of its format. -/
lemma suffix_of_locate {around : Surroundings} {place found : String} {format : Format}
    (h : locate around place = .ok (found, format))
    (hlast : (FileTree.steps found).getLast? = some last) (hstep : last ∉ ["", "."]) :
    ∃ e ∈ format.endings, e.toList <:+ found.toList := by
  rcases locate_eq_ok.1 h with ⟨-, rfl, hformat⟩ | ⟨-, hfind⟩
  · obtain ⟨e, hending, hnamed⟩ := Option.bind_eq_some_iff.1 hformat
    have hword := suffix_of_ending? (getLast?_pathSteps hlast hstep) hending
    exact ⟨e, ofEnding?_eq_some_iff.1 hnamed, hword.trans (Text.suffix_of_getLast?_parts hlast)⟩
  · have hmem := List.mem_of_find?_eq_some hfind
    rw [candidates] at hmem
    split at hmem
    · cases hmem
    · cases hmem
    · obtain ⟨f, -, hf⟩ := List.mem_flatMap.1 hmem
      obtain ⟨e, he, hname⟩ := List.mem_map.1 hf
      cases hname
      refine ⟨e, he, ?_⟩
      rw [String.toList_append]
      exact List.suffix_append _ _

/-- No ending of another format is the end of the ending of saved files or of the step upwards, nor
the other way round. -/
lemma endings_apart {format : Format} (hformat : format ≠ .toml) {e : String}
    (he : e ∈ format.endings) {w : String} (hw : w ∈ ["toml", ".."]) :
    ¬e.toList <:+ w.toList ∧ ¬w.toList <:+ e.toList := by
  revert w e
  cases format with
  | toml => exact absurd rfl hformat
  | json => decide
  | foreign f => cases f <;> decide

end Endings

/-! ## Settings files after saving -/

section Files

variable {around : Surroundings} {after : FileTree} {path place found text content : String}
  {names : List String} {format : Format}

/-- The file that is saved at a path with the ending of the format is not found under another
format. -/
lemma format_of_saved {asDirectory : Bool} (hending : ending? path = some "toml")
    (hpath : around.files.locate path = .ok (names, false))
    (hwrites : around.files.Writes names content after)
    (hlocate : locate { around with files := after } place = .ok (found, format))
    (hfound : after.locate found = .ok (names, asDirectory)) : format = .toml := by
  obtain ⟨dir, last, -, hlast, hname, rfl⟩ := FileTree.exists_parent hpath
  obtain ⟨step, hend, hstep, hsame⟩ := FileTree.exists_last_of_file hfound
    (by simp [hwrites.entry?_self]) (by simp [hwrites.entry?_self])
  obtain ⟨e, he, hformat⟩ := suffix_of_locate hlocate hend hstep
  have hsuffix := Text.suffix_of_getLast?_parts hend
  by_contra hother
  -- an end of the last step and the ending are both ends of the path, so one is an end of the other
  have hapart : ∀ w ∈ ["toml", ".."], ¬w.toList <:+ step.toList := by
    intro w hw hword
    obtain ⟨hshort, hlong⟩ := endings_apart hother he hw
    exact (List.suffix_or_suffix_of_suffix hformat (hword.trans hsuffix)).elim hshort hlong
  rcases hsame with rfl | hsame
  · exact hapart ".." (by simp) (List.suffix_refl _)
  · have heq : last = step := by simpa using hsame
    have htoml := suffix_of_ending? (getLast?_pathSteps hlast (heq ▸ hstep)) hending
    exact hapart "toml" (by simp) (heq ▸ htoml)

/-- What is found after saving and was a file before was found before. -/
lemma locate_of_after (hwrites : around.files.Writes names content after)
    (h : locate { around with files := after } place = .ok (found, format))
    (hfound : around.files.isFile found = true) : locate around place = .ok (found, format) := by
  have hmissing : ∀ {p}, after.isFile p = false → around.files.isFile p = false := by
    intro p hp
    rw [← Bool.not_eq_true] at hp ⊢
    exact mt hwrites.isFile_after hp
  rw [locate_eq_ok] at h ⊢
  rcases h with ⟨-, rfl, hformat⟩ | ⟨hplace, hfind⟩
  · exact .inl ⟨hfound, rfl, hformat⟩
  · -- the candidates in front of it were no files before either
    obtain ⟨-, earlier, later, hsplit, hnone⟩ := List.find?_eq_some_iff_append.1 hfind
    refine .inr ⟨hmissing hplace, List.find?_eq_some_iff_append.2
      ⟨hfound, earlier, later, hsplit, fun c hc => ?_⟩⟩
    rw [hmissing (by simpa using hnone c hc), Bool.not_false]

/-- A settings file that is found after saving was there before or is the saved one. -/
lemma isThere_of_after (hending : ending? path = some "toml")
    (hpath : around.files.locate path = .ok (names, false))
    (hwrites : around.files.Writes names content after)
    (h : IsThere { around with files := after } place found format text) :
    IsThere around place found format text ∨ format = .toml ∧ text = content := by
  obtain ⟨hlocate, hread⟩ := h
  rcases hwrites.find_of_after (FileTree.read_eq_ok.1 hread)
    with hsame | ⟨htext, asDirectory, hfound⟩
  · have hfile : around.files.isFile found = true :=
      FileTree.isFile_iff.2 ⟨_, hsame, by simp⟩
    exact .inl ⟨locate_of_after hwrites hlocate hfile, FileTree.read_eq_ok.2 hsame⟩
  · cases htext
    exact .inr ⟨format_of_saved hending hpath hwrites hlocate hfound, rfl⟩

/-- The settings files that are loaded without being asked for can all be read. -/
def FilesReadable (around : Surroundings) : Prop :=
  ∀ l ∈ locations around none, ∀ found format text, IsThere around l.2 found format text →
    ∃ layer, Setting.ofFile around.readers format (plainPath found) text = .ok layer

/-- A place where a settings file was found before and is found after saving was one that is looked
at before, too. -/
lemma mem_locations_of_after {l : Bool × String} (hwrites : around.files.Writes names content after)
    (hl : l ∈ locations { around with files := after } none)
    (hafter : IsThere { around with files := after } l.2 found format text)
    (h : IsThere around l.2 found format text) : l ∈ locations around none := by
  obtain ⟨hrequired, hstandard | ⟨huser, hentry⟩⟩ := mem_locations_none.1 hl
  · exact mem_locations_none.2 ⟨hrequired, .inl hstandard⟩
  · refine mem_locations_none.2 ⟨hrequired, .inr ⟨huser, ?_⟩⟩
    obtain ⟨f, hfind⟩ := FileTree.hasEntry_iff.1 hentry
    rcases hwrites.find_of_after hfind with hbefore | ⟨rfl, -⟩
    · exact FileTree.hasEntry_iff.2 ⟨f, hbefore⟩
    · -- the saved file stands at the place itself, so it is the one that is found there
      have hfile : after.isFile l.2 = true := FileTree.isFile_iff.2 ⟨_, hfind, by simp⟩
      rcases locate_eq_ok.1 hafter.1 with ⟨-, hfound, -⟩ | ⟨hno, -⟩
      · exact FileTree.hasEntry_iff.2 ⟨_, hfound ▸ FileTree.read_eq_ok.1 h.2⟩
      · exact absurd (hno.symm.trans hfile) Bool.false_ne_true

/-- What is written for a configuration can be read as a settings file. -/
lemma ofFile_settingsText (readers : Readers) (origin : String) {c : Config}
    (hlength : c.shorten.maxLength < Nat.pow 2 63) :
    Setting.ofFile readers .toml origin c.settingsText = .ok (savedLayer origin c) := by
  rw [Setting.ofFile, Toml.ofText?_settingsText c hlength]
  rfl

/-- After saving the settings files that are not asked for can still be read. -/
lemma exists_layer_after {c : Config} (hlength : c.shorten.maxLength < Nat.pow 2 63)
    (hending : ending? path = some "toml")
    (hpath : around.files.locate path = .ok (names, false))
    (hwrites : around.files.Writes names c.settingsText after) (hreadable : FilesReadable around)
    {l : Bool × String} (hl : l ∈ locations { around with files := after } none) :
    ∃ layer, fileLayer { around with files := after } l.1 l.2 = .ok layer := by
  by_cases hthere : ∃ found format text,
      IsThere { around with files := after } l.2 found format text
  · obtain ⟨found, format, text, hthere⟩ := hthere
    obtain ⟨layer, hlayer⟩ :
        ∃ layer, Setting.ofFile around.readers format (plainPath found) text = .ok layer := by
      rcases isThere_of_after hending hpath hwrites hthere with hbefore | ⟨rfl, rfl⟩
      · have hmem := mem_locations_of_after hwrites hl hthere hbefore
        exact hreadable l hmem found format text hbefore
      · exact ⟨_, ofFile_settingsText _ _ hlength⟩
    refine ⟨layer, ?_⟩
    rw [fileLayer_of_isThere hthere, hlayer]
    rfl
  · rw [(mem_locations_none.1 hl).1]
    simp only [not_exists] at hthere
    exact ⟨[], fileLayer_of_not_isThere hthere⟩

end Files

/-! ## Loading what has been saved -/

lemma exists_forall₂ {α β : Type} {r : α → β → Prop} {as : List α} (h : ∀ a ∈ as, ∃ b, r a b) :
    ∃ bs, List.Forall₂ r as bs := by
  induction as with
  | nil => exact ⟨[], .nil⟩
  | cons a as ih =>
    obtain ⟨b, hb⟩ := h a List.mem_cons_self
    obtain ⟨bs, hbs⟩ := ih fun a' ha' => h a' (List.mem_cons_of_mem a ha')
    exact ⟨b :: bs, .cons hb hbs⟩

/-- The files after an attempt to save a configuration. -/
def filesAfter (c : Config) (files : FileTree) (path : String) : FileTree :=
  match c.save files path with
  | .ok after => after
  | .error _ => files

variable {around : Surroundings} {path : String}

/-- A configuration whose length fits a settings file is saved at any path with the ending of the
format where a file can be written. -/
lemma exists_save {c : Config} (hlength : c.shorten.maxLength < Nat.pow 2 63)
    (hwritable : around.files.IsWritable path) :
    ∃ after, around.files.write path c.settingsText = .ok after ∧
      c.save around.files path = .ok after := by
  obtain ⟨after, hwrite⟩ := hwritable.exists_write c.settingsText
  refine ⟨after, hwrite, ?_⟩
  rw [save, if_neg (by omega), hwrite]
  rfl

/-- The saved file is found in its format. -/
lemma isThere_saved {after : FileTree} {content : String}
    (hending : ending? path = some "toml")
    (hread : after.read path = .ok content) :
    IsThere { around with files := after } path path .toml content := by
  have hfile : after.isFile path = true :=
    FileTree.isFile_iff.2 ⟨_, FileTree.read_eq_ok.1 hread, by simp⟩
  refine ⟨locate_eq_ok.2 (.inl ⟨hfile, rfl, ?_⟩), hread⟩
  rw [hending]
  exact ofEnding?_eq_some_iff.2 List.mem_cons_self

/-- Once all other layers can be read, a file that has been saved is loaded as it was saved. -/
lemma load_of_saved {c : Config} (hlength : c.shorten.maxLength < Nat.pow 2 63)
    (hthere : IsThere around path path .toml c.settingsText)
    (hlower : ∀ l ∈ locations around none, ∃ layer, fileLayer around l.1 l.2 = .ok layer)
    (hvariables : Setting.ofEnvironment around.environment = []) :
    load around (some path) = .ok c := by
  obtain ⟨lower, hlower⟩ := exists_forall₂ hlower
  have hsaved : fileLayer around true path = .ok (savedLayer (plainPath path) c) := by
    rw [fileLayer_of_isThere hthere, ofFile_settingsText _ _ hlength]
    rfl
  have hlocations : locations around (some path) = locations around none ++ [(true, path)] := by
    simp [locations]
  have hall : List.Forall₂ (fun l layer => fileLayer around l.1 l.2 = .ok layer)
      (locations around (some path)) (lower ++ [savedLayer (plainPath path) c]) := by
    rw [hlocations]
    exact List.rel_append hlower (.cons hsaved .nil)
  have hlayers : layers around (some path) =
      .ok (lower ++ [savedLayer (plainPath path) c] ++ [[]]) := by
    rw [layers_eq, mapM_ok hall, hvariables]
    rfl
  unfold load
  rw [hlayers]
  simp only [bind, Except.bind]
  rw [List.append_assoc, List.foldl_append]
  show (ofSettings (Setting.addLayer _ (savedLayer (plainPath path) c))).mapError _ = _
  rw [ofSettings_addLayer_saved]
  rfl

/-- No variable of the environment has a name for settings. -/
def NoVariables (environment : List (String × String)) : Prop :=
  ∀ e ∈ environment, ¬variablePrefix <+: (Text.lowerCase e.1).toList

lemma NoVariables.ofEnvironment {environment : List (String × String)}
    (h : NoVariables environment) : Setting.ofEnvironment environment = [] := by
  refine List.filterMap_eq_nil_iff.2 fun e he => ?_
  have hno := mt List.isPrefixOf_iff_prefix.1 (h e he)
  simp [variableKey?, hno]

/-- A configuration that has been saved is loaded as it was, whatever the other settings files say.
If its length does not fit the integers of settings files, nothing is written. -/
theorem load_save (c : Config) (around : Surroundings) (path : String) :
    (c.shorten.maxLength < Nat.pow 2 63 → ending? path = some "toml" →
      around.files.IsWritable path → FilesReadable around → NoVariables around.environment →
      ∃ after, c.save around.files path = .ok after ∧
        load { around with files := after } (some path) = .ok c) ∧
    (Nat.pow 2 63 ≤ c.shorten.maxLength →
      c.save around.files path = .error .lengthOutOfRange ∧
        c.filesAfter around.files path = around.files) := by
  constructor
  · intro hlength hending hwritable hreadable hvariables
    obtain ⟨after, hwrite, hsave⟩ := exists_save hlength hwritable
    obtain ⟨names, hpath, hwrites⟩ := FileTree.writes_of_write hwrite
    refine ⟨after, hsave, load_of_saved hlength ?_ ?_ hvariables.ofEnvironment⟩
    · exact isThere_saved hending (FileTree.read_write hwrite)
    · intro l hl
      exact exists_layer_after hlength hending hpath hwrites hreadable hl
  · intro hlength
    have hsave : c.save around.files path = .error .lengthOutOfRange := by
      rw [save, if_pos hlength]
    rw [filesAfter, hsave]
    exact ⟨rfl, rfl⟩

/-- A standard settings file with a value where a group should stand, and another file. -/
def unsettled : Surroundings where
  files := ⟨[(["schema-subset.toml"], .text "shorten = \"no\""), (["custom.toml"], .binary)]⟩
  directory := "/work"
  environment := [("HOME", "/home/user"), ("SCHEMA_SUBSET", "subset")]

/-- A configuration with texts that look like other values takes the place of both, and one with a
length that is too large leaves them there. -/
theorem load_save_unsettled :
    (unsettled.files.IsWritable "custom.toml" ∧ FilesReadable unsettled ∧
      NoVariables unsettled.environment) ∧
    (∃ after, save { shorten := { fill := "5\n'''\"", keys := ["true", ""] } } unsettled.files
        "custom.toml" = .ok after ∧
      load { unsettled with files := after } (some "custom.toml") =
        .ok { shorten := { fill := "5\n'''\"", keys := ["true", ""] } }) ∧
    filesAfter { shorten := { maxLength := Nat.pow 2 63 } } unsettled.files "custom.toml" =
      unsettled.files := by
  have hreadable : FilesReadable unsettled := by
    have hfirst : locate unsettled "schema-subset.toml" = .ok ("schema-subset.toml", .toml) := by
      decide +kernel
    have hlayer : ∀ origin, Setting.ofFile unsettled.readers .toml origin "shorten = \"no\"" =
        .ok [("shorten", .text origin "no")] := by
      intro origin
      cbv
    have hmissing : ∀ place ∈ [".schema-subset.toml", "config/schema-subset.toml"],
        locate unsettled place = .error (.fileMissing place) := by decide +kernel
    rintro l hl found format text ⟨hlocate, hread⟩
    obtain ⟨-, hplace | ⟨huser, -⟩⟩ := mem_locations_none.1 hl
    · rcases List.mem_cons.1 hplace with hplace | hplace
      · rw [hplace, hfirst] at hlocate
        cases hlocate
        have htext : text = "shorten = \"no\"" := by
          have hthere : unsettled.files.read "schema-subset.toml" = .ok "shorten = \"no\"" := rfl
          rw [hthere] at hread
          exact (Except.ok.inj hread).symm
        exact ⟨_, htext ▸ hlayer _⟩
      · rw [hmissing _ hplace] at hlocate
        cases hlocate
    · cases huser
  have hwritable : unsettled.files.IsWritable "custom.toml" :=
    ⟨by decide, ["custom.toml"], by decide +kernel, by decide +kernel⟩
  have hvariables : NoVariables unsettled.environment := by
    unfold NoVariables
    decide +kernel
  refine ⟨⟨hwritable, hreadable, hvariables⟩, ?_, ?_⟩
  · exact (load_save _ unsettled "custom.toml").1 (by decide +kernel) (by decide +kernel)
      hwritable hreadable hvariables
  · exact ((load_save _ unsettled "custom.toml").2 (Nat.le_refl _)).2

end Config

end SchemaCut
