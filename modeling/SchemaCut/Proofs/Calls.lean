import SchemaCut.Proofs.Arguments
import SchemaCut.Proofs.Cut
import SchemaCut.Proofs.Files

/-!
# What a call does

A call for a subset puts the configuration together, reads the schema and looks up the root, in this
order.  If all of this goes well, it gives out the text of the subset, and the text is the same
whether it is printed or written to a file.  If something goes wrong, the call fails for the first
thing that does, prints nothing, and leaves every file as it is.

* `Arguments.request`, `Arguments.layout` : what a call asks for under a configuration.
* `Emits`, `Fails` : the two ways in which a call ends.
* `run_emits_or_fails` : which of them it is, and with which text or reason.
-/

namespace SchemaCut.CommandLine

/-- The request of a call.  Descriptions are shortened only if the call says so, with the length and
the marker of the call, if it gives them, and otherwise as the configuration says. -/
def Arguments.request (a : Arguments) (c : Config) : Request where
  root := a.root
  fullParents := a.fullParents
  shorten :=
    if a.shorten then
      some {
        maxLength := a.maxLength.getD c.shorten.maxLength
        fill := a.fill.getD c.shorten.fill
        keys := c.shorten.keys }
    else none

/-- The layout that a call asks for. -/
def Arguments.layout (a : Arguments) (c : Config) : Layout :=
  if a.compact then .compact else c.layout

/-- A call gives out a text: it prints the text, or it writes a file with the text, from which the
text is read again. -/
structure Emits (o : Outcome) (before : FileTree) (output : Option String) (text : String) :
    Prop where
  printed : output = none → o.code = 0 ∧ o.stdout = text ∧ o.files before = before
  written : ∀ path after, output = some path → before.write path text = .ok after →
    o.code = 0 ∧ o.stdout = "" ∧ o.files before = after ∧ after.read path = .ok text

/-- A call fails for a reason: it says so, prints nothing, and leaves all files as they are. -/
structure Fails (o : Outcome) (before : FileTree) (reason : String) : Prop where
  code : o.code = 1
  stdout : o.stdout = ""
  stderr : o.stderr = "Error: " ++ reason ++ "\n"
  files : o.files before = before

section Product

variable {around : Config.Surroundings} {a : Arguments} {config : Config} {schema part : Schema}
  {f : Failure}

lemma product_of_no_configuration (h : Config.load around a.config = .error f) :
    product around a = .error (explain "failed to load configuration" f) := by
  rw [product, h]
  rfl

lemma product_of_no_schema (hconfig : Config.load around a.config = .ok config)
    (h : Schema.ofFile around.files a.schemaPath = .error f) :
    product around a = .error (explain ("failed to load schema " ++ a.schemaPath) f) := by
  rw [product, hconfig, h]
  rfl

lemma product_of_no_subset (hconfig : Config.load around a.config = .ok config)
    (hschema : Schema.ofFile around.files a.schemaPath = .ok schema)
    (h : schema.subset (a.request config) = .error f) : product around a = .error f.message := by
  rw [product, hconfig, hschema]
  change ((schema.subset (a.request config)).mapError Failure.message).bind _ = _
  rw [h]
  rfl

lemma product_of_subset (hconfig : Config.load around a.config = .ok config)
    (hschema : Schema.ofFile around.files a.schemaPath = .ok schema)
    (h : schema.subset (a.request config) = .ok part) :
    product around a = .ok (part.text (a.layout config) ++ "\n") := by
  rw [product, hconfig, hschema]
  change ((schema.subset (a.request config)).mapError Failure.message).bind _ = _
  rw [h]
  rfl

/-- Without a text to give out, a call fails before it comes to the output. -/
lemma fails_of_product {reason : String} (h : product around a = .error reason) :
    Fails (runSubset around a) around.files reason := by
  unfold runSubset
  rw [h]
  exact ⟨rfl, rfl, rfl, rfl⟩

lemma emits_of_product {text : String} (h : product around a = .ok text) :
    Emits (runSubset around a) around.files a.output text := by
  unfold runSubset
  rw [h]
  refine ⟨fun houtput => ?_, fun path after houtput hwrite => ?_⟩
  · rw [houtput]
    exact ⟨rfl, rfl, rfl⟩
  · rw [houtput]
    dsimp only
    rw [hwrite]
    refine ⟨rfl, rfl, ?_, FileTree.read_write hwrite⟩
    simp [Outcome.files, hwrite, Except.toOption]

end Product

/-- A call that is understood does what its options ask for.  It fails for the first of the
configuration, the schema and the root that is not to be had, and otherwise it gives out the text
of the subset, with a line break behind it. -/
theorem run_emits_or_fails (around : Config.Surroundings) {args : List String} {a : Arguments}
    (h : Call.read args = some (.subset a)) :
    (∃ given : Given, Spells args given ∧ given.InOrder ∧ Asks given a) ∧
    (∀ f, Config.load around a.config = .error f →
      Fails (run around args) around.files (explain "failed to load configuration" f)) ∧
    (∀ config f, Config.load around a.config = .ok config →
      Schema.ofFile around.files a.schemaPath = .error f →
      Fails (run around args) around.files
        (explain ("failed to load schema " ++ a.schemaPath) f)) ∧
    ∀ config schema, Config.load around a.config = .ok config →
      Schema.ofFile around.files a.schemaPath = .ok schema →
      (schema.contains a.root = false →
        Fails (run around args) around.files
          (Failure.unknownEntity a.root (schema.suggest a.root.kind a.root.name)).message) ∧
      (schema.contains a.root = true →
        ∃ part, schema.subset (a.request config) = .ok part ∧
          Emits (run around args) around.files a.output
            (part.text (a.layout config) ++ "\n")) := by
  have hrun : run around args = runSubset around a := by rw [run, h]
  rw [hrun]
  refine ⟨read_eq_subset_iff.1 h, fun f hconfig => ?_, fun config f hconfig hschema => ?_,
    fun config schema hconfig hschema => ⟨fun hroot => ?_, fun hroot => ?_⟩⟩
  · exact fails_of_product (product_of_no_configuration hconfig)
  · exact fails_of_product (product_of_no_schema hconfig hschema)
  · have hsubset := Schema.subset_of_not_contains (s := schema) (r := a.request config) hroot
    exact fails_of_product (product_of_no_subset hconfig hschema hsubset)
  · obtain ⟨part, hsubset⟩ := Schema.exists_subset_of_contains (r := a.request config) hroot
    exact ⟨part, hsubset, emits_of_product (product_of_subset hconfig hschema hsubset)⟩

lemma exists_of_map_eq_ok {α β : Type} {x : Except Failure α} {g : α → β} {b : β}
    (h : x.map g = .ok b) : ∃ a, x = .ok a ∧ g a = b := by
  cases x with
  | error f => cases h
  | ok a => exact ⟨a, rfl, Except.ok.inj h⟩

/-- A schema of one described type. -/
def widgetSchema : Schema :=
  (∅ : Schema).insert ⟨.type, "widget"⟩ (.obj [("description", .str "a small part")])

/-- Files with that schema, and with settings that give a length and a marker. -/
def widgets : Config.Surroundings where
  files := ⟨[
    (["schema.json"], .text (widgetSchema.text .pretty)),
    (["schema-subset.toml"], .text "[shorten]\nmax_length = 4\nfill = \"..\"\n")]⟩
  directory := "/"

/-- Arguments with another marker, and a file for the subset. -/
def cutWidget : List String :=
  ["--schema-path=schema.json", "--name", "widget", "--context", "type", "--fill=~",
    "--shorten-descriptions", "-o", "widget.json", "--compact"]

/-- What these arguments ask for. -/
def cutWidgetArguments : Arguments where
  schemaPath := "schema.json"
  root := ⟨.type, "widget"⟩
  shorten := true
  fill := some "~"
  output := some "widget.json"
  compact := true

/-- A call with a marker of its own uses the length of the settings, and its file holds the text of
the subset. -/
theorem run_emits_widget :
    Call.read cutWidget = some (.subset cutWidgetArguments) ∧
    ∃ schema part, Schema.ofFile widgets.files "schema.json" = .ok schema ∧
      schema.subset { root := ⟨.type, "widget"⟩, shorten := some { maxLength := 4, fill := "~" } } =
        .ok part ∧
      (run widgets cutWidget).code = 0 ∧ (run widgets cutWidget).stdout = "" ∧
      ((run widgets cutWidget).files widgets.files).read "widget.json" =
        .ok (part.text .compact ++ "\n") := by
  have hread : Call.read cutWidget = some (.subset cutWidgetArguments) := by decide +kernel
  have hconfig : Config.load widgets none =
      .ok { shorten := { maxLength := 4, fill := ".." } } := by
    decide +kernel
  have hroot : (Schema.ofFile widgets.files "schema.json").map (·.contains ⟨.type, "widget"⟩) =
      .ok true := by
    decide +kernel
  obtain ⟨schema, hschema, hroot⟩ := exists_of_map_eq_ok hroot
  obtain ⟨-, -, -, hemits⟩ := run_emits_or_fails widgets hread
  obtain ⟨part, hsubset, hemitted⟩ := (hemits _ schema hconfig hschema).2 hroot
  obtain ⟨hcode, hstdout, hfiles, hcontent⟩ := hemitted.written "widget.json" _ rfl rfl
  exact ⟨hread, schema, part, hschema, hsubset, hcode, hstdout, hfiles ▸ hcontent⟩

end SchemaCut.CommandLine
