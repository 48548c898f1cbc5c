import SchemaCut.Failure
import SchemaCut.Json.Printer
import SchemaCut.Json.Record
import SchemaCut.Suggestion

/-!
# Schemas

A schema maps the names of each kind to definitions. A definition is a document value of any form;
`Schema.ofText` reads a schema document and refuses it if a definition is not an object, naming the
first such entity in the order of entities. Members of the document other than the three sections
are passed over.

`Schema.text` writes the three sections in their fixed order and everything below in ascending
order of names, so a schema has one text in each layout.

* `Schema.ext_find?` : a schema is determined by its look-ups.
-/

namespace SchemaCut

/-- A schema: for each kind the definitions by name. -/
structure Schema where
  byKind : PerKind (NameMap Json)

namespace Schema

instance : EmptyCollection Schema := ⟨⟨.const ∅⟩⟩

/-- The definitions of a kind. -/
def definitions (s : Schema) (k : Kind) : NameMap Json := s.byKind.get k

/-- The definition of an entity. -/
def find? (s : Schema) (e : Entity) : Option Json := (s.definitions e.kind).find? e.name

/-- Whether an entity is in the schema. -/
def contains (s : Schema) (e : Entity) : Bool := (s.find? e).isSome

/-- Sets the definition of an entity. -/
def insert (s : Schema) (e : Entity) (definition : Json) : Schema :=
  ⟨s.byKind.modify e.kind fun m => m.insert e.name definition⟩

/-- Takes an entity out. -/
def erase (s : Schema) (e : Entity) : Schema :=
  ⟨s.byKind.modify e.kind fun m => m.erase e.name⟩

/-- Every entity with its definition, in ascending order of entities. -/
def entities (s : Schema) : List (Entity × Json) :=
  Kind.all.flatMap fun k => (s.definitions k).entries.map fun d => (⟨k, d.1⟩, d.2)

/-- The set of the entities of the schema. -/
def entitySet (s : Schema) : EntitySet :=
  ⟨s.byKind.map fun _ m => m.nameSet⟩

/-- The number of entities. -/
def size (s : Schema) : Nat :=
  (s.definitions .type).size + (s.definitions .resource).size + (s.definitions .function).size

/-- The entities of a set that are in the schema, with their definitions. -/
def restrict (s : Schema) (keep : EntitySet) : Schema :=
  ⟨s.byKind.map fun k m => m.restrict fun n => n ∈ keep.names k⟩

/-- Changes every definition. -/
def map (f : Json → Json) (s : Schema) : Schema := ⟨s.byKind.map fun _ m => m.map f⟩

theorem ext_find? {s t : Schema} (h : ∀ e, s.find? e = t.find? e) : s = t := by
  have : s.byKind = t.byKind :=
    PerKind.ext_get fun k => NameMap.ext_find? fun n => h ⟨k, n⟩
  cases s; cases t; simp_all

@[simp] theorem find?_empty (e : Entity) : (∅ : Schema).find? e = none := by
  obtain ⟨k, n⟩ := e
  cases k <;> rfl

theorem find?_insert (s : Schema) (e x : Entity) (definition : Json) :
    (s.insert e definition).find? x = if x = e then some definition else s.find? x := by
  obtain ⟨j, m⟩ := x
  obtain ⟨k, n⟩ := e
  by_cases h : j = k
  · subst h; simp [find?, definitions, insert, NameMap.find?_insert]
  · simp [find?, definitions, insert, PerKind.get_modify, h]

theorem find?_erase (s : Schema) (e x : Entity) :
    (s.erase e).find? x = if x = e then none else s.find? x := by
  obtain ⟨j, m⟩ := x
  obtain ⟨k, n⟩ := e
  by_cases h : j = k
  · subst h; simp [find?, definitions, erase, NameMap.find?_erase]
  · simp [find?, definitions, erase, PerKind.get_modify, h]

theorem find?_restrict (s : Schema) (keep : EntitySet) (e : Entity) :
    (s.restrict keep).find? e = if e ∈ keep then s.find? e else none := by
  simp [find?, definitions, restrict, NameMap.find?_restrict, EntitySet.mem_def]

theorem find?_map (f : Json → Json) (s : Schema) (e : Entity) :
    (s.map f).find? e = (s.find? e).map f := by
  simp [find?, definitions, map, NameMap.find?_map]

@[simp] theorem mem_entitySet {s : Schema} {e : Entity} :
    e ∈ s.entitySet ↔ s.contains e = true := by
  simp [entitySet, EntitySet.mem_def, EntitySet.names, contains, find?, definitions,
    NameMap.contains]

theorem mem_entities {s : Schema} {e : Entity} {d : Json} :
    (e, d) ∈ s.entities ↔ s.find? e = some d := by
  obtain ⟨k, n⟩ := e
  simp [entities, find?, NameMap.find?_eq_some_iff]

/-! ## Look-up with a suggestion -/

/-- The name of a kind that fits a query best. -/
def suggest (s : Schema) (k : Kind) (query : String) : Option String :=
  Suggestion.bestMatch query (s.definitions k).names

/-- The definition of an entity that has to be there. -/
def require (s : Schema) (e : Entity) : Except Failure Json :=
  match s.find? e with
  | some definition => .ok definition
  | none => .error (.unknownEntity e (s.suggest e.kind e.name))

/-! ## Documents -/

/-- Fails with the first entity whose definition is not an object. -/
def validate (s : Schema) : Except Failure Unit :=
  match s.entities.find? fun d => !d.2.isObject with
  | some d => .error (.notAnObject d.1)
  | none => .ok ()

/-- The field of a schema document that holds one section. -/
def sectionField (k : Kind) : Json.Field (PerKind (Option (NameMap Json))) where
  name := k.sectionName
  required := true
  given s := (s.get k).isSome
  read room s cs := (Json.readMap Json.readValue room cs).map fun p =>
    p.map fun m => s.modify k fun _ => some m

/-- A schema document: its three sections. -/
def document : Json.Record (PerKind (Option (NameMap Json))) Schema where
  title := "struct ProviderSchema"
  fields := Kind.all.map sectionField
  start := .const none
  finish s := ⟨s.map fun _ m => m.getD ∅⟩

/-- Reads a schema document without looking at the form of the definitions. -/
def ofDocument (text : String) : Except Json.Fault Schema := Json.readAll document.read text

/-- Reads a schema document. -/
def ofText (text : String) : Except Failure Schema := do
  let s ← (ofDocument text).mapError .document
  s.validate
  return s

/-- Reads a schema document from a file. -/
def ofFile (files : FileTree) (path : String) : Except Failure Schema := do
  let text ← (files.read path).mapError .file
  ofText text

/-- The schema as a document. -/
def toJson (s : Schema) : Json :=
  .obj (Kind.all.map fun k => (k.sectionName, .obj (s.definitions k).entries))

/-- The text of the schema. -/
def text (s : Schema) (layout : Layout) : String := s.toJson.text layout

end Schema

end SchemaCut
