import SchemaCut.Subset

/-!
# Documents of requests and sets

Kinds, layouts, shortening options, requests and entity sets as documents: how each is read, and the
value that is written for it. Fields that have a default may be missing. A request without
shortening is written without that field.

A kind is written as its word and a layout as its name, in lower case.
-/

namespace SchemaCut

open Json (Record Reader)

/-- The words for kinds. -/
def Kind.choice : List (String × Kind) := Kind.all.map fun k => (k.word, k)

/-- Reads a kind. -/
def Kind.read (room : Nat) : Reader Kind := Json.readChoice choice room

/-- A kind as a document. -/
def Kind.toJson (k : Kind) : Json := .str k.word

/-- The words for layouts. -/
def Layout.choice : List (String × Layout) := [("pretty", .pretty), ("compact", .compact)]

/-- The word for a layout. -/
def Layout.word : Layout → String
  | .pretty => "pretty"
  | .compact => "compact"

/-- Reads a layout. -/
def Layout.read (room : Nat) : Reader Layout := Json.readChoice choice room

/-- A layout as a document. -/
def Layout.toJson (l : Layout) : Json := .str l.word

/-- A list of strings as a document. -/
def Json.ofStrings (ss : List String) : Json := .arr (ss.map .str)

/-- Reads a list of strings. -/
def Json.readStrings (room : Nat) : Reader (List String) := Json.readList (fun _ => readText) room

/-! ## Entity sets -/

namespace EntitySet

/-- The field of a set document that lists the names of a kind. -/
def sectionField (k : Kind) : Json.Field (PerKind (Option NameSet)) :=
  .slot k.sectionName true (fun s => (s.get k).isSome)
    (fun s names => s.modify k fun _ => some (NameSet.ofList names)) Json.readStrings

/-- A set document: three lists of names, in any order and with any repeats. -/
def document : Record (PerKind (Option NameSet)) EntitySet where
  title := "struct EntitySet"
  fields := Kind.all.map sectionField
  start := .const none
  finish s := ⟨s.map fun _ names => names.getD ∅⟩

/-- Reads a set document. -/
def ofText (text : String) : Except Json.Fault EntitySet := Json.readAll document.read text

/-- A set as a document. -/
def toJson (s : EntitySet) : Json :=
  .obj (Kind.all.map fun k => (k.sectionName, .ofStrings (s.names k).toList))

end EntitySet

/-! ## Shortening options -/

namespace ShortenOptions

/-- The options read so far. -/
structure Draft where
  maxLength : Option Nat := none
  fill : Option String := none
  keys : Option (List String) := none

/-- The options, with the default for what is not given. -/
def Draft.finish (d : Draft) : ShortenOptions :=
  let standard : ShortenOptions := {}
  { maxLength := d.maxLength.getD standard.maxLength
    fill := d.fill.getD standard.fill
    keys := d.keys.getD standard.keys }

/-- The field with the number of characters of a shortened text. -/
def maxLengthField : Json.Field Draft :=
  .slot "max_length" false (·.maxLength.isSome) (fun d n => { d with maxLength := some n })
    fun _ => Json.readCount

/-- The field with the marker. -/
def fillField : Json.Field Draft :=
  .slot "fill" false (·.fill.isSome) (fun d s => { d with fill := some s }) fun _ => Json.readText

/-- The field with the names whose texts are shortened. -/
def keysField : Json.Field Draft :=
  .slot "keys" false (·.keys.isSome) (fun d ks => { d with keys := some ks }) Json.readStrings

/-- An options document. -/
def document : Record Draft ShortenOptions where
  title := "struct ShortenOptions"
  fields := [maxLengthField, fillField, keysField]
  start := {}
  finish := Draft.finish

/-- Reads an options document. -/
def ofText (text : String) : Except Json.Fault ShortenOptions := Json.readAll document.read text

/-- Options as a document. -/
def toJson (o : ShortenOptions) : Json :=
  .obj [("max_length", .num (.int o.maxLength)), ("fill", .str o.fill),
    ("keys", .ofStrings o.keys)]

end ShortenOptions

/-! ## Requests -/

namespace Request

/-- The request read so far. -/
structure Draft where
  name : Option String := none
  kind : Option Kind := none
  fullParents : Option Bool := none
  shorten : Option (Option ShortenOptions) := none

/-- The request, with the default for what is not given. -/
def Draft.finish (d : Draft) : Request where
  root := ⟨d.kind.getD default, d.name.getD ""⟩
  fullParents := d.fullParents.getD false
  shorten := d.shorten.getD none

/-- The field with the name of the root. -/
def nameField : Json.Field Draft :=
  .slot "name" true (·.name.isSome) (fun d s => { d with name := some s }) fun _ => Json.readText

/-- The field with the kind of the root. -/
def kindField : Json.Field Draft :=
  .slot "kind" true (·.kind.isSome) (fun d k => { d with kind := some k }) Kind.read

/-- The field that asks for full parents. -/
def fullParentsField : Json.Field Draft :=
  .slot "load_full_parents" false (·.fullParents.isSome)
    (fun d b => { d with fullParents := some b }) fun _ => Json.readBool

/-- The field with the shortening options, or with null. -/
def shortenField : Json.Field Draft :=
  .slot "shorten" false (·.shorten.isSome) (fun d o => { d with shorten := some o })
    fun room => Json.readOptional (ShortenOptions.document.read room)

/-- A request document. -/
def document : Record Draft Request where
  title := "struct SubsetRequest"
  fields := [nameField, kindField, fullParentsField, shortenField]
  start := {}
  finish := Draft.finish

/-- Reads a request document. -/
def ofText (text : String) : Except Json.Fault Request := Json.readAll document.read text

/-- A request as a document. -/
def toJson (r : Request) : Json :=
  .obj ([("name", .str r.root.name), ("kind", r.root.kind.toJson),
      ("load_full_parents", .bool r.fullParents)] ++
    match r.shorten with
    | some o => [("shorten", o.toJson)]
    | none => [])

end Request

end SchemaCut
