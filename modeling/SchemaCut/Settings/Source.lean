import SchemaCut.Json.Reader
import SchemaCut.Settings.Decode
import SchemaCut.Toml.Reader

/-!
# Sources of settings

A layer of settings is read from a file or from the variables of the environment whose names start
with `schema_subset__` in any letter case. The rest of such a name is a place, with two underscores
for each dot; the value is a truth value, an integer or a double if it reads as one of these, tried
in this order, and else a text.

The ending of a file tells its format. Files in the TOML format and documents are read here. For the
other formats the `Readers` are taken as given, and all that is asked of the value of a file is that
it is a table.
-/

namespace SchemaCut.Setting

mutual

/-- A value of a settings file. -/
def ofToml (origin : String) : Toml → Setting
  | .text s => .text origin s
  | .integer n => .integer origin n
  | .float bits => .float origin bits
  | .boolean b => .boolean origin b
  | .moment s => .text origin s
  | .array items => .list (some origin) (ofTomlItems origin items)
  | .table _ entries => .table (some origin) (ofTomlEntries origin entries)
  | .tables elements => .list (some origin) (ofTomlItems origin elements)
termination_by structural v => v

/-- `ofToml` at every element. -/
def ofTomlItems (origin : String) : List Toml → List Setting
  | [] => []
  | v :: vs => ofToml origin v :: ofTomlItems origin vs
termination_by structural vs => vs

/-- `ofToml` at every entry. -/
def ofTomlEntries (origin : String) : List (String × Toml) → List (String × Setting)
  | [] => []
  | (n, v) :: es => (n, ofToml origin v) :: ofTomlEntries origin es
termination_by structural es => es

end

/-- A number of a document. Integers that do not fit 64 bits with their sign are taken as doubles.
-/
def ofNumber (origin : String) : Number → Setting
  | .int n =>
    if n < Nat.pow 2 63 then .integer origin n else .float origin (Decimal.ratioBits n.toNat 1)
  | .double bits => .float origin bits

mutual

/-- A value of a document. -/
def ofJson (origin : String) : Json → Setting
  | .null => .null origin
  | .bool b => .boolean origin b
  | .num n => ofNumber origin n
  | .str s => .text origin s
  | .arr items => .list (some origin) (ofJsonItems origin items)
  | .obj members => .table (some origin) (ofJsonMembers origin members)
termination_by structural v => v

/-- `ofJson` at every element. -/
def ofJsonItems (origin : String) : List Json → List Setting
  | [] => []
  | v :: vs => ofJson origin v :: ofJsonItems origin vs
termination_by structural vs => vs

/-- `ofJson` at every member. -/
def ofJsonMembers (origin : String) : List (String × Json) → List (String × Setting)
  | [] => []
  | (n, v) :: ms => (n, ofJson origin v) :: ofJsonMembers origin ms
termination_by structural ms => ms

end

/-- The formats of settings files that have readers of their own, about which nothing is said here.
-/
inductive Foreign where
  | yaml
  | ini
  | ron
  | json5
  deriving DecidableEq, Repr

/-- The formats of settings files. -/
inductive Format where
  | toml
  | json
  | foreign (f : Foreign)
  deriving DecidableEq, Repr

/-- Every format once. -/
def Format.all : List Format :=
  [.toml, .json, .foreign .yaml, .foreign .ini, .foreign .ron, .foreign .json5]

/-- The endings of the names of files in a format. -/
def Format.endings : Format → List String
  | .toml => ["toml"]
  | .json => ["json"]
  | .foreign .yaml => ["yaml", "yml"]
  | .foreign .ini => ["ini"]
  | .foreign .ron => ["ron"]
  | .foreign .json5 => ["json5"]

/-- The format that an ending names. -/
def Format.ofEnding? (ending : String) : Option Format :=
  Format.all.find? fun f => f.endings.contains ending

/-- What the readers of the other formats make of the text of a file, with its path: a value, or why
it is none. -/
abbrev Readers : Type := Foreign → String → String → Except String Setting

/-- Readers that take no text, for where no others are at hand. -/
def noReaders : Readers := fun _ _ _ => .error "no reader for this format"

/-- The entries of the value in a settings file, which has to be a table. -/
def rootEntries (s : Setting) : Except LayerFault (List (String × Setting)) :=
  match s with
  | .table _ entries => .ok entries
  | other => .error (.noTable other.found)

/-- The layer that the text of a settings file stands for. -/
def ofFile (readers : Readers) (format : Format) (origin text : String) :
    Except LayerFault (List (String × Setting)) :=
  match format with
  | .toml =>
    match Toml.ofText? text with
    | some entries => .ok (ofTomlEntries origin entries)
    | none => .error .notToml
  | .json => do rootEntries (ofJson origin (← (Json.ofText text).mapError .document))
  | .foreign f => do rootEntries (← (readers f origin text).mapError .foreign)

/-! ## The environment -/

/-- Where settings of the environment are from, in words. -/
def environmentOrigin : String := "the environment"

/-- The value of a variable. -/
def ofVariable (value : String) : Setting :=
  let word := String.ofList (value.toList.map Char.toLower)
  if word = "true" then .boolean environmentOrigin true
  else if word = "false" then .boolean environmentOrigin false
  else
    match Text.integer? value, Text.double? value with
    | some n, _ => .integer environmentOrigin n
    | none, some bits => .float environmentOrigin bits
    | none, none => .text environmentOrigin value

/-- What the names of variables that hold settings start with, in lower case. -/
def variablePrefix : List Char :=
  ['s', 'c', 'h', 'e', 'm', 'a', '_', 's', 'u', 'b', 's', 'e', 't', '_', '_']

/-- Replaces every two underscores with a dot, from left to right. -/
def dots : List Char → List Char
  | '_' :: '_' :: cs => '.' :: dots cs
  | c :: cs => c :: dots cs
  | [] => []

/-- The key of the setting that a variable holds, if it holds one. -/
def variableKey? (name : String) : Option String :=
  if variablePrefix.isPrefixOf (Text.lowerCase name).toList then
    let key := dots (name.toList.drop variablePrefix.length)
    some (Text.lowerCase (String.ofList key))
  else none

/-- The layer of the environment. -/
def ofEnvironment (environment : List (String × String)) : List (String × Setting) :=
  environment.filterMap fun (name, value) =>
    (variableKey? name).map fun key => (key, ofVariable value)

end SchemaCut.Setting
