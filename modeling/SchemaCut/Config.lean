import SchemaCut.Documents
import SchemaCut.Settings.Decode
import SchemaCut.Settings.Source
import SchemaCut.Toml.Writer

/-!
# Configuration

A `Config` says how descriptions are shortened and how documents are laid out. It is put together
from layers, later ones over earlier ones: the files at three places of the working directory, the
file of the user, a file that is asked for, and the environment. What no layer sets has its default.

Of the files only the one that is asked for has to be there. A path may leave out the ending that
names the format. In which order the endings are tried then, and how files are read whose format is
not known here, is part of the `Surroundings`.

`Config.load` puts a configuration together, and `Config.save` writes one to a file.
-/

namespace SchemaCut

open Json (Record Field Reader)

/-- How subsets are written. -/
structure Config where
  shorten : ShortenOptions := {}
  layout : Layout := .pretty
  deriving DecidableEq, Repr

namespace Config

/-! ## Documents -/

/-- The document that gives the layout. -/
def outputDocument : Record (Option Layout) Layout where
  title := "struct OutputConfig"
  fields := [.slot "format" false (·.isSome) (fun _ l => some l) Layout.read]
  start := none
  finish l := l.getD .pretty

/-- The configuration read so far. -/
structure Draft where
  shorten : Option ShortenOptions := none
  layout : Option Layout := none

/-- A configuration document. -/
def document : Record Draft Config where
  title := "struct SubsetConfig"
  fields := [
    .slot "shorten" false (·.shorten.isSome) (fun d o => { d with shorten := some o })
      ShortenOptions.document.read,
    .slot "output" false (·.layout.isSome) (fun d l => { d with layout := some l })
      outputDocument.read]
  start := {}
  finish d := { shorten := d.shorten.getD {}, layout := d.layout.getD .pretty }

/-- Reads a configuration document. -/
def ofText (text : String) : Except Json.Fault Config := Json.readAll document.read text

/-- A configuration as a document. -/
def toJson (c : Config) : Json :=
  .obj [("shorten", c.shorten.toJson), ("output", .obj [("format", c.layout.toJson)])]

/-! ## Loading -/

/-- The shortening options in a group of settings. -/
def shortenOf (key : String) (s : Setting) : Except SettingsFault ShortenOptions := do
  let parts ← s.group "struct ShortenOptions" key ["max_length", "fill", "keys"]
  let standard : ShortenOptions := {}
  let maxLength ← match parts.lookup "max_length" with
    | some (k, v) => v.toCount k
    | none => .ok standard.maxLength
  let fill ← match parts.lookup "fill" with
    | some (k, v) => v.toText k
    | none => .ok standard.fill
  let keys ← match parts.lookup "keys" with
    | some (k, v) => v.toTexts k
    | none => .ok standard.keys
  return { maxLength, fill, keys }

/-- The layout in a group of settings. -/
def layoutOf (key : String) (s : Setting) : Except SettingsFault Layout := do
  let parts ← s.group "struct OutputConfig" key ["format"]
  match parts.lookup "format" with
  | some (_, v) => v.toChoice "OutputFormat" Layout.choice
  | none => return .pretty

/-- The configuration that settings stand for. -/
def ofSettings (s : Setting) : Except SettingsFault Config := do
  let parts ← s.group "struct SubsetConfig" "" ["shorten", "output"]
  let shorten ← match parts.lookup "shorten" with
    | some (k, v) => shortenOf k v
    | none => .ok {}
  let layout ← match parts.lookup "output" with
    | some (k, v) => layoutOf k v
    | none => .ok .pretty
  return { shorten, layout }

/-- The steps of a path that lead somewhere else. -/
def pathSteps (path : String) : List String :=
  (FileTree.steps path).filter fun s => s ≠ "" ∧ s ≠ "."

/-- A path in its simplest form. -/
def plainPath (path : String) : String :=
  (if FileTree.isRooted path then "/" else "") ++ "/".intercalate (pathSteps path)

/-- The ending of a file name: what follows its last dot, if something stands before that. -/
def ending? (path : String) : Option String :=
  match (pathSteps path).getLast? with
  | none => none
  | some name =>
    match (Text.parts '.' name).reverse with
    | last :: before :: more => if before = "" ∧ more.isEmpty then none else some last
    | _ => none

/-- What the configuration depends on. -/
structure Surroundings where
  files : FileTree
  /-- The path of the directory that other paths start from. -/
  directory : String
  /-- The variables of the environment. -/
  environment : List (String × String) := []
  /-- The settings file of the user. -/
  userFile : Option String := none
  /-- The order in which the endings of the formats are tried. -/
  order : List Setting.Format := Setting.Format.all
  /-- The readers of the formats that are not read here. -/
  readers : Setting.Readers := Setting.noReaders

/-- A path as it is from the top of the file system. -/
def Surroundings.absolute (around : Surroundings) (path : String) : String :=
  if FileTree.isRooted path then path else around.directory ++ "/" ++ path

/-- The files that a path without its ending may mean, with their formats, as they are tried. -/
def candidates (order : List Setting.Format) (path : String) : List (String × Setting.Format) :=
  match (pathSteps path).getLast? with
  | none | some ".." => []
  | some _ => order.flatMap fun f => f.endings.map fun e => (plainPath path ++ "." ++ e, f)

/-- The settings file that a path means: the file itself, whose ending then has to name a format, or
the file with such an ending added. -/
def locate (around : Surroundings) (path : String) :
    Except SettingsFault (String × Setting.Format) :=
  if around.files.isFile path then
    match (ending? path).bind Setting.Format.ofEnding? with
    | some f => .ok (path, f)
    | none => .error (.unknownFormat (around.absolute path))
  else
    match (candidates around.order path).find? fun c => around.files.isFile c.1 with
    | some c => .ok c
    | none => .error (.fileMissing path)

/-- The layer of a settings file; `none` if the file cannot be used and need not be. -/
def fileLayer (around : Surroundings) (required : Bool) (path : String) :
    Except SettingsFault (List (String × Setting)) :=
  let text : Except SettingsFault (String × Setting.Format × String) := do
    let (found, format) ← locate around path
    let text ← (around.files.read found).mapError .file
    return (plainPath found, format, text)
  match text with
  | .error f => if required then .error f else .ok []
  | .ok (origin, format, text) =>
    (Setting.ofFile around.readers format origin text).mapError (.unreadable origin)

/-- Where settings files are looked for in the working directory. -/
def standardPaths : List String :=
  ["schema-subset.toml", ".schema-subset.toml", "config/schema-subset.toml"]

/-- The layers, the first one first. -/
def layers (around : Surroundings) (path : Option String) :
    Except SettingsFault (List (List (String × Setting))) := do
  let standard ← standardPaths.mapM (fileLayer around false)
  let user ← (around.userFile.toList.filter around.files.hasEntry).mapM (fileLayer around false)
  let asked ← path.toList.mapM (fileLayer around true)
  return standard ++ user ++ asked ++ [Setting.ofEnvironment around.environment]

/-- The settings file of the user, given the variables that name the directory of the user's
settings and the user's home. The first counts only if it is a path from the top of the file system.
-/
def userFile? (configHome home : Option String) : Option String :=
  let base := match configHome.filter FileTree.isRooted with
    | some directory => some directory
    | none => (home.filter (· ≠ "")).map (· ++ "/.config")
  base.map (· ++ "/schema-subset/schema-subset.toml")

/-- Puts a configuration together. -/
def load (around : Surroundings) (path : Option String) : Except Failure Config :=
  (do
    let settings := (← layers around path).foldl Setting.addLayer (.table none [])
    ofSettings settings : Except SettingsFault Config).mapError .settings

/-! ## Saving -/

/-- Why a configuration cannot be saved. -/
inductive SaveFault where
  /-- The length does not fit the integers of settings files. -/
  | lengthOutOfRange
  | file (fault : FileFault)
  deriving DecidableEq, Repr

/-- The wording of a fault. -/
def SaveFault.message : SaveFault → String
  | .lengthOutOfRange => "out-of-range value for u64 type"
  | .file fault => fault.message

/-- The text of a settings file. -/
def settingsText (c : Config) : String :=
  String.ofList ("[shorten]\nmax_length = ".toList ++ Nat.toDigits 10 c.shorten.maxLength ++
    "\nfill = ".toList ++ Toml.stringText c.shorten.fill ++
    "\nkeys = ".toList ++ Toml.arrayText c.shorten.keys ++
    "\n\n[output]\nformat = ".toList ++ Toml.stringText c.layout.word ++ ['\n'])

/-- Writes a configuration to a file. -/
def save (c : Config) (files : FileTree) (path : String) : Except SaveFault FileTree :=
  if Nat.pow 2 63 ≤ c.shorten.maxLength then .error .lengthOutOfRange
  else (files.write path c.settingsText).mapError .file

end Config

end SchemaCut
