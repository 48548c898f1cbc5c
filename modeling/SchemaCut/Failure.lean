import SchemaCut.EntitySet
import SchemaCut.Files
import SchemaCut.Json.Fault

/-!
# Failures

Everything that can go wrong with a schema, a request or the settings, as causes.
`Failure.message` words them.
-/

namespace SchemaCut

/-- Why the text of a settings file gives no settings. -/
inductive LayerFault where
  | notToml
  | document (fault : Json.Fault)
  /-- The text is nothing in its format, in the words of the reader of the format. -/
  | foreign (words : String)
  /-- The file does not hold a table but the value that is described. -/
  | noTable (found : String)
  deriving DecidableEq, Repr

/-- The wording of a fault in a settings file. -/
def LayerFault.message (path : String) : LayerFault → String
  | .notToml => "the text is no settings file in " ++ path
  | .document fault => fault.message ++ " in " ++ path
  | .foreign words => words ++ " in " ++ path
  | .noTable found =>
    "invalid type: " ++ found ++ ", expected a map in " ++ path ++ " in " ++ path

/-- Why settings cannot be used. -/
inductive SettingsFault where
  /-- The text of a settings file gives no settings. -/
  | unreadable (path : String) (fault : LayerFault)
  /-- A settings file that has to be there is not. -/
  | fileMissing (path : String)
  /-- The ending of a settings file names no format. -/
  | unknownFormat (path : String)
  | file (fault : FileFault)
  /-- A setting has a value of another type: what was found, what was expected, the key of the
  setting and where it was set. -/
  | wrongType (found expected key : String) (origin : Option String)
  /-- There is a value where a group or a list of settings has to be. -/
  | noGroup (found expected : String)
  /-- A word is none of the words of a choice. -/
  | unknownWord (choice given : String)
  /-- A value is neither a word nor a table of one name. -/
  | noWord (choice : String)
  deriving DecidableEq, Repr

/-- The wording of a fault in the settings. -/
def SettingsFault.message : SettingsFault → String
  | .unreadable path fault => fault.message path
  | .fileMissing path => "configuration file \"" ++ path ++ "\" not found"
  | .unknownFormat path =>
    "configuration file \"" ++ path ++ "\" is not of a registered file format"
  | .file fault => fault.message
  | .wrongType found expected key origin =>
    "invalid type: " ++ found ++ ", expected " ++ expected ++ " for key `" ++ key ++ "`" ++
      match origin with
      | some place => " in " ++ place
      | none => ""
  | .noGroup found expected => "invalid type: " ++ found ++ ", expected " ++ expected
  | .unknownWord choice given =>
    "enum " ++ choice ++ " does not have variant constructor " ++ given
  | .noWord choice =>
    "value of enum " ++ choice ++
      " should be represented by either string or table with exactly one key"

/-- Why an operation on a schema fails. -/
inductive Failure where
  /-- The entity is not in the schema; another name may be meant. -/
  | unknownEntity (entity : Entity) (suggestion : Option String)
  /-- The word names no kind. -/
  | unknownKind (given : String)
  /-- The definition of the entity is not an object. -/
  | notAnObject (entity : Entity)
  | file (fault : FileFault)
  | document (fault : Json.Fault)
  | settings (fault : SettingsFault)
  deriving DecidableEq, Repr

namespace Failure

/-- The text of the cause inside a failure, for a failure that has a cause of its own. -/
def cause? : Failure → Option String
  | .file fault => some fault.message
  | .document fault => some fault.message
  | .settings fault => some fault.message
  | _ => none

/-- The wording of a failure. -/
def message : Failure → String
  | .unknownEntity e suggestion =>
    e.kind.word ++ " not found in schema: " ++ e.name ++
      match suggestion with
      | some name => " (did you mean `" ++ name ++ "`?)"
      | none => ""
  | .unknownKind given =>
    "Unknown entity kind: " ++ given ++ " (expected one of: type, resource, function)"
  | .notAnObject e =>
    "Invalid schema format: " ++ e.kind.word ++ " `" ++ e.name ++ "` is not an object"
  | .file fault => "IO error: " ++ fault.message
  | .document fault => "JSON error: " ++ fault.message
  | .settings fault => "Config error: " ++ fault.message

end Failure

/-- The kind that a text names. -/
def Kind.ofText (text : String) : Except Failure Kind :=
  match Kind.ofWord? text with
  | some k => .ok k
  | none => .error (.unknownKind text)

end SchemaCut
