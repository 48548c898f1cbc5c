import SchemaCut.Json.Numeral
import SchemaCut.Text.Quoted

/-!
# Faults in documents

A text is read from left to right and the first thing that is wrong with it is its fault: either
the text is no document at that place, or it holds a value where another is expected.
`Fault.message` is the one place that words a fault.
-/

namespace SchemaCut.Json

/-- What stands where another kind of value is expected. -/
inductive Found where
  | null
  | boolean (b : Bool)
  | number (n : Number)
  | string (s : String)
  | sequence
  | mapping
  deriving DecidableEq, Repr

/-- The first thing wrong with a text. -/
inductive Fault where
  /-- The text ends where a value is expected. -/
  | endAtValue
  /-- The text ends inside an array. -/
  | endInArray
  /-- The text ends inside an object. -/
  | endInObject
  /-- The text ends inside a string. -/
  | endInString
  /-- No value starts here. -/
  | noValue
  /-- A word that starts like `true`, `false` or `null` and goes on differently. -/
  | badWord
  | noColon
  | noCommaOrBracket
  | noCommaOrBrace
  | keyNotString
  | trailingComma
  | trailingText
  | badNumber
  | numberOutOfRange
  | badEscape
  /-- A low surrogate without a high one before it, or a high one followed by no low one. -/
  | loneSurrogate
  /-- A high surrogate that is not followed by an escape. -/
  | unfinishedSurrogate
  | controlCharacter
  /-- More arrays and objects inside one another than are allowed. -/
  | tooDeep
  | wrongType (found : Found) (expected : String)
  /-- A number of the right type and outside of the allowed range. -/
  | wrongValue (n : Int) (expected : String)
  | unknownVariant (given : String) (allowed : List String)
  | missingField (name : String)
  | duplicateField (name : String)
  | wrongLength (length : Nat) (expected : String)
  deriving DecidableEq, Repr

/-- A found value in words. -/
def Found.text : Found → String
  | .null => "null"
  | .boolean b => "boolean `" ++ (if b then "true" else "false") ++ "`"
  | .number (.int n) => "integer `" ++ String.ofList (intText n) ++ "`"
  | .number (.double bits) => "floating point `" ++ String.ofList (doubleText bits) ++ "`"
  | .string s => "string " ++ Text.quoted s
  | .sequence => "sequence"
  | .mapping => "map"

/-- The allowed words of an enumeration, in words. -/
def allowedText (allowed : List String) : String :=
  let quoted := allowed.map fun w => "`" ++ w ++ "`"
  match quoted with
  | [] => "there are no variants"
  | [a] => "expected " ++ a
  | [a, b] => "expected " ++ a ++ " or " ++ b
  | many => "expected one of " ++ ", ".intercalate many

/-- The wording of a fault. -/
def Fault.message : Fault → String
  | .endAtValue => "EOF while parsing a value"
  | .endInArray => "EOF while parsing a list"
  | .endInObject => "EOF while parsing an object"
  | .endInString => "EOF while parsing a string"
  | .noValue => "expected value"
  | .badWord => "expected ident"
  | .noColon => "expected `:`"
  | .noCommaOrBracket => "expected `,` or `]`"
  | .noCommaOrBrace => "expected `,` or `\x7d`"
  | .keyNotString => "key must be a string"
  | .trailingComma => "trailing comma"
  | .trailingText => "trailing characters"
  | .badNumber => "invalid number"
  | .numberOutOfRange => "number out of range"
  | .badEscape => "invalid escape"
  | .loneSurrogate => "lone leading surrogate in hex escape"
  | .unfinishedSurrogate => "unexpected end of hex escape"
  | .controlCharacter => "control character (\\u0000-\\u001F) found while parsing a string"
  | .tooDeep => "recursion limit exceeded"
  | .wrongType found expected => "invalid type: " ++ found.text ++ ", expected " ++ expected
  | .wrongValue n expected =>
    "invalid value: integer `" ++ String.ofList (intText n) ++ "`, expected " ++ expected
  | .unknownVariant given allowed =>
    "unknown variant `" ++ given ++ "`, " ++ allowedText allowed
  | .missingField name => "missing field `" ++ name ++ "`"
  | .duplicateField name => "duplicate field `" ++ name ++ "`"
  | .wrongLength length expected =>
    "invalid length " ++ toString length ++ ", expected " ++ expected

end SchemaCut.Json
