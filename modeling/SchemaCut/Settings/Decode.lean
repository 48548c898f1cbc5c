import SchemaCut.Failure
import SchemaCut.Settings.Basic
import SchemaCut.Text.Numeral

/-!
# The values of settings

A setting is taken as the type that is asked for as far as it can be: numbers and truth values are
good as texts, and truth values, doubles and texts of numbers as counts. What cannot be converted is
a fault that names the key of the setting and where it was set.

A group of settings may also be given as a list of its settings in their order.
-/

namespace SchemaCut.Setting

/-- Where a value was set, if it was set in one place. -/
def origin? : Setting → Option String
  | .missing => none
  | .boolean o _ | .integer o _ | .float o _ | .text o _ | .null o => some o
  | .list o _ | .table o _ => o

/-- The text of an integer. -/
def integerText (n : Int) : String := String.ofList (Json.intText n)

/-- A value that is not of the simple type asked for, in words. -/
def found : Setting → String
  | .missing | .null _ => "unit value"
  | .boolean _ b => "boolean `" ++ toString b ++ "`"
  | .integer _ n => "64-bit integer `" ++ integerText n ++ "`"
  | .float _ bits => "floating point `" ++ Text.doubleText bits ++ "`"
  | .text _ s => "string " ++ Text.quoted s
  | .list _ _ => "sequence"
  | .table _ _ => "map"

/-- A value that is no group or list, in words. A double has a decimal point here. -/
def foundWhole : Setting → String
  | .integer _ n => "integer `" ++ integerText n ++ "`"
  | .float _ bits =>
    let text := Text.doubleText bits
    let pointed := text.any fun c => c = '.' || c = 'N' || c = 'i'
    "floating point `" ++ (if pointed then text else text ++ ".0") ++ "`"
  | s => s.found

/-- The fault of a simple value of another type. -/
def wrongType (s : Setting) (expected key : String) : SettingsFault :=
  .wrongType s.found expected key s.origin?

/-- The fault of a value where a group or a list is asked for. -/
def noGroup (s : Setting) (expected : String) : SettingsFault := .noGroup s.foundWhole expected

/-- A setting as a text. -/
def toText (key : String) (s : Setting) : Except SettingsFault String :=
  match s with
  | .text _ t => .ok t
  | .boolean _ b => .ok (toString b)
  | .integer _ n => .ok (integerText n)
  | .float _ bits => .ok (Text.doubleText bits)
  | s => .error (s.wrongType "a string" key)

/-- The words that count as one and as zero. -/
def countWords : List (String × Nat) :=
  [("true", 1), ("on", 1), ("yes", 1), ("false", 0), ("off", 0), ("no", 0)]

/-- The largest count. -/
def maxCount : Nat := Nat.pow 2 64 - 1

/-- `num / den` rounded to the nearest whole number, a half upwards. -/
def roundUp (num den : Nat) : Nat := (2 * num + den) / (2 * den)

/-- A double as a count: rounded, a half away from zero, and brought into the range of counts. -/
def countOfDouble (bits : UInt64) : Nat :=
  match Decimal.Binary.ofBits bits with
  | .nan => 0
  | .infinite negative => if negative then 0 else maxCount
  | .finite negative m q _ =>
    if negative then 0 else min maxCount (roundUp (m * Nat.pow 2 q.toNat) (Nat.pow 2 (-q).toNat))

/-- A setting as a count. -/
def toCount (key : String) (s : Setting) : Except SettingsFault Nat :=
  match s with
  | .integer _ n =>
    if 0 ≤ n then .ok n.toNat
    else .error (s.wrongType "an unsigned 64 bit or less integer" key)
  | .boolean _ b => .ok (if b then 1 else 0)
  | .float _ bits => .ok (countOfDouble bits)
  | .text _ t =>
    match countWords.lookup (String.ofList (t.toList.map Char.toLower)), Text.natural? t with
    | some n, _ => .ok n
    | none, some n => .ok n
    | none, none => .error (s.wrongType "an integer" key)
  | s => .error (s.wrongType "an integer" key)

/-- The settings of a list with their keys. -/
def elements (key : String) (items : List Setting) : List (String × Setting) :=
  items.zipIdx.map fun (s, i) => (key ++ "[" ++ toString i ++ "]", s)

/-- A setting as a list of texts. -/
def toTexts (key : String) (s : Setting) : Except SettingsFault (List String) :=
  match s with
  | .list _ items => (elements key items).mapM fun (k, v) => v.toText k
  | s => .error (s.noGroup "a sequence")

/-- The settings of a group by the names of its settings, each with its key. -/
def group (title key : String) (names : List String) (s : Setting) :
    Except SettingsFault (List (String × String × Setting)) :=
  match s with
  | .table _ es => .ok (names.filterMap fun n =>
      (Entries.find? n es).map fun v => (n, (if key.isEmpty then n else key ++ "." ++ n), v))
  | .list _ items => .ok (names.zip (elements key items))
  | s => .error (s.noGroup title)

/-- A setting as one of the words of a choice, in any letter case; a table with the word as its only
name is as good. -/
def toChoice {α : Type} (title : String) (choice : List (String × α)) (s : Setting) :
    Except SettingsFault α :=
  let pick (given : String) : Except SettingsFault α :=
    match choice.lookup (String.ofList (given.toList.map Char.toLower)) with
    | some a => .ok a
    | none => .error (.unknownWord title given)
  match s with
  | .text _ t => pick t
  | .table _ [(n, _)] => pick n
  | _ => .error (.noWord title)

end SchemaCut.Setting
