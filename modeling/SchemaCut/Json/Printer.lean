import SchemaCut.Json.Numeral

/-!
# Writing documents

`Json.write` gives the text of a value in one of two layouts: on one line without any space, or with
every element and member on a line of its own, two spaces further in than what holds it. Empty
arrays and objects have no lines inside in either layout. Members are written in the order in which
the value lists them.

In a string the quote, the backslash and the characters below U+0020 are escaped, and nothing else.
-/

namespace SchemaCut

/-- How a document is laid out. -/
inductive Layout where
  | pretty
  | compact
  deriving DecidableEq, Repr, Inhabited

namespace Layout

/-- What goes before something that stands `depth` containers deep. -/
def newline (layout : Layout) (depth : Nat) : List Char :=
  match layout with
  | .pretty => '\n' :: List.replicate (2 * depth) ' '
  | .compact => []

/-- What stands between a name and its value. -/
def colon : Layout → List Char
  | .pretty => [':', ' ']
  | .compact => [':']

end Layout

namespace Json

/-- One character of a string. -/
def escapeChar (c : Char) : List Char :=
  if c = '"' then ['\\', '"']
  else if c = '\\' then ['\\', '\\']
  else if c = '\x08' then ['\\', 'b']
  else if c = '\x0c' then ['\\', 'f']
  else if c = '\n' then ['\\', 'n']
  else if c = '\r' then ['\\', 'r']
  else if c = '\t' then ['\\', 't']
  else if c.toNat < 0x20 then
    ['\\', 'u', '0', '0', Nat.digitChar (c.toNat / 16), Nat.digitChar (c.toNat % 16)]
  else [c]

/-- A string between its quotes. -/
def stringText (s : String) : List Char :=
  '"' :: s.toList.flatMap escapeChar ++ ['"']

mutual

/-- The text of a value that stands `depth` containers deep. -/
def write (layout : Layout) (depth : Nat) : Json → List Char
  | .null => ['n', 'u', 'l', 'l']
  | .bool true => ['t', 'r', 'u', 'e']
  | .bool false => ['f', 'a', 'l', 's', 'e']
  | .num n => numberText n
  | .str s => stringText s
  | .arr [] => ['[', ']']
  | .arr (v :: vs) =>
    '[' :: layout.newline (depth + 1) ++ write layout (depth + 1) v ++
      writeItems layout depth vs ++ layout.newline depth ++ [']']
  | .obj [] => ['{', '}']
  | .obj ((n, v) :: ms) =>
    '{' :: layout.newline (depth + 1) ++ stringText n ++ layout.colon ++
      write layout (depth + 1) v ++ writeMembers layout depth ms ++ layout.newline depth ++ ['}']
termination_by structural v => v

/-- The further elements of an array, each after a comma. -/
def writeItems (layout : Layout) (depth : Nat) : List Json → List Char
  | [] => []
  | v :: vs =>
    ',' :: layout.newline (depth + 1) ++ write layout (depth + 1) v ++ writeItems layout depth vs
termination_by structural vs => vs

/-- The further members of an object, each after a comma. -/
def writeMembers (layout : Layout) (depth : Nat) : List (String × Json) → List Char
  | [] => []
  | (n, v) :: ms =>
    ',' :: layout.newline (depth + 1) ++ stringText n ++ layout.colon ++
      write layout (depth + 1) v ++ writeMembers layout depth ms
termination_by structural ms => ms

end

/-- The text of a document. -/
def text (layout : Layout) (v : Json) : String := String.ofList (write layout 0 v)

example : (obj [("a", arr [num (.int 1), str "x"]), ("b", obj [])]).text .compact =
    "\x7b\"a\":[1,\"x\"],\"b\":\x7b\x7d\x7d" := by
  decide +kernel

end Json

end SchemaCut
