import SchemaCut.Text.Parsed

/-!
# Writing settings files

A string is written in the first of five styles that can hold it:

1. between double quotes, if it is one line and has neither this quote nor a backslash;
2. between single quotes, if it is one line and does not have this quote;
3. between three double quotes, if it has neither a backslash nor this quote three times in a row;
4. between three single quotes, if it does not have this quote three times in a row;
5. with escapes, between three double quotes if it has a line break and between single ones if not.

Control characters other than the tab and the line break call for the last style. In the styles with
double quotes the tab is escaped as well.

An array of two or more elements has a line for each of them.
-/

namespace SchemaCut.Toml

/-- Whether a character is a control character other than the tab. -/
def isControl (c : Char) : Bool := (c.toNat < 0x20 && c != '\t') || c.toNat = 0x7F

/-- Whether a text holds the same character three times in a row. -/
def hasTriple (q : Char) : List Char → Bool
  | a :: b :: c :: cs => (a = q && b = q && c = q) || hasTriple q (b :: c :: cs)
  | _ => false

/-- The styles of strings. -/
inductive StringStyle where
  | basic
  | literal
  | longBasic
  | longLiteral
  deriving DecidableEq, Repr

/-- The style in which a text is written. -/
def styleOf (cs : List Char) : StringStyle :=
  let lineOnly := !cs.any isControl
  let linesOnly := !cs.any fun c => isControl c && c != '\n'
  if lineOnly && !cs.any fun c => c = '\\' || c = '"' then .basic
  else if lineOnly && !cs.any fun c => c = '\'' then .literal
  else if linesOnly && !cs.any (· = '\\') && !hasTriple '"' cs then .longBasic
  else if linesOnly && !hasTriple '\'' cs then .longLiteral
  else if cs.any (· = '\n') then .longBasic
  else .basic

/-- An escape by code point, in upper-case hexadecimal. -/
def codeEscape (c : Char) : List Char :=
  let digit (n : Nat) : Char := (Nat.digitChar n).toUpper
  ['\\', 'u', '0', '0', digit (c.toNat / 16), digit (c.toNat % 16)]

/-- One character between double quotes, other than a double quote. -/
def escapeChar (long : Bool) (c : Char) : List Char :=
  if c = '\x08' then ['\\', 'b']
  else if c = '\t' then ['\\', 't']
  else if c = '\n' then if long then ['\n'] else ['\\', 'n']
  else if c = '\x0c' then ['\\', 'f']
  else if c = '\r' then ['\\', 'r']
  else if c = '\\' then ['\\', '\\']
  else if isControl c then codeEscape c
  else [c]

/-- The characters between double quotes. In a long string every third double quote in a row is
escaped, in a short one every one; `run` counts those that stand unescaped before. -/
def escapeAll (long : Bool) (run : Nat) : List Char → List Char
  | [] => []
  | c :: cs =>
    if c = '"' then
      if long && run < 2 then '"' :: escapeAll long (run + 1) cs
      else '\\' :: '"' :: escapeAll long 0 cs
    else escapeChar long c ++ escapeAll long 0 cs

/-- A string. Behind the opening quotes of a long one comes a line break if it has one itself. -/
def stringText (s : String) : List Char :=
  let cs := s.toList
  let opening : List Char := if cs.any (· = '\n') then ['\n'] else []
  match styleOf cs with
  | .basic => '"' :: escapeAll false 0 cs ++ ['"']
  | .literal => '\'' :: cs ++ ['\'']
  | .longBasic => ['"', '"', '"'] ++ opening ++ escapeAll true 0 cs ++ ['"', '"', '"']
  | .longLiteral => ['\'', '\'', '\''] ++ opening ++ cs ++ ['\'', '\'', '\'']

/-- An array of strings. -/
def arrayText (ss : List String) : List Char :=
  match ss with
  | [] => ['[', ']']
  | [s] => '[' :: stringText s ++ [']']
  | ss =>
    '[' :: '\n' :: (ss.flatMap fun s => "    ".toList ++ stringText s ++ [',', '\n']) ++ [']']

example : stringText "'\"" = "\"\"\"'\"\"\"\"".toList := by decide +kernel

end SchemaCut.Toml
