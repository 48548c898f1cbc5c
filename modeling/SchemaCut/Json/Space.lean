import SchemaCut.Json.Fault
import SchemaCut.Text.Parsed

/-!
# Space, words and colons

A reader of a part of a document takes at least one character or fails with the first fault.

White space is the space, the tab, the line feed and the carriage return, and stands anywhere
between the parts of a document.
-/

namespace SchemaCut.Json

universe u

/-- Reads from the start of a text. -/
abbrev Reader (α : Type u) := (cs : List Char) → Except Fault (Parsed α cs.length)

/-- Whether a character is white space between the parts of a document. -/
def isSpace (c : Char) : Bool := c = ' ' || c = '\n' || c = '\t' || c = '\r'

/-- The text from its first character on that is not white space. -/
def skipSpace (cs : List Char) : Rest cs.length := skipWhile isSpace cs

/-- Reads the characters of a word. -/
def takeWord (word : List Char) (cs : List Char) : Except Fault (Rest cs.length) :=
  match word, cs with
  | [], cs => .ok (Rest.all cs)
  | _ :: _, [] => .error .endAtValue
  | w :: ws, c :: cs =>
    if c = w then do
      let r ← takeWord ws cs
      return r.behind
    else .error .badWord

/-- Reads the colon between a name and its value. -/
def takeColon (cs : List Char) : Except Fault (Rest cs.length) :=
  match skipSpace cs with
  | ⟨[], _⟩ => .error .endInObject
  | ⟨c :: rest, h⟩ =>
    if c = ':' then .ok ((Rest.all rest).behind.widen h) else .error .noColon

end SchemaCut.Json
