import SchemaCut.Text.Parsed
import SchemaCut.Json.StringReader

/-!
# Strings of settings files

A string stands between double quotes, and then a backslash starts an escape, or between single
quotes, and then every character stands for itself. Three quotes start a string of several lines; a
line break right behind them does not count, and up to two quotes may stand right before the closing
three. A backslash at the end of a line takes away the white space up to the next visible character.

Of the control characters only the tab stands in a string, and the line breaks in one of several
lines.
-/

namespace SchemaCut.Toml

/-- Reads from the start of a text, or refuses it. -/
abbrev Reader (α : Type) := (cs : List Char) → Option (Parsed α cs.length)

/-- Whether a character may stand in a line of a settings file. -/
def isPlain (c : Char) : Bool := c = '\t' || (0x20 ≤ c.toNat && c.toNat != 0x7F)

/-- Whether a character is white space within a line. -/
def isGap (c : Char) : Bool := c = ' ' || c = '\t'

/-- Reads a line break. -/
def readBreak : Reader Unit
  | '\n' :: cs => some (.ofRest () (Rest.all cs))
  | '\r' :: '\n' :: cs => some (Parsed.ofRest () (Rest.all cs)).behind
  | _ => none

/-- Reads so many hexadecimal digits. -/
def readHexDigits (count value : Nat) (cs : List Char) : Option (Nat × Rest cs.length) :=
  match count, cs with
  | 0, cs => some (value, Rest.all cs)
  | _ + 1, [] => none
  | count + 1, c :: cs => do
    let d ← Json.hexDigit? c
    let (n, r) ← readHexDigits count (16 * value + d) cs
    return (n, r.behind)

/-- The character that an escape letter stands for. -/
def letterEscape? : Char → Option Char
  | 'b' => some '\x08'
  | 't' => some '\t'
  | 'n' => some '\n'
  | 'f' => some '\x0c'
  | 'r' => some '\r'
  | '"' => some '"'
  | '\\' => some '\\'
  | _ => none

/-- Reads what follows the backslash of an escape. -/
def readEscape : Reader Char
  | [] => none
  | c :: cs =>
    match letterEscape? c with
    | some e => some (.ofRest e (Rest.all cs))
    | none => do
      let count ← if c = 'u' then some 4 else if c = 'U' then some 8 else none
      let (n, r) ← readHexDigits count 0 cs
      if n.isValidChar then some (.ofRest (Char.ofNat n) r) else none

/-- Reads a string on one line from behind its opening double quote. `done` holds the characters
read so far, the last one first. -/
def readBasic (n : Nat) (cs : List Char) (h : cs.length ≤ n) (done : List Char) :
    Option (Parsed String n) :=
  match cs with
  | [] => none
  | c :: cs =>
    if c = '"' then some ⟨String.ofList done.reverse, cs, h⟩
    else if c = '\\' then
      match readEscape cs with
      | none => none
      | some p => readBasic n p.rest (p.length_le_of_cons h) (p.value :: done)
    else if isPlain c then readBasic n cs (length_le_of_cons h) (c :: done)
    else none
termination_by cs.length
decreasing_by
  · have := p.shorter; simp only [List.length_cons]; omega
  · simp

/-- Reads a string on one line from behind its opening single quote. -/
def readLiteral (n : Nat) (cs : List Char) (h : cs.length ≤ n) (done : List Char) :
    Option (Parsed String n) :=
  match cs with
  | [] => none
  | c :: cs =>
    if c = '\'' then some ⟨String.ofList done.reverse, cs, h⟩
    else if isPlain c then readLiteral n cs (length_le_of_cons h) (c :: done)
    else none

/-- Reads the end of a string of several lines: three quotes, with up to two more before them. Gives
the number of these. -/
def readClosing (quote : Char) : Reader Nat
  | a :: b :: c :: cs =>
    if a = quote ∧ b = quote ∧ c = quote then
      match cs with
      | d :: e :: rest =>
        if d = quote ∧ e = quote then
          if rest.head? = some quote then none else some (closed 2 rest).behind.behind
        else if d = quote then some (closed 1 (e :: rest)).behind
        else some (closed 0 (d :: e :: rest))
      | [d] => if d = quote then some (closed 1 []).behind else some (closed 0 [d])
      | [] => some (closed 0 [])
    else none
  | _ => none
where
  closed (extra : Nat) (rest : List Char) : Parsed Nat (rest.length + 3) :=
    (Parsed.ofRest extra (Rest.all rest)).behind.behind

/-- The text from its first character on that is neither white space nor a line break. -/
def skipBreaks (cs : List Char) : Rest cs.length :=
  match cs with
  | [] => Rest.all []
  | '\r' :: '\n' :: cs =>
    (skipBreaks cs).behind.behind
  | c :: cs =>
    if isGap c || c = '\n' then (skipBreaks cs).behind else Rest.all (c :: cs)

/-- The text behind a backslash at the end of a line: from the next visible character on. -/
def skipFold? (cs : List Char) : Option (Rest cs.length) := do
  let ⟨ds, h⟩ := skipWhile isGap cs
  let p ← readBreak ds
  return (p.beforeRest (skipBreaks p.rest)).widen h

/-- Reads a string of several lines from behind its opening quotes and the line break that may
follow these. -/
def readLines (quote : Char) (n : Nat) (cs : List Char) (h : cs.length ≤ n) (done : List Char) :
    Option (Parsed String n) :=
  match cs with
  | [] => none
  | c :: cs =>
    if c = quote ∧ cs.take 2 = [quote, quote] then
      match readClosing quote (c :: cs) with
      | none => none
      | some p =>
        let text := List.replicate p.value quote ++ done
        some ((p.map fun _ => String.ofList text.reverse).widen h)
    else if c = '\\' ∧ quote = '"' then
      match readEscape cs with
      | some p =>
        readLines quote n p.rest (p.length_le_of_cons h) (p.value :: done)
      | none =>
        match skipFold? cs with
        | some ⟨rest, h'⟩ => readLines quote n rest (Nat.le_trans h' (length_le_of_cons h)) done
        | none => none
    else if isPlain c then readLines quote n cs (length_le_of_cons h) (c :: done)
    else
      match readBreak (c :: cs) with
      | some p =>
        readLines quote n p.rest (Nat.le_of_lt (Nat.lt_of_lt_of_le p.shorter h)) ('\n' :: done)
      | none => none
termination_by cs.length
decreasing_by
  · have := p.shorter; simp only [List.length_cons]; omega
  · simp only [List.length_cons]; omega
  · simp
  · exact p.shorter

/-- Reads a string on one line, from its opening quote on. -/
def readLineString : Reader String
  | '"' :: cs => (readBasic cs.length cs (length_le_self cs) []).map fun p => p.behind
  | '\'' :: cs => (readLiteral cs.length cs (length_le_self cs) []).map fun p => p.behind
  | _ => none

/-- Reads a string of several lines, from behind its opening quotes on. -/
def readLong (quote : Char) : Reader String := fun cs =>
  match readBreak cs with
  | some p => readLines quote cs.length p.rest (Nat.le_of_lt p.shorter) []
  | none => readLines quote cs.length cs (length_le_self cs) []

/-- Reads a string, from its opening quote on. -/
def readString : Reader String := fun cs =>
  match cs with
  | '"' :: '"' :: '"' :: ds => (readLong '"' ds).map fun p => p.behind.behind.behind
  | '\'' :: '\'' :: '\'' :: ds => (readLong '\'' ds).map fun p => p.behind.behind.behind
  | cs => readLineString cs

end SchemaCut.Toml
