import SchemaCut.Json.Space

/-!
# Reading strings

A string runs to the next quote that is not escaped. Characters below U+0020 do not stand in it. An
escape is a backslash with one of nine letters, or with `u` and four hexadecimal digits. Two such
escapes of a high and a low surrogate give one character; a surrogate that has no partner is a
fault, except in a string that is only passed over.

Four digits are missing in two ways: the text holds fewer than four further bytes, and so ends in
the string, or one of the next four characters is no digit.
-/

namespace SchemaCut.Json

/-- The value of a hexadecimal digit. -/
def hexDigit? (c : Char) : Option Nat :=
  if '0' ≤ c ∧ c ≤ '9' then some (c.toNat - '0'.toNat)
  else if 'a' ≤ c ∧ c ≤ 'f' then some (c.toNat - 'a'.toNat + 10)
  else if 'A' ≤ c ∧ c ≤ 'F' then some (c.toNat - 'A'.toNat + 10)
  else none

/-- The value of four hexadecimal digits. -/
def hexValue? (a b c d : Char) : Option Nat := do
  return (((← hexDigit? a) * 16 + (← hexDigit? b)) * 16 + (← hexDigit? c)) * 16 + (← hexDigit? d)

/-- Reads four hexadecimal digits. -/
def readHex : Reader Nat
  | a :: b :: c :: d :: rest =>
    match hexValue? a b c d with
    | some n => .ok (Parsed.ofRest n (Rest.all rest)).behind.behind.behind
    | none => .error .badEscape
  | cs => if (String.ofList cs).utf8ByteSize < 4 then .error .endInString else .error .badEscape

/-- The character that an escape letter stands for. -/
def letterEscape? : Char → Option Char
  | '"' => some '"'
  | '\\' => some '\\'
  | '/' => some '/'
  | 'b' => some '\x08'
  | 'f' => some '\x0c'
  | 'n' => some '\n'
  | 'r' => some '\r'
  | 't' => some '\t'
  | _ => none

/-- Reads the escape of the low surrogate that has to follow a high one. -/
def readLow (high : Nat) : Reader Char
  | [] => .error .endInString
  | [c] => if c = '\\' then .error .endInString else .error .unfinishedSurrogate
  | c :: d :: cs =>
    if c = '\\' ∧ d = 'u' then do
      let p ← readHex cs
      if 0xDC00 ≤ p.value ∧ p.value ≤ 0xDFFF then
        let code := (high - 0xD800) * 0x400 + (p.value - 0xDC00) + 0x10000
        return (p.map fun _ => Char.ofNat code).behind.behind
      else .error .loneSurrogate
    else .error .unfinishedSurrogate

/-- Reads what follows the backslash of an escape. -/
def readEscape : Reader Char
  | [] => .error .endInString
  | c :: cs =>
    match letterEscape? c with
    | some e => .ok (.ofRest e (Rest.all cs))
    | none =>
      if c = 'u' then do
        let p ← readHex cs
        if 0xDC00 ≤ p.value ∧ p.value ≤ 0xDFFF then .error .loneSurrogate
        else if 0xD800 ≤ p.value ∧ p.value ≤ 0xDBFF then do
          let q ← readLow p.value p.rest
          return (p.before q).behind
        else
          return (p.map Char.ofNat).behind
      else .error .badEscape

/-- Reads a string from behind its opening quote. `done` holds the characters read so far, the last
one first. -/
def readChars (n : Nat) (done : List Char) (cs : List Char) (h : cs.length ≤ n) :
    Except Fault (Parsed String n) :=
  match cs with
  | [] => .error .endInString
  | c :: cs =>
    if c = '"' then .ok ⟨String.ofList done.reverse, cs, h⟩
    else if c = '\\' then
      match readEscape cs with
      | .error f => .error f
      | .ok p => readChars n (p.value :: done) p.rest (p.length_le_of_cons h)
    else if c.toNat < 0x20 then .error .controlCharacter
    else readChars n (c :: done) cs (length_le_of_cons h)
termination_by cs.length
decreasing_by
  · have := p.shorter; simp only [List.length_cons]; omega
  · simp

/-- Reads a string from behind its opening quote. -/
def readString : Reader String := fun cs => readChars cs.length [] cs (length_le_self cs)

/-- Passes over what follows the backslash of an escape. -/
def skipEscape : Reader Unit
  | [] => .error .endInString
  | c :: cs =>
    if (letterEscape? c).isSome then .ok (.ofRest () (Rest.all cs))
    else if c = 'u' then do
      let p ← readHex cs
      return (p.map fun _ => ()).behind
    else .error .badEscape

/-- Passes over a string from behind its opening quote. -/
def skipChars (n : Nat) (cs : List Char) (h : cs.length ≤ n) : Except Fault (Parsed Unit n) :=
  match cs with
  | [] => .error .endInString
  | c :: cs =>
    if c = '"' then .ok ⟨(), cs, h⟩
    else if c = '\\' then
      match skipEscape cs with
      | .error f => .error f
      | .ok p => skipChars n p.rest (p.length_le_of_cons h)
    else if c.toNat < 0x20 then .error .controlCharacter
    else skipChars n cs (length_le_of_cons h)
termination_by cs.length
decreasing_by
  · have := p.shorter; simp only [List.length_cons]; omega
  · simp

/-- Passes over a string from behind its opening quote. -/
def skipString : Reader Unit := fun cs => skipChars cs.length cs (length_le_self cs)

end SchemaCut.Json
