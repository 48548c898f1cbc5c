import SchemaCut.Decimal.Nearest
import SchemaCut.Toml.Basic
import SchemaCut.Toml.StringReader

/-!
# Numbers and moments of settings files

An integer is written in decimal with a sign or without, or with `0x`, `0o` or `0b` in another base;
it has to fit 64 bits with its sign. A float has a fraction or an exponent, or is `inf` or `nan`;
one that is too large is refused unless it is negative. Single underscores may stand between digits.

A moment is a date, a time of day, or a date followed by a time and perhaps by its distance to
universal time. Its text is kept in one form: `T` between date and time, no zeros at the end of the
fraction, at most nine digits in it.
-/

namespace SchemaCut.Toml

/-- The digit that a character is in a base. -/
def digitIn? (base : Nat) (c : Char) : Option Nat :=
  (Json.hexDigit? c).filter (· < base)

/-- Reads what follows a digit: further digits, each after an underscore or none. Gives the number
of digits read and the value with them. -/
def readMoreDigits (base count value : Nat) (cs : List Char) :
    Option (Nat × Nat × Rest cs.length) :=
  match cs with
  | [] => some (count, value, Rest.all [])
  | '_' :: d :: ds => do
    let v ← digitIn? base d
    let (n, m, r) ← readMoreDigits base (count + 1) (base * value + v) ds
    return (n, m, r.behind.behind)
  | ['_'] => none
  | c :: cs =>
    match digitIn? base c with
    | some v => do
      let (n, m, r) ← readMoreDigits base (count + 1) (base * value + v) cs
      return (n, m, r.behind)
    | none => some (count, value, Rest.all (c :: cs))

/-- Reads digits. Gives their number and the value they continue. -/
def readDigits (base value : Nat) : Reader (Nat × Nat)
  | [] => none
  | c :: cs => do
    let v ← digitIn? base c
    let (n, m, r) ← readMoreDigits base 1 (base * value + v) cs
    return .ofRest (n, m) r

/-- The base that the letter after a zero announces. -/
def baseOf? (c : Char) : Option Nat :=
  if c = 'x' then some 16 else if c = 'o' then some 8 else if c = 'b' then some 2 else none

/-- An integer, if it fits 64 bits with its sign. -/
def integer? (n : Int) : Option Toml :=
  if -(Nat.pow 2 63 : Int) ≤ n ∧ n < Nat.pow 2 63 then some (.integer n) else none

/-- The bits of infinity. -/
def infinityBits : UInt64 := 0x7FF0000000000000

/-- The bits of a number that is none. -/
def nanBits : UInt64 := 0x7FF8000000000000

/-- A double with a sign. -/
def signedFloat (negative : Bool) (bits : UInt64) : Toml :=
  .float (if negative then bits ||| 0x8000000000000000 else bits)

/-- The float of decimal digits and a power of ten, unless it is positive and too large. -/
def float? (negative : Bool) (digits : Nat) (exponent : Int) : Option Toml :=
  let bits := Decimal.nearestBits digits exponent
  if bits = infinityBits ∧ !negative then none else some (signedFloat negative bits)

/-- Reads an exponent, if one starts here. -/
def readExponent (cs : List Char) : Option (Option Int × Rest cs.length) :=
  match cs with
  | c :: ds =>
    if c = 'e' ∨ c = 'E' then
      match ds with
      | s :: es =>
        if s = '+' ∨ s = '-' then do
          let p ← readDigits 10 0 es
          let n : Int := p.value.2
          return (some (if s = '-' then -n else n), p.left.behind.behind)
        else do
          let p ← readDigits 10 0 (s :: es)
          return (some p.value.2, p.left.behind)
      | [] => none
    else some (none, Rest.all (c :: ds))
  | [] => some (none, Rest.all [])

/-- Reads the whole part of a decimal number that starts with a character. A zero stands alone. -/
def readWhole (c : Char) (cs : List Char) : Option (Nat × Rest cs.length) :=
  if c = '0' then some (0, Rest.all cs)
  else do
    let p ← readDigits 10 0 (c :: cs)
    return (p.value.2, ⟨p.rest, Nat.le_of_lt_succ p.shorter⟩)

/-- Reads a decimal number from behind its sign. -/
def readDecimal (negative : Bool) : Reader Toml
  | [] => none
  | c :: cs => do
    let (whole, ⟨ds, h⟩) ← readWhole c cs
    match ds, h with
    | '.' :: es, h => do
      let p ← readDigits 10 whole es
      let (e, r) ← readExponent p.rest
      let v ← float? negative p.value.2 (e.getD 0 - p.value.1)
      return .ofRest v ((p.beforeRest r).behind.widen h)
    | ds, h => do
      let (e, r) ← readExponent ds
      let v ← match e with
        | some e => float? negative whole e
        | none => integer? (if negative then -whole else whole)
      return .ofRest v (r.widen h)

/-- The float that a word of three letters stands for, which some text follows. -/
def word (negative : Bool) (bits : UInt64) (rest : List Char) : Parsed Toml (rest.length + 3) :=
  (Parsed.ofRest (signedFloat negative bits) (Rest.all rest)).behind.behind

/-- Reads a number. -/
def readNumber : Reader Toml := fun cs =>
  match cs with
  | '0' :: c :: ds =>
    match baseOf? c with
    | some base => do
      let p ← readDigits base 0 ds
      let v ← integer? p.value.2
      return (p.map fun _ => v).behind.behind
    | none => readDecimal false ('0' :: c :: ds)
  | '+' :: ds => signed false ds
  | '-' :: ds => signed true ds
  | 'i' :: 'n' :: 'f' :: ds => some (word false infinityBits ds)
  | 'n' :: 'a' :: 'n' :: ds => some (word false nanBits ds)
  | cs => readDecimal false cs
where
  signed (negative : Bool) (ds : List Char) : Option (Parsed Toml (ds.length + 1)) :=
    match ds with
    | 'i' :: 'n' :: 'f' :: es => some (word negative infinityBits es).behind
    | 'n' :: 'a' :: 'n' :: es => some (word negative nanBits es).behind
    | ds => (readDecimal negative ds).map fun p => p.behind

/-! ## Moments -/

/-- Reads a number of exactly two digits that is in a range. -/
def readTwo (low high : Nat) : Reader (List Char)
  | a :: b :: cs =>
    let n := Nat.ofDigitChars 10 [a, b] 0
    if a.isDigit ∧ b.isDigit ∧ low ≤ n ∧ n ≤ high then
      some (Parsed.ofRest [a, b] (Rest.all cs)).behind
    else none
  | _ => none

/-- Reads one given character. -/
def readChar (c : Char) : Reader Unit
  | d :: cs => if d = c then some (.ofRest () (Rest.all cs)) else none
  | [] => none

/-- The number of days in a month. -/
def daysIn (year month : Nat) : Nat :=
  if month = 2 then
    if year % 4 = 0 ∧ (year % 100 ≠ 0 ∨ year % 400 = 0) then 29 else 28
  else if month ∈ [4, 6, 9, 11] then 30 else 31

/-- Reads a date. -/
def readDate : Reader (List Char)
  | a :: b :: c :: d :: cs => do
    if !([a, b, c, d].all Char.isDigit) then failure
    let p ← readChar '-' cs
    let month ← readTwo 1 12 p.rest
    let q ← readChar '-' month.rest
    let day ← readTwo 1 (daysIn (Nat.ofDigitChars 10 [a, b, c, d] 0)
      (Nat.ofDigitChars 10 month.value 0)) q.rest
    let text := [a, b, c, d, '-'] ++ month.value ++ '-' :: day.value
    return (p.before (month.before (q.before (day.map fun _ => text)))).behind.behind.behind.behind
  | _ => none

/-- A list without the zeros at its end. -/
def trimZeros (ds : List Char) : List Char := (ds.reverse.dropWhile (· = '0')).reverse

/-- Reads hours, minutes and seconds. -/
def readClock (lastHour : Nat) : Reader (List Char) := fun cs => do
  let hour ← readTwo 0 lastHour cs
  let p ← readChar ':' hour.rest
  let minute ← readTwo 0 59 p.rest
  let q ← readChar ':' minute.rest
  let second ← readTwo 0 60 q.rest
  let text := hour.value ++ ':' :: minute.value ++ ':' :: second.value
  return hour.before (p.before (minute.before (q.before (second.map fun _ => text))))

/-- Reads a time of day. -/
def readTime (lastHour : Nat) : Reader (List Char) := fun cs => do
  match ← readClock lastHour cs with
  | ⟨clock, '.' :: d :: ds, h⟩ =>
    if d.isDigit then
      let digits := trimZeros ((d :: ds.takeWhile Char.isDigit).take 9)
      let fraction := if digits.isEmpty then [] else '.' :: digits
      let p := Parsed.ofRest (clock ++ fraction) (skipWhile Char.isDigit ds)
      return p.behind.widen (Nat.le_of_lt h)
    else failure
  | ⟨_, ['.'], _⟩ => failure
  | p => return p

/-- A number in two digits. -/
def twoDigits (n : Nat) : List Char := [Nat.digitChar (n / 10 % 10), Nat.digitChar (n % 10)]

/-- Reads a distance to universal time, of at most a day. -/
def readOffset (lastHour lastMinute : Nat) : Reader (List Char)
  | c :: cs =>
    if c = 'Z' ∨ c = 'z' then some (.ofRest ['Z'] (Rest.all cs))
    else if c = '+' ∨ c = '-' then do
      let hour ← readTwo 0 lastHour cs
      let p ← readChar ':' hour.rest
      let minute ← readTwo 0 lastMinute p.rest
      let total := Nat.ofDigitChars 10 hour.value 0 * 60 + Nat.ofDigitChars 10 minute.value 0
      if 24 * 60 < total then failure
      let sign := if total = 0 then '+' else c
      let text := sign :: twoDigits (total / 60) ++ ':' :: twoDigits (total % 60)
      return (hour.before (p.before (minute.map fun _ => text))).behind
    else none
  | [] => none

/-- Reads a moment. -/
def readMoment : Reader Toml := fun cs =>
  match readDate cs with
  | none => (readTime 23 cs).map fun p => p.map fun t => .moment (String.ofList t)
  | some date =>
    let alone : Parsed Toml cs.length := date.map fun d => .moment (String.ofList d)
    match _hr : date.rest with
    | [] => some alone
    | c :: ds =>
      if c = 'T' ∨ c = 't' ∨ c = ' ' then
        match readTime 23 ds with
        | none => some alone
        | some time =>
          have hd : ds.length + 1 < cs.length := by
            have := date.shorter; rw [_hr] at this; exact this
          let text := date.value ++ 'T' :: time.value
          match readOffset 23 59 time.rest with
          | some offset =>
            some ⟨.moment (String.ofList (text ++ offset.value)), offset.rest, by
              have := time.shorter; have := offset.shorter; omega⟩
          | none =>
            some ⟨.moment (String.ofList text), time.rest, by have := time.shorter; omega⟩
      else some alone

/-- The moment that a whole text gives. Here the hour may be 24, and the minutes of a distance may
be any two digits. -/
def momentOfText? (s : String) : Option Toml :=
  let cs := s.toList
  match readDate cs with
  | none => do
    let time ← readTime 24 cs
    if time.rest.isEmpty then some (.moment (String.ofList time.value)) else none
  | some date =>
    match date.rest with
    | [] => some (.moment s)
    | c :: ds =>
      if c = 'T' ∨ c = 't' ∨ c = ' ' then do
        let time ← readTime 24 ds
        let text := date.value ++ 'T' :: time.value
        if time.rest.isEmpty then some (.moment (String.ofList text))
        else do
          let offset ← readOffset 99 99 time.rest
          if offset.rest.isEmpty then some (.moment (String.ofList (text ++ offset.value)))
          else none
      else none

end SchemaCut.Toml
