import SchemaCut.Decimal.Nearest
import SchemaCut.Json.Space

/-!
# Reading numbers

A numeral has a sign or none, a whole part without superfluous leading zeros, and perhaps a fraction
and an exponent, each with at least one digit.

A numeral without fraction and exponent is an integer if it is one of `0 … 2 ^ 64 - 1` or one of
`-2 ^ 63 … -1`. Every other numeral is a double. Its significand takes digits as long as it fits 64
bits; further digits of the whole part count as zeros and further digits of the fraction do not
count. The double nearest to the significand is then multiplied or divided by a power of ten, in
steps of at most `10 ^ 308`. A result that is not finite is a fault; one that is too small is zero.
-/

namespace SchemaCut.Json

/-- A number as it is written. -/
structure Numeral where
  negative : Bool
  whole : List Char
  fraction : List Char := []
  /-- The sign and the digits of the exponent. -/
  exponent : Option (Bool × List Char) := none
  /-- Whether there is neither fraction nor exponent. -/
  plain : Bool
  deriving DecidableEq, Repr

/-- The digits at the start of a text. -/
def leadingDigits (cs : List Char) : List Char := cs.takeWhile Char.isDigit

/-- The text after the digits at its start. -/
def afterDigits (cs : List Char) : Rest cs.length := skipWhile Char.isDigit cs

/-- Reads one digit or more. -/
def readDigits : Reader (List Char)
  | [] => .error .endAtValue
  | c :: cs =>
    if c.isDigit then
      .ok (.ofRest (c :: leadingDigits cs) (afterDigits cs))
    else .error .badNumber

/-- Reads an exponent, if one starts here, into a numeral. -/
def readExponent (x : Numeral) (cs : List Char) : Except Fault (Numeral × Rest cs.length) :=
  match cs with
  | [] => .ok (x, Rest.all [])
  | c :: cs =>
    if c = 'e' ∨ c = 'E' then
      match cs with
      | d :: ds =>
        if d = '+' ∨ d = '-' then do
          let p ← readDigits ds
          return ({ x with exponent := some (d = '-', p.value), plain := false },
            p.left.behind.behind)
        else do
          let p ← readDigits (d :: ds)
          return ({ x with exponent := some (false, p.value), plain := false }, p.left.behind)
      | [] => .error .endAtValue
    else .ok (x, Rest.all (c :: cs))

/-- Reads a fraction and an exponent, if they start here, into a numeral. -/
def readFraction (x : Numeral) (cs : List Char) : Except Fault (Numeral × Rest cs.length) :=
  match cs with
  | [] => .ok (x, Rest.all [])
  | c :: cs =>
    if c = '.' then do
      let p ← readDigits cs
      let (y, r) ← readExponent { x with fraction := p.value, plain := false } p.rest
      return (y, (p.beforeRest r).behind)
    else readExponent x (c :: cs)

/-- Reads a numeral from behind its sign. -/
def readUnsigned (negative : Bool) : Reader Numeral
  | [] => .error .endAtValue
  | c :: cs =>
    if c = '0' then
      if (leadingDigits cs).isEmpty then do
        let (x, r) ← readFraction { negative, whole := ['0'], plain := true } cs
        return .ofRest x r
      else .error .badNumber
    else if c.isDigit then do
      let ⟨ds, h⟩ := afterDigits cs
      let (x, r) ← readFraction { negative, whole := c :: leadingDigits cs, plain := true } ds
      return .ofRest x (r.widen h)
    else .error .badNumber

/-- Reads a numeral. -/
def readNumeral : Reader Numeral
  | [] => .error .endAtValue
  | c :: cs =>
    if c = '-' then (readUnsigned true cs).map fun p => p.behind
    else readUnsigned false (c :: cs)

/-! ## The value of a numeral -/

/-- Takes digits into a significand as long as it stays below `2 ^ 64`; gives the significand and
the digits that are left. -/
def takeDigits (significand : Nat) : List Char → Nat × List Char
  | [] => (significand, [])
  | d :: ds =>
    let next := 10 * significand + (d.toNat - '0'.toNat)
    if next < Nat.pow 2 64 then takeDigits next ds else (significand, d :: ds)

/-- The double `10 ^ n`. -/
def tenTo (n : Nat) : Float := Float.ofBits (Decimal.nearestBits 1 n)

/-- A double times a power of ten, in steps of at most `10 ^ 308`. -/
def scaleByTen (x : Float) (exponent : Int) : Except Fault Float :=
  if h : exponent.natAbs ≤ 308 then
    if 0 ≤ exponent then
      let y := x * tenTo exponent.natAbs
      if y.isInf then .error .numberOutOfRange else .ok y
    else .ok (x / tenTo exponent.natAbs)
  else if x == 0 then .ok x
  else if 0 ≤ exponent then .error .numberOutOfRange
  else scaleByTen (x / tenTo 308) (exponent + 308)
termination_by exponent.natAbs
decreasing_by omega

/-- The largest magnitude that an exponent is counted to. -/
def exponentLimit : Int := (Nat.pow 2 31 : Int) - 1

/-- A sum of exponents, kept within 32 bits. -/
def clampExponent (n : Int) : Int := max (-exponentLimit - 1) (min n exponentLimit)

/-- The significand of a numeral and the power of ten that its digits call for. -/
def Numeral.significand (x : Numeral) : Nat × Int :=
  let (s, left) := takeDigits 0 x.whole
  let (s', unread) := takeDigits s x.fraction
  (s', (left.length : Int) - (x.fraction.length - unread.length : Nat))

/-- The magnitude of a numeral as a double. -/
def Numeral.magnitude (x : Numeral) : Except Fault Float :=
  let (s, e) := x.significand
  match x.exponent with
  | none => scaleByTen (UInt64.ofNat s).toFloat e
  | some (negative, ds) =>
    let n := Nat.ofDigitChars 10 ds 0
    if exponentLimit < n then
      if s ≠ 0 ∧ !negative then .error .numberOutOfRange else .ok 0
    else
      let total := clampExponent (if negative then e - n else e + n)
      scaleByTen (UInt64.ofNat s).toFloat total

/-- The number that a numeral stands for. -/
def Numeral.value (x : Numeral) : Except Fault Number :=
  let n := Nat.ofDigitChars 10 x.whole 0
  if x.plain ∧ !x.negative ∧ n < Nat.pow 2 64 then .ok (.int n)
  else if x.plain ∧ x.negative ∧ 0 < n ∧ n ≤ Nat.pow 2 63 then .ok (.int (-n))
  else do
    let magnitude ← x.magnitude
    return .double (if x.negative then -magnitude else magnitude).toBits

/-- Reads a number. -/
def readNumber : Reader Number := fun cs => do
  let p ← readNumeral cs
  let v ← p.value.value
  return p.map fun _ => v

/-- Passes over a number of any size. -/
def skipNumber : Reader Unit := fun cs =>
  match readNumeral cs with
  | .ok p => .ok (p.map fun _ => ())
  | .error _ => .error .badNumber

end SchemaCut.Json
