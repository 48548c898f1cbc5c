import SchemaCut.Decimal.Nearest
import SchemaCut.Decimal.Shortest

/-!
# Numbers in plain text

Numbers as they are given on a command line or in the environment, where the whole text has to be
the number, and the text of a double outside of documents, which is always positional.
-/

namespace SchemaCut.Text

/-- The number that decimal digits stand for, at least one. -/
def digits? (cs : List Char) : Option Nat :=
  if cs.isEmpty || !cs.all Char.isDigit then none else some (Nat.ofDigitChars 10 cs 0)

/-- A natural number below `2 ^ 64`, perhaps after a plus sign. -/
def natural? (s : String) : Option Nat :=
  let ds := match s.toList with
    | '+' :: ds => ds
    | ds => ds
  (digits? ds).filter (· < Nat.pow 2 64)

/-- An integer that fits 64 bits with its sign, perhaps after a sign. -/
def integer? (s : String) : Option Int :=
  match s.toList with
  | '-' :: ds => (digits? ds).bind fun n => if n ≤ Nat.pow 2 63 then some (-n) else none
  | '+' :: ds => (digits? ds).bind fun n => if n < Nat.pow 2 63 then some n else none
  | ds => (digits? ds).bind fun n => if n < Nat.pow 2 63 then some n else none

/-- The bits of a double without its sign: a word for infinity or for no number, or digits with a
point among or beside them, and perhaps an exponent. -/
def magnitude? (cs : List Char) : Option UInt64 :=
  let word := String.ofList (cs.map Char.toLower)
  if word = "inf" ∨ word = "infinity" then some 0x7FF0000000000000
  else if word = "nan" then some 0x7FF8000000000000
  else
    let whole := cs.takeWhile Char.isDigit
    let rest := cs.dropWhile Char.isDigit
    let (fraction, rest) := match rest with
      | '.' :: ds => (ds.takeWhile Char.isDigit, ds.dropWhile Char.isDigit)
      | ds => ([], ds)
    let exponent : Option Int := match rest with
      | [] => some 0
      | c :: ds =>
        if c = 'e' ∨ c = 'E' then
          match ds with
          | '-' :: es => (digits? es).map fun n => -(n : Int)
          | '+' :: es => (digits? es).map fun n => (n : Int)
          | es => (digits? es).map fun n => (n : Int)
        else none
    if whole.isEmpty && fraction.isEmpty then none
    else exponent.map fun e =>
      Decimal.nearestBits (Nat.ofDigitChars 10 (whole ++ fraction) 0) (e - fraction.length)

/-- The bits of a double, perhaps after a sign. -/
def double? (s : String) : Option UInt64 :=
  match s.toList with
  | '-' :: cs => (magnitude? cs).map (· ||| 0x8000000000000000)
  | '+' :: cs => magnitude? cs
  | cs => magnitude? cs

/-- The text of a double, with the fewest digits that read back and no exponent. Of two equally near
decimals it is the one further from zero. -/
def doubleText (bits : UInt64) : String :=
  match Decimal.Binary.ofBits bits with
  | .nan => "NaN"
  | .infinite negative => if negative then "-inf" else "inf"
  | .finite negative m q lowest =>
    let (ds, point) := (Decimal.shortest .up m q lowest).layout
    let text :=
      if m = 0 then ['0']
      else if point ≤ 0 then '0' :: '.' :: List.replicate (-point).toNat '0' ++ ds
      else if ds.length ≤ point then ds ++ List.replicate (point.toNat - ds.length) '0'
      else ds.take point.toNat ++ '.' :: ds.drop point.toNat
    String.ofList (if negative then '-' :: text else text)

example : (double? "1e3").map doubleText = some "1000" := by decide +kernel

example :
    (double? "2.98023223876953125e-8").map doubleText = some "0.000000029802322387695313" := by
  decide +kernel

example : (double? "-.50").map doubleText = some "-0.5" := by decide +kernel

end SchemaCut.Text
