import SchemaCut.Decimal.Shortest
import SchemaCut.Json.Basic

/-!
# How numbers are written

An integer is written in decimal. A double is written with the fewest digits that read back, and of
two equally near decimals the one with an even last digit is taken. It is written positionally and
with a decimal point from `0.00001` up to below `10 ^ 16`, and outside of that with an exponent that
always has a sign.
-/

namespace SchemaCut.Json

/-- The decimal digits of an integer. -/
def intText : Int → List Char
  | .ofNat n => Nat.toDigits 10 n
  | .negSucc n => '-' :: Nat.toDigits 10 (n + 1)

/-- Digits `ds` with the decimal point `point` places from their left end. -/
def pointText (ds : List Char) (point : Int) : List Char :=
  if 0 < point ∧ point ≤ 16 then
    if ds.length ≤ point then
      ds ++ List.replicate (point.toNat - ds.length) '0' ++ ['.', '0']
    else ds.take point.toNat ++ '.' :: ds.drop point.toNat
  else if -5 < point ∧ point ≤ 0 then
    ['0', '.'] ++ List.replicate (-point).toNat '0' ++ ds
  else
    let mantissa := match ds with
      | d :: e :: es => d :: '.' :: e :: es
      | ds => ds
    let sign := if point - 1 < 0 then '-' else '+'
    mantissa ++ 'e' :: sign :: Nat.toDigits 10 (point - 1).natAbs

/-- The text of a double. A document holds finite doubles only; the others have the text of null. -/
def doubleText (bits : UInt64) : List Char :=
  match Decimal.Binary.ofBits bits with
  | .finite negative m q lowest =>
    let sign := if negative then ['-'] else []
    if m = 0 then sign ++ ['0', '.', '0']
    else
      let (ds, point) := (Decimal.shortest .toEven m q lowest).layout
      sign ++ pointText ds point
  | _ => ['n', 'u', 'l', 'l']

/-- The text of a number. -/
def numberText : Number → List Char
  | .int n => intText n
  | .double bits => doubleText bits

example : doubleText 0x3FF8000000000000 = ['1', '.', '5'] := by decide +kernel

example : doubleText 0x4341C37937E08000 = ['1', 'e', '+', '1', '6'] := by decide +kernel

example : doubleText 0x3EB0C6F7A0B5ED8D = ['1', 'e', '-', '6'] := by decide +kernel

end SchemaCut.Json
