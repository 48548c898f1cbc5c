/-!
# Shortest decimal form of a double

A finite double is `m · 2 ^ q` for whole numbers `m` and `q`. The reals that round to it form an
interval around it, whose ends belong to it exactly when `m` is even. `shortest` finds the decimal
with the fewest digits in that interval, and among those the one nearest to the double; of two that
are equally near it takes the one that a `Tie` says. All arithmetic is exact.

If a decimal grid has a point in the interval, then one of the two grid points next to the double
is in it, so `atDigits?` looks at those two only.
-/

namespace SchemaCut.Decimal

/-- A double, taken apart. -/
inductive Binary where
  | nan
  | infinite (negative : Bool)
  /-- The number `m · 2 ^ q`. `lowestOfBinade` says that the next smaller double is only half as
  far away as the next larger one. -/
  | finite (negative : Bool) (m : Nat) (q : Int) (lowestOfBinade : Bool)
  deriving DecidableEq, Repr

/-- Takes the bits of a double apart. -/
def Binary.ofBits (bits : UInt64) : Binary :=
  let n := bits.toNat
  let negative := decide (n / Nat.pow 2 63 = 1)
  let exponent : Nat := n / Nat.pow 2 52 % Nat.pow 2 11
  let fraction := n % Nat.pow 2 52
  if exponent = 2047 then
    if fraction = 0 then .infinite negative else .nan
  else if exponent = 0 then .finite negative fraction (-1074) false
  else
    .finite negative (fraction + Nat.pow 2 52) ((exponent : Int) - 1075)
      (fraction = 0 && exponent != 1)

/-- Which of two equally near decimals is taken: the one with an even last digit, or the greater. -/
inductive Tie where
  | toEven
  | up
  deriving DecidableEq, Repr

/-- The number `digits · 10 ^ exponent`. -/
structure Form where
  digits : Nat
  exponent : Int
  deriving DecidableEq, Repr

/-- A positive real and the interval of the reals that round to it, over one denominator. -/
structure Interval where
  low : Nat
  value : Nat
  high : Nat
  denominator : Nat
  closed : Bool

/-- The interval of the reals that round to `m · 2 ^ q`, in quarters of `2 ^ q`. -/
def Interval.of (m : Nat) (q : Int) (lowestOfBinade : Bool) : Interval :=
  let unit := Nat.pow 2 (q - 2).toNat
  { low := (4 * m - if lowestOfBinade then 1 else 2) * unit
    value := 4 * m * unit
    high := (4 * m + 2) * unit
    denominator := Nat.pow 2 (2 - q).toNat
    closed := m % 2 == 0 }

/-- Whether `c · 10 ^ k` is in the interval. -/
def Interval.holds (i : Interval) (c : Nat) (k : Int) : Bool :=
  let point := c * Nat.pow 10 k.toNat * i.denominator
  let scale := Nat.pow 10 (-k).toNat
  if i.closed then i.low * scale ≤ point && point ≤ i.high * scale
  else i.low * scale < point && point < i.high * scale

/-- The power of ten of the first digit of `value / denominator`, a positive number not below
`10 ^ -330`. -/
def Interval.magnitude (i : Interval) : Int :=
  (Nat.toDigits 10 (i.value * Nat.pow 10 330 / i.denominator)).length - 331

/-- The point of the grid of multiples of `10 ^ k` that is in the interval and nearest to the value,
if the interval holds one. -/
def Interval.nearest? (i : Interval) (tie : Tie) (k : Int) : Option Nat :=
  let step := i.denominator * Nat.pow 10 k.toNat
  let value := i.value * Nat.pow 10 (-k).toNat
  let below := value / step
  let remainder := value % step
  match i.holds below k, i.holds (below + 1) k with
  | true, true =>
    if 2 * remainder < step then some below
    else if step < 2 * remainder then some (below + 1)
    else if tie = .toEven ∧ below % 2 = 0 then some below else some (below + 1)
  | true, false => some below
  | false, true => some (below + 1)
  | false, false => none

/-- Moves factors of ten from the digits into the exponent, at most `fuel` of them. -/
def Form.trim (fuel : Nat) (f : Form) : Form :=
  match fuel with
  | 0 => f
  | fuel + 1 =>
    if f.digits % 10 = 0 && f.digits != 0 then Form.trim fuel ⟨f.digits / 10, f.exponent + 1⟩ else f

/-- The nearest decimal of so many digits, if it is in the interval. -/
def Interval.atDigits? (i : Interval) (tie : Tie) (n : Nat) : Option Form :=
  let k := i.magnitude - n + 1
  (i.nearest? tie k).map fun c => Form.trim 18 ⟨c, k⟩

/-- The shortest decimal that rounds to `m · 2 ^ q`. Seventeen digits always suffice. -/
def shortest (tie : Tie) (m : Nat) (q : Int) (lowestOfBinade : Bool) : Form :=
  if m = 0 then ⟨0, 0⟩
  else
    let i := Interval.of m q lowestOfBinade
    ((List.range 17).findSome? fun n => i.atDigits? tie (n + 1)).getD ⟨m, q⟩

/-- The decimal digits of the shortest form, and the place of the point counted from their left. -/
def Form.layout (f : Form) : List Char × Int :=
  let ds := Nat.toDigits 10 f.digits
  (ds, ds.length + f.exponent)

example : Binary.ofBits 0x3FB999999999999A = .finite false 7205759403792794 (-56) false := by
  decide +kernel

example : shortest .toEven 7205759403792794 (-56) false = ⟨1, -1⟩ := by decide +kernel

example : shortest .toEven 1 (-1074) false = ⟨5, -324⟩ := by decide +kernel

example : shortest .toEven (2 ^ 52) 1 true = ⟨9007199254740992, 0⟩ := by decide +kernel

example : (shortest .toEven (2 ^ 52) (-77) true).digits = 29802322387695312 := by decide +kernel

example : (shortest .up (2 ^ 52) (-77) true).digits = 29802322387695313 := by decide +kernel

end SchemaCut.Decimal
