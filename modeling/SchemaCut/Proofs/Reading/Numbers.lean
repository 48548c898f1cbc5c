import SchemaCut.Json.NumberReader
import SchemaCut.Json.Printer
import SchemaCut.Proofs.Reading.Takes

/-!
# Numbers as they are written

A number is written as a sign or none, a whole part, and perhaps a fraction and an exponent.
Nothing marks its end, so it can be read only in front of a text that does not prolong it
(`Delimited`).

* `takes_readNumber` : reading a written number gives its value.
* `takes_skipNumber` : a number of any size can be passed over.
* `exists_figure` : what is written for an integer of 64 bits is a number with that value.
-/

namespace SchemaCut
namespace Json

/-- One digit or more. -/
structure Digits where
  chars : List Char
  nonempty : chars ≠ []
  digit : ∀ c ∈ chars, c.isDigit = true

/-- The exponent of a number as it is written: a letter, perhaps a sign, and digits. -/
structure Power where
  letter : Char
  sign : Option Char
  digits : Digits
  letter_mem : letter = 'e' ∨ letter = 'E'
  sign_mem : ∀ c ∈ sign, c = '+' ∨ c = '-'

/-- A number as it is written. -/
structure Figure where
  negative : Bool
  whole : Digits
  fraction : Option Digits
  power : Option Power
  /-- The whole part does not start with a superfluous zero. -/
  lean : whole.chars = ['0'] ∨ ∀ c ∈ whole.chars.head?, c ≠ '0'

def Power.text (p : Power) : List Char := p.letter :: p.sign.toList ++ p.digits.chars

namespace Figure

def fractionText : Option Digits → List Char
  | none => []
  | some ds => '.' :: ds.chars

def powerText : Option Power → List Char
  | none => []
  | some p => p.text

def text (x : Figure) : List Char :=
  (if x.negative then ['-'] else []) ++ x.whole.chars ++ fractionText x.fraction ++
    powerText x.power

/-- The parts of a number that count for its value. -/
def numeral (x : Figure) : Numeral where
  negative := x.negative
  whole := x.whole.chars
  fraction := match x.fraction with
    | some ds => ds.chars
    | none => []
  exponent := x.power.map fun p => (p.sign = some '-', p.digits.chars)
  plain := x.fraction.isNone && x.power.isNone

/-- The number that is meant, if it is not out of range. -/
def value? (x : Figure) : Option Number := x.numeral.value.toOption

end Figure

/-! ## Digits -/

lemma Digits.exists_cons (ds : Digits) :
    ∃ c cs, ds.chars = c :: cs ∧ c.isDigit = true ∧ ∀ d ∈ cs, d.isDigit = true := by
  obtain ⟨chars, nonempty, digit⟩ := ds
  cases chars with
  | nil => exact absurd rfl nonempty
  | cons c cs => exact ⟨c, cs, rfl, digit c List.mem_cons_self,
      fun d hd => digit d (List.mem_cons_of_mem c hd)⟩

/-- No digit starts the text. -/
def NoDigit (cs : List Char) : Prop := ∀ c ∈ cs.head?, c.isDigit = false

lemma Delimited.noDigit {cs : List Char} (h : Delimited cs) : NoDigit cs := by
  intro c hc
  have hin := h c hc
  simp only [inNumber, Bool.or_eq_false_iff] at hin
  exact hin.1.1.1

lemma leadingDigits_append {ds rest : List Char} (hds : ∀ d ∈ ds, d.isDigit = true)
    (hrest : NoDigit rest) : leadingDigits (ds ++ rest) = ds := by
  rw [leadingDigits, List.takeWhile_append_of_pos hds]
  cases rest with
  | nil => simp
  | cons c rest => rw [List.takeWhile_cons_of_neg (by simp [hrest c rfl]), List.append_nil]

lemma afterDigits_append {ds rest : List Char} (hds : ∀ d ∈ ds, d.isDigit = true)
    (hrest : NoDigit rest) : ∃ h, afterDigits (ds ++ rest) = ⟨rest, h⟩ := by
  have hdrop : (ds ++ rest).dropWhile Char.isDigit = rest := by
    rw [List.dropWhile_append_of_pos hds]
    cases rest with
    | nil => rfl
    | cons c rest => rw [List.dropWhile_cons_of_neg (by simp [hrest c rfl])]
  exact ⟨by simp, Subtype.ext hdrop⟩

lemma takes_readDigits (ds : Digits) {rest : List Char} (hrest : NoDigit rest) :
    Takes (readDigits (ds.chars ++ rest)) rest (some ds.chars) := by
  obtain ⟨c, cs, hchars, hc, hcs⟩ := ds.exists_cons
  obtain ⟨hlt, hafter⟩ := afterDigits_append hcs hrest
  rw [hchars, List.cons_append, readDigits, if_pos hc, leadingDigits_append hcs hrest, hafter]
  exact takes_ok _ _

/-! ## The parts of a number -/

namespace Numeral

/-- A numeral with the exponent that is written, if there is one. -/
def withPower (x : Numeral) : Option Power → Numeral
  | none => x
  | some p => { x with exponent := some (p.sign = some '-', p.digits.chars), plain := false }

/-- A numeral with the fraction that is written, if there is one. -/
def withFraction (x : Numeral) : Option Digits → Numeral
  | none => x
  | some ds => { x with fraction := ds.chars, plain := false }

end Numeral

lemma Figure.numeral_eq (x : Figure) :
    x.numeral = (({ negative := x.negative, whole := x.whole.chars, plain := true } :
      Numeral).withFraction x.fraction).withPower x.power := by
  obtain ⟨negative, whole, fraction, power, lean⟩ := x
  cases fraction <;> cases power <;> rfl

/-- A text that does not prolong a number has neither exponent nor fraction. -/
lemma Delimited.head {c : Char} {cs : List Char} (h : Delimited (c :: cs)) :
    c ≠ '.' ∧ ¬ (c = 'e' ∨ c = 'E') := by
  have hin := h c rfl
  simp only [inNumber, Bool.or_eq_false_iff, decide_eq_false_iff_not] at hin
  exact ⟨hin.1.1.2, fun he => he.elim hin.1.2 hin.2⟩

/-- A reader of a part of a numeral gives the numeral and leaves the rest. -/
def Yields {n : Nat} (x : Except Fault (Numeral × Rest n)) (y : Numeral) (rest : List Char) :
    Prop :=
  ∃ h, x = .ok (y, ⟨rest, h⟩)

lemma yields_readExponent_none (x : Numeral) {rest : List Char} (hrest : Delimited rest) :
    Yields (readExponent x rest) x rest := by
  cases rest with
  | nil => exact ⟨_, rfl⟩
  | cons c rest =>
    refine ⟨Nat.le_refl _, ?_⟩
    rw [readExponent.eq_def]
    simp only [if_neg hrest.head.2]
    rfl

lemma yields_readExponent_some (x : Numeral) (p : Power) {rest : List Char}
    (hrest : NoDigit rest) :
    Yields (readExponent x (p.text ++ rest)) (x.withPower (some p)) rest := by
  obtain ⟨letter, sign, digits, hletter, hsign⟩ := p
  have hdigits := takes_readDigits digits hrest
  cases sign with
  | some c =>
    obtain ⟨hlt, hdigits⟩ := hdigits
    change Yields (readExponent x (letter :: c :: (digits.chars ++ rest))) _ rest
    refine ⟨by simp; omega, ?_⟩
    rw [readExponent, if_pos hletter]
    simp only [if_pos (hsign c rfl), hdigits, bind, Except.bind, Numeral.withPower,
      Option.some.injEq]
    rfl
  | none =>
    obtain ⟨c, cs, hchars, hc, -⟩ := digits.exists_cons
    have hc' : ¬ (c = '+' ∨ c = '-') := by
      rintro (rfl | rfl) <;> exact absurd hc (by decide)
    change Yields (readExponent x (letter :: (digits.chars ++ rest)))
      { x with exponent := some (false, digits.chars), plain := false } rest
    rw [hchars, List.cons_append] at hdigits ⊢
    obtain ⟨hlt, hdigits⟩ := hdigits
    refine ⟨by simp; omega, ?_⟩
    rw [readExponent, if_pos hletter]
    simp only [if_neg hc', hdigits, bind, Except.bind]
    rfl

lemma yields_readExponent (x : Numeral) (power : Option Power) {rest : List Char}
    (hrest : Delimited rest) :
    Yields (readExponent x (Figure.powerText power ++ rest)) (x.withPower power) rest := by
  cases power with
  | none => exact yields_readExponent_none x hrest
  | some p => exact yields_readExponent_some x p hrest.noDigit

lemma noDigit_powerText (power : Option Power) {rest : List Char} (hrest : Delimited rest) :
    NoDigit (Figure.powerText power ++ rest) := by
  cases power with
  | none => exact hrest.noDigit
  | some p =>
    intro c hc
    obtain rfl : p.letter = c := by simpa [Figure.powerText, Power.text] using hc
    rcases p.letter_mem with h | h <;> rw [h] <;> decide

lemma powerText_ne_point (power : Option Power) {rest : List Char} (hrest : Delimited rest)
    (tail : List Char) : Figure.powerText power ++ rest ≠ '.' :: tail := by
  intro htail
  cases power with
  | none =>
    rw [Figure.powerText, List.nil_append] at htail
    exact (htail ▸ hrest : Delimited ('.' :: tail)).head.1 rfl
  | some p =>
    have hletter : p.letter = '.' := (List.cons.inj htail).1
    rcases p.letter_mem with h | h <;> rw [h] at hletter <;> exact absurd hletter (by decide)

/-- Without a point there is no fraction. -/
lemma readFraction_of_ne_point (x : Numeral) {cs : List Char} (h : ∀ tail, cs ≠ '.' :: tail) :
    readFraction x cs = readExponent x cs := by
  cases cs with
  | nil => rfl
  | cons c cs =>
    rw [readFraction, if_neg]
    rintro rfl
    exact h cs rfl

lemma yields_readFraction (x : Numeral) (fraction : Option Digits) (power : Option Power)
    {rest : List Char} (hrest : Delimited rest) :
    Yields (readFraction x (Figure.fractionText fraction ++ (Figure.powerText power ++ rest)))
      ((x.withFraction fraction).withPower power) rest := by
  cases fraction with
  | none =>
    rw [Figure.fractionText, List.nil_append,
      readFraction_of_ne_point x (powerText_ne_point power hrest)]
    exact yields_readExponent x power hrest
  | some ds =>
    obtain ⟨hlt, hdigits⟩ := takes_readDigits ds (noDigit_powerText power hrest)
    obtain ⟨hle, hpower⟩ := yields_readExponent (x.withFraction (some ds)) power hrest
    simp only [Figure.fractionText, List.cons_append]
    refine ⟨by simp; omega, ?_⟩
    rw [Numeral.withFraction] at hpower ⊢
    simp only [readFraction, if_true, hdigits, bind, Except.bind, hpower]
    rfl

lemma noDigit_fractionText (fraction : Option Digits) {tail : List Char} (htail : NoDigit tail) :
    NoDigit (Figure.fractionText fraction ++ tail) := by
  cases fraction with
  | none => exact htail
  | some ds =>
    intro c hc
    obtain rfl : '.' = c := by simpa [Figure.fractionText] using hc
    decide

/-! ## Reading -/

lemma takes_readUnsigned (x : Figure) {rest : List Char} (hrest : Delimited rest) :
    Takes (readUnsigned x.negative (x.whole.chars ++ (Figure.fractionText x.fraction ++
      (Figure.powerText x.power ++ rest)))) rest (some x.numeral) := by
  rw [x.numeral_eq]
  obtain ⟨negative, whole, fraction, power, lean⟩ := x
  have htail := noDigit_fractionText fraction (noDigit_powerText power hrest)
  obtain ⟨c, cs, hchars, hc, hcs⟩ := whole.exists_cons
  simp only [hchars] at lean
  simp only
  rw [hchars, List.cons_append]
  by_cases hzero : c = '0'
  · subst hzero
    obtain rfl : cs = [] := by simpa using lean
    have hleading : leadingDigits (Figure.fractionText fraction ++
        (Figure.powerText power ++ rest)) = [] :=
      @leadingDigits_append [] _ (fun _ h => absurd h List.not_mem_nil) htail
    obtain ⟨hle, hfraction⟩ := yields_readFraction
      { negative, whole := ['0'], plain := true } fraction power hrest
    rw [List.nil_append, readUnsigned, if_pos rfl, hleading]
    simp only [List.isEmpty_nil, if_true, hfraction, bind, Except.bind]
    exact takes_ok _ _
  · obtain ⟨hle, hafter⟩ := afterDigits_append hcs htail
    obtain ⟨hle', hfraction⟩ := yields_readFraction
      { negative, whole := c :: cs, plain := true } fraction power hrest
    rw [readUnsigned, if_neg hzero, if_pos hc, hafter, leadingDigits_append hcs htail]
    simp only [hfraction, bind, Except.bind]
    exact takes_ok _ _

lemma takes_readNumeral (x : Figure) {rest : List Char} (hrest : Delimited rest) :
    Takes (readNumeral (x.text ++ rest)) rest (some x.numeral) := by
  have hunsigned := takes_readUnsigned x hrest
  rw [Figure.text, List.append_assoc, List.append_assoc, List.append_assoc]
  cases hnegative : x.negative with
  | true =>
    rw [hnegative] at hunsigned
    rw [if_pos rfl, List.singleton_append, readNumeral, if_pos rfl]
    exact hunsigned.map (b := id) (fun _ => rfl) (fun _ => rfl)
  | false =>
    rw [hnegative] at hunsigned
    obtain ⟨c, cs, hchars, hc, -⟩ := x.whole.exists_cons
    have hsign : c ≠ '-' := by
      rintro rfl
      exact absurd hc (by decide)
    rw [if_neg Bool.false_ne_true, List.nil_append]
    rw [hchars, List.cons_append] at hunsigned ⊢
    rw [readNumeral, if_neg hsign]
    exact hunsigned

/-- A number starts with its sign or with a digit. -/
lemma Figure.exists_text_eq_cons (x : Figure) :
    ∃ c cs, x.text = c :: cs ∧ (c = '-' ∨ c.isDigit = true) := by
  rw [Figure.text]
  cases x.negative with
  | true => exact ⟨'-', _, rfl, .inl rfl⟩
  | false =>
    obtain ⟨c, cs, hchars, hc, -⟩ := x.whole.exists_cons
    rw [hchars]
    exact ⟨c, _, rfl, .inr hc⟩

/-- Reading a written number gives its value. -/
theorem takes_readNumber (x : Figure) {rest : List Char} (hrest : Delimited rest) :
    Takes (readNumber (x.text ++ rest)) rest x.value? := by
  obtain ⟨hlt, hnumeral⟩ := takes_readNumeral x hrest
  rw [readNumber, hnumeral, Figure.value?]
  cases hvalue : x.numeral.value with
  | error f =>
    simp only [bind, Except.bind, hvalue]
    exact takes_error f rest
  | ok v =>
    simp only [bind, Except.bind, hvalue]
    exact takes_ok v hlt

/-- Every written number can be passed over, whether it is out of range or not. -/
theorem takes_skipNumber (x : Figure) {rest : List Char} (hrest : Delimited rest) :
    Takes (skipNumber (x.text ++ rest)) rest (some ()) := by
  obtain ⟨hlt, hnumeral⟩ := takes_readNumeral x hrest
  rw [skipNumber, hnumeral]
  exact takes_ok () hlt

/-! ## Writing -/

/-- The decimal digits of a natural number. -/
def Digits.ofNat (n : Nat) : Digits where
  chars := Nat.toDigits 10 n
  nonempty := Nat.toDigits_ne_nil
  digit _ hc := Nat.isDigit_of_mem_toDigits (by decide) (by decide) hc

lemma toDigits_head_ne_zero {n : Nat} (hn : 0 < n) : ∀ c ∈ (Nat.toDigits 10 n).head?, c ≠ '0' := by
  induction n using Nat.strongRecOn with
  | ind n ih =>
    intro c hc
    by_cases hsmall : n < 10
    · rw [Nat.toDigits_of_lt_base hsmall] at hc
      obtain rfl : n.digitChar = c := by simpa using hc
      rw [Ne, Nat.digitChar_eq_zero]
      omega
    · rw [Nat.toDigits_of_base_le (by decide) (by omega), List.head?_append,
        List.head?_eq_some_head Nat.toDigits_ne_nil, Option.some_or,
        ← List.head?_eq_some_head Nat.toDigits_ne_nil] at hc
      exact ih (n / 10) (by omega) (by omega) c hc

lemma Digits.ofNat_lean (n : Nat) :
    (ofNat n).chars = ['0'] ∨ ∀ c ∈ (ofNat n).chars.head?, c ≠ '0' := by
  rcases Nat.eq_zero_or_pos n with rfl | hn
  · exact .inl (Nat.toDigits_zero 10)
  · exact .inr (toDigits_head_ne_zero hn)

/-- An integer as it is written. -/
def Figure.ofSign (negative : Bool) (n : Nat) : Figure where
  negative := negative
  whole := .ofNat n
  fraction := none
  power := none
  lean := Digits.ofNat_lean n

lemma Figure.value_ofSign (negative : Bool) (n : Nat) :
    (ofSign negative n).value? =
      (({ negative, whole := Nat.toDigits 10 n, plain := true } : Numeral).value).toOption := rfl

end Json

/-- A number that is kept as an integer, with a sign or without, of 64 bits. -/
def Number.Integral : Number → Prop
  | .int n => -(Nat.pow 2 63 : Int) ≤ n ∧ n < (Nat.pow 2 64 : Int)
  | .double _ => False

namespace Json

/-- What is written for an integer of 64 bits is a number of a document, and the same one is read
from it. -/
theorem exists_figure {n : Number} (h : n.Integral) :
    ∃ x : Figure, x.text = numberText n ∧ x.value? = some n := by
  cases n with
  | double bits => exact h.elim
  | int n =>
    obtain ⟨hlow, hhigh⟩ := h
    cases n with
    | ofNat n =>
      refine ⟨.ofSign false n, ?_, ?_⟩
      · simp [Figure.text, Figure.ofSign, Figure.fractionText, Figure.powerText, Digits.ofNat,
          numberText, intText]
      · have hrange : n < Nat.pow 2 64 := Int.ofNat_lt.1 hhigh
        simp only [Figure.value_ofSign, Numeral.value, Nat.ofDigitChars_ten_toDigits]
        rw [if_pos ⟨trivial, by decide, hrange⟩]
        rfl
    | negSucc n =>
      refine ⟨.ofSign true (n + 1), ?_, ?_⟩
      · simp [Figure.text, Figure.ofSign, Figure.fractionText, Figure.powerText, Digits.ofNat,
          numberText, intText]
      · have hrange : n + 1 ≤ Nat.pow 2 63 := by omega
        simp only [Figure.value_ofSign, Numeral.value, Nat.ofDigitChars_ten_toDigits]
        rw [if_neg (by simp), if_pos ⟨trivial, trivial, Nat.succ_pos n, hrange⟩]
        rfl

end Json
end SchemaCut
