import Mathlib.Data.List.TakeWhile
import Mathlib.Tactic.Lemma
import SchemaCut.Settings.Source

/-!
# What the variables of the environment stand for

The value of a variable is taken for a truth value, an integer or a double if it reads as one of
these, tried in this order, and else stays the text that it is.  Decimal digits stand for an integer
as long as this fits 64 bits with its sign; from there on they stand for a double.  The words for
layouts stay texts.

* `ofVariable_of_digits` : digits below `2 ^ 63` stand for their number.
* `ofVariable_of_large` : digits from there on stand for the nearest double.
* `ofVariable_of_unread` : a text that reads as nothing else stays a text.
-/

namespace SchemaCut

namespace Text

/-- A text with its ASCII letters in lower case. -/
def lowered (s : String) : String := String.ofList (s.toList.map Char.toLower)

lemma digits?_eq_some_iff {cs : List Char} {n : Nat} :
    digits? cs = some n ↔
      cs ≠ [] ∧ (∀ c ∈ cs, c.isDigit = true) ∧ Nat.ofDigitChars 10 cs 0 = n := by
  unfold digits?
  by_cases h : (cs.isEmpty || !cs.all Char.isDigit) = true
  · rw [if_pos h]
    simp only [Bool.or_eq_true, List.isEmpty_iff, Bool.not_eq_true', List.all_eq_false] at h
    constructor
    · intro hnone
      cases hnone
    · rintro ⟨hne, hall, -⟩
      rcases h with rfl | ⟨c, hc, hnot⟩
      · exact absurd rfl hne
      · exact absurd (hall c hc) hnot
  · rw [if_neg h]
    simp only [Bool.or_eq_true, List.isEmpty_iff, Bool.not_eq_true', not_or, Bool.not_eq_false,
      List.all_eq_true] at h
    constructor
    · intro hsome
      exact ⟨h.1, h.2, Option.some.inj hsome⟩
    · rintro ⟨-, -, hn⟩
      rw [hn]

lemma digits?_toDigits (n : Nat) : digits? (Nat.toDigits 10 n) = some n :=
  digits?_eq_some_iff.2 ⟨Nat.toDigits_ne_nil,
    fun _ hc => Nat.isDigit_of_mem_toDigits (by decide) (by decide) hc,
    Nat.ofDigitChars_ten_toDigits⟩

lemma toLower_of_isDigit {c : Char} (hc : c.isDigit = true) : c.toLower = c := by
  simp only [Char.isDigit, ge_iff_le, Bool.and_eq_true, decide_eq_true_eq,
    UInt32.le_iff_toNat_le] at hc
  have hnine : '9'.val.toNat < 'A'.val.toNat := by decide
  have hno : ¬('A'.val ≤ c.val ∧ c.val ≤ 'Z'.val) := by
    simp only [UInt32.le_iff_toNat_le]
    omega
  exact dif_neg hno

/-- A word whose first letter is that of a text in lower case. -/
lemma exists_cons_of_lowered_eq {s word : String} {w : Char} {ws : List Char}
    (hword : word.toList = w :: ws) (h : lowered s = word) :
    ∃ c cs, s.toList = c :: cs ∧ c.toLower = w := by
  have hchars : s.toList.map Char.toLower = w :: ws := by
    rw [← hword, ← h, lowered, String.toList_ofList]
  cases hs : s.toList with
  | nil => simp [hs] at hchars
  | cons c cs =>
    rw [hs, List.map_cons] at hchars
    exact ⟨c, cs, rfl, (List.cons.inj hchars).1⟩

/-- A text that starts with a digit is no word. -/
lemma lowered_ne_of_digits {s : String} {n : Nat} (h : digits? s.toList = some n) (word : String)
    {w : Char} {ws : List Char} (hword : word.toList = w :: ws) (hw : w.isDigit = false) :
    lowered s ≠ word := by
  intro heq
  obtain ⟨c, cs, hs, hc⟩ := exists_cons_of_lowered_eq hword heq
  obtain ⟨-, hdigits, -⟩ := digits?_eq_some_iff.1 h
  have hdigit : c.isDigit = true := hdigits c (hs ▸ List.mem_cons_self)
  rw [toLower_of_isDigit hdigit] at hc
  rw [← hc, hdigit] at hw
  cases hw

/-! ## Integers and doubles -/

lemma integer?_of_digits {s : String} {n : Nat} (h : digits? s.toList = some n) :
    integer? s = if n < Nat.pow 2 63 then some (n : Int) else none := by
  obtain ⟨-, hdigits, -⟩ := digits?_eq_some_iff.1 h
  unfold integer?
  split
  · next ds hs => exact absurd (hdigits '-' (hs ▸ List.mem_cons_self)) (by decide)
  · next ds hs => exact absurd (hdigits '+' (hs ▸ List.mem_cons_self)) (by decide)
  · rw [h]
    rfl

lemma double?_of_digits {s : String} {n : Nat} (h : digits? s.toList = some n) :
    double? s = some (Decimal.nearestBits n 0) := by
  obtain ⟨hne, hdigits, hvalue⟩ := digits?_eq_some_iff.1 h
  have hmagnitude : magnitude? s.toList = some (Decimal.nearestBits n 0) := by
    have hinf := lowered_ne_of_digits h "inf" rfl rfl
    have hinfinity := lowered_ne_of_digits h "infinity" rfl rfl
    have hnan := lowered_ne_of_digits h "nan" rfl rfl
    have hwhole : s.toList.takeWhile Char.isDigit = s.toList :=
      List.takeWhile_eq_self_iff.2 hdigits
    have hrest : s.toList.dropWhile Char.isDigit = [] := List.dropWhile_eq_nil_iff.2 hdigits
    unfold lowered at hinf hinfinity hnan
    unfold magnitude?
    simp only [hinf, hinfinity, hnan, or_self, if_false, hwhole, hrest]
    simp [hne, hvalue]
  unfold double?
  split
  · next ds hs => exact absurd (hdigits '-' (hs ▸ List.mem_cons_self)) (by decide)
  · next ds hs => exact absurd (hdigits '+' (hs ▸ List.mem_cons_self)) (by decide)
  · exact hmagnitude

/-- A text whose first character starts no number, and which is no word for a double, reads as
neither an integer nor a double. -/
lemma unread_of_head {s : String} {c : Char} {cs : List Char} (hs : s.toList = c :: cs)
    (hdigit : c.isDigit = false) (hsign : c ≠ '-' ∧ c ≠ '+' ∧ c ≠ '.')
    (hword : lowered s ∉ ["inf", "infinity", "nan"]) : integer? s = none ∧ double? s = none := by
  obtain ⟨hminus, hplus, hpoint⟩ := hsign
  simp only [List.mem_cons, List.not_mem_nil, or_false, not_or, lowered, hs] at hword
  obtain ⟨hinf, hinfinity, hnan⟩ := hword
  constructor
  · unfold integer?
    rw [hs]
    split
    · next heq => exact absurd (List.cons.inj heq).1 hminus
    · next heq => exact absurd (List.cons.inj heq).1 hplus
    · simp [digits?, hdigit]
  · unfold double?
    rw [hs]
    split
    · next heq => exact absurd (List.cons.inj heq).1 hminus
    · next heq => exact absurd (List.cons.inj heq).1 hplus
    · unfold magnitude?
      simp only [hinf, hinfinity, hnan, or_self, if_false]
      have hwhole : (c :: cs).takeWhile Char.isDigit = [] := by simp [hdigit]
      have hrest : (c :: cs).dropWhile Char.isDigit = c :: cs := by simp [hdigit]
      rw [hwhole, hrest]
      split
      · next heq => exact absurd (List.cons.inj heq).1 hpoint
      · rfl

end Text

namespace Setting

open Text

/-- A variable is taken for the first kind of value that it reads as. -/
lemma ofVariable_eq (value : String) :
    ofVariable value =
      if lowered value = "true" then .boolean environmentOrigin true
      else if lowered value = "false" then .boolean environmentOrigin false
      else
        match integer? value, double? value with
        | some n, _ => .integer environmentOrigin n
        | none, some bits => .float environmentOrigin bits
        | none, none => .text environmentOrigin value := rfl

lemma ofVariable_of_digits {value : String} {n : Nat} (h : digits? value.toList = some n)
    (hn : n < Nat.pow 2 63) : ofVariable value = .integer environmentOrigin n := by
  rw [ofVariable_eq, if_neg (lowered_ne_of_digits h _ rfl rfl),
    if_neg (lowered_ne_of_digits h _ rfl rfl), integer?_of_digits h, if_pos hn]

lemma ofVariable_of_large {value : String} {n : Nat} (h : digits? value.toList = some n)
    (hn : Nat.pow 2 63 ≤ n) :
    ofVariable value = .float environmentOrigin (Decimal.nearestBits n 0) := by
  rw [ofVariable_eq, if_neg (lowered_ne_of_digits h _ rfl rfl),
    if_neg (lowered_ne_of_digits h _ rfl rfl), integer?_of_digits h, if_neg (Nat.not_lt.2 hn),
    double?_of_digits h]

/-- A text that reads as neither a truth value nor a number. -/
structure Unread (value : String) : Prop where
  noTruth : lowered value ∉ ["true", "false"]
  noInteger : integer? value = none
  noDouble : double? value = none

lemma ofVariable_of_unread {value : String} (h : Unread value) :
    ofVariable value = .text environmentOrigin value := by
  have hwords := h.noTruth
  simp only [List.mem_cons, List.not_mem_nil, or_false, not_or] at hwords
  rw [ofVariable_eq, if_neg hwords.1, if_neg hwords.2, h.noInteger, h.noDouble]

/-- A word of letters stays a text, in whatever letter case it is written. -/
lemma unread_of_lowered_eq {value : String} (word : String) {w : Char} {ws : List Char}
    (hword : word.toList = w :: ws) (h : lowered value = word)
    (hw : w.isDigit = false ∧ w ≠ '-' ∧ w ≠ '+' ∧ w ≠ '.')
    (hother : word ∉ ["true", "false", "inf", "infinity", "nan"]) : Unread value := by
  simp only [List.mem_cons, List.not_mem_nil, or_false, not_or] at hother
  obtain ⟨htrue, hfalse, hinf, hinfinity, hnan⟩ := hother
  obtain ⟨hdigit, hminus, hplus, hpoint⟩ := hw
  obtain ⟨c, cs, hs, hc⟩ := exists_cons_of_lowered_eq hword h
  have hcdigit : c.isDigit = false := by
    refine Bool.eq_false_iff.2 fun hdig => ?_
    rw [toLower_of_isDigit hdig] at hc
    rw [hc, hdigit] at hdig
    cases hdig
  have hsign : c ≠ '-' ∧ c ≠ '+' ∧ c ≠ '.' := by
    refine ⟨?_, ?_, ?_⟩
    · rintro rfl
      exact hminus hc.symm
    · rintro rfl
      exact hplus hc.symm
    · rintro rfl
      exact hpoint hc.symm
  obtain ⟨hinteger, hdouble⟩ := unread_of_head hs hcdigit hsign (by simp [h, hinf, hinfinity, hnan])
  exact ⟨by simp [h, htrue, hfalse], hinteger, hdouble⟩

end Setting

end SchemaCut
