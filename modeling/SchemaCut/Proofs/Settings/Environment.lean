import Mathlib.Data.List.Permutation
import Mathlib.Data.Nat.Digits.Defs
import SchemaCut.Proofs.Settings.Loading

/-!
# Counts and texts given by the environment

A variable is taken for a truth value, an integer or a double before it is read as the type of its
setting.  So the text of a number or a truth value is not kept as it is written: `textHeard` gives
what is kept.  Digits that are too large for an integer with a sign are rounded to a double first,
whose last place there is `2048`: `countHeard` gives the count that is left.

* `countOfDouble_nearestBits` : the count of the double nearest to a large number.
* `countHeard_eq_iff` : the counts that are kept exactly.
* `load_variables` : what is loaded from a length and a marker in the environment.
* `load_variables_inexact` : a marker and a length that do not arrive as they were given.
-/

namespace SchemaCut

namespace Setting

/-! ## Large counts -/

section LargeCounts

open Decimal

variable {n : Nat}

lemma roundDiv_of_large (hlow : Nat.pow 2 63 ≤ n) (hhigh : n < Nat.pow 2 64) :
    Nat.pow 2 52 ≤ roundDiv n 2048 ∧ roundDiv n 2048 ≤ Nat.pow 2 53 := by
  simp only [Nat.pow_eq] at hlow hhigh ⊢
  unfold roundDiv
  dsimp only
  split_ifs <;> omega

/-- From `2 ^ 63` to `2 ^ 64` the doubles are the multiples of `2048`. -/
lemma nearestBits_of_large (hlow : Nat.pow 2 63 ≤ n) (hhigh : n < Nat.pow 2 64) :
    nearestBits n 0 =
      UInt64.ofNat (roundDiv n 2048 - Nat.pow 2 52 + 1086 * Nat.pow 2 52) := by
  have hlength : (Nat.toDigits 10 n).length ≤ 20 := by
    apply Nat.toDigits_length 10 n 20 (by decide)
    have hbound : Nat.pow 2 64 < 10 ^ 20 := by decide
    omega
  have hpos : n ≠ 0 := by
    have hfirst : 0 < Nat.pow 2 63 := by decide
    omega
  have hlog : n.log2 = 63 := (Nat.log2_eq_iff hpos).2 ⟨hlow, hhigh⟩
  have hround := roundDiv_of_large hlow hhigh
  have hone : Nat.log2 1 = 0 := by decide
  have hsize : (1 : Nat) * Nat.pow 2 63 ≤ n * Nat.pow 2 0 := by simpa using hlow
  have hratio : ratioBits n 1 =
      UInt64.ofNat (roundDiv n 2048 - Nat.pow 2 52 + 1086 * Nat.pow 2 52) := by
    unfold ratioBits
    rw [hlog, hone]
    have hguess : ((63 : Nat) : Int) - ((0 : Nat) : Int) = 63 := by decide
    have hplace : max ((63 : Int) - 52) (-1074) = 11 := by decide
    have hdown : (-(63 : Int)).toNat = 0 ∧ (-(11 : Int)).toNat = 0 := by decide
    have hup : (63 : Int).toNat = 63 ∧ (11 : Int).toNat = 11 ∧
        ((11 : Int) + 1075).toNat = 1086 := by decide
    have hscaled : roundDiv (n * Nat.pow 2 0) (1 * Nat.pow 2 11) = roundDiv n 2048 := by
      rw [show Nat.pow 2 0 = 1 from rfl, Nat.mul_one]
    simp only [hguess, hdown, hup, hsize, if_true, hplace, hscaled]
    rw [if_neg (Nat.not_lt.2 hround.1), Nat.min_eq_left]
    simp only [Nat.pow_eq] at hround ⊢
    omega
  unfold nearestBits
  have hnotEmpty : ¬(n = 0 ∨ ((Nat.toDigits 10 n).length : Int) + 0 < -330) := by omega
  have hnotHuge : ¬(330 : Int) < ((Nat.toDigits 10 n).length : Int) + 0 := by omega
  rw [if_neg hnotEmpty, if_neg hnotHuge, ← hratio]
  simp

/-- A whole double is the count that it is, up to the largest one. -/
lemma countOfDouble_of_parts {bits : UInt64} {e f : Nat} (hf : f < Nat.pow 2 52)
    (he : 1075 ≤ e ∧ e < 2047) (hbits : bits.toNat = f + e * Nat.pow 2 52) :
    countOfDouble bits = min maxCount ((f + Nat.pow 2 52) * Nat.pow 2 (e - 1075)) := by
  simp only [Nat.pow_eq] at hf hbits
  have hsign : bits.toNat / 2 ^ 63 ≠ 1 := by omega
  have hexponent : bits.toNat / 2 ^ 52 % 2 ^ 11 = e := by omega
  have hfraction : bits.toNat % 2 ^ 52 = f := by omega
  have hofBits : Binary.ofBits bits = .finite false (f + Nat.pow 2 52) ((e : Int) - 1075)
      (f = 0 && e != 1) := by
    unfold Binary.ofBits
    simp only [Nat.pow_eq, hexponent, hfraction, hsign]
    rw [if_neg (by omega), if_neg (by omega)]
    rfl
  have hup : ((e : Int) - 1075).toNat = e - 1075 := by omega
  have hdown : (-((e : Int) - 1075)).toNat = 0 := by omega
  have hwhole : ∀ k, roundUp k (Nat.pow 2 0) = k := by
    intro k
    unfold roundUp
    rw [show Nat.pow 2 0 = 1 from rfl]
    omega
  unfold countOfDouble
  rw [hofBits]
  simp only [Bool.false_eq_true, if_false, hup, hdown, hwhole]

/-- A half goes to the even neighbour, and what rounds up to `2 ^ 64` becomes the largest count. -/
lemma countOfDouble_nearestBits (hlow : Nat.pow 2 63 ≤ n) (hhigh : n < Nat.pow 2 64) :
    countOfDouble (nearestBits n 0) = min maxCount (2048 * roundDiv n 2048) := by
  have hround := roundDiv_of_large hlow hhigh
  have hbits : (nearestBits n 0).toNat =
      roundDiv n 2048 - Nat.pow 2 52 + 1086 * Nat.pow 2 52 := by
    rw [nearestBits_of_large hlow hhigh]
    apply UInt64.toNat_ofNat_of_lt
    simp only [Nat.pow_eq, UInt64.size] at hround ⊢
    omega
  by_cases hover : roundDiv n 2048 = Nat.pow 2 53
  · -- the significand runs over into the exponent
    have hnext : (nearestBits n 0).toNat = 0 + 1087 * Nat.pow 2 52 := by
      rw [hbits, hover]
    rw [countOfDouble_of_parts (by decide) (by decide) hnext, hover]
  · simp only [Nat.pow_eq] at hround hover
    rw [countOfDouble_of_parts (by simp only [Nat.pow_eq]; omega) (by decide) hbits]
    simp only [Nat.pow_eq]
    omega

/-- The count that is left of a number in the environment. -/
def countHeard (n : Nat) : Nat :=
  if n < Nat.pow 2 63 then n else min maxCount (2048 * roundDiv n 2048)

/-- Beyond the integers with a sign, only the multiples of `2048` and the largest count arrive. -/
lemma countHeard_eq_iff (hn : n < Nat.pow 2 64) :
    countHeard n = n ↔ n < Nat.pow 2 63 ∨ 2048 ∣ n ∨ n = maxCount := by
  unfold countHeard
  by_cases hsmall : n < Nat.pow 2 63
  · simp [hsmall]
  · rw [if_neg hsmall]
    simp only [Nat.pow_eq, maxCount] at hn hsmall ⊢
    unfold roundDiv
    dsimp only
    split_ifs <;> omega

end LargeCounts

/-! ## Texts -/

/-- The text that is left of a variable. -/
def textHeard (value : String) : String :=
  if Text.lowered value = "true" ∨ Text.lowered value = "false" then Text.lowered value
  else
    match Text.integer? value, Text.double? value with
    | some n, _ => integerText n
    | none, some bits => Text.doubleText bits
    | none, none => value

lemma textHeard_of_unread {value : String} (h : Unread value) : textHeard value = value := by
  have hwords := h.noTruth
  simp only [List.mem_cons, List.not_mem_nil, or_false] at hwords
  unfold textHeard
  rw [if_neg hwords, h.noInteger, h.noDouble]

end Setting

namespace Config

open Setting

/-- A variable is read as the text that is left of it. -/
lemma isText_ofVariable (value : String) : IsText (ofVariable value) (textHeard value) := by
  intro key
  rw [ofVariable_eq]
  unfold textHeard
  by_cases htrue : Text.lowered value = "true"
  · simp only [htrue, if_true, true_or]
    rfl
  · by_cases hfalse : Text.lowered value = "false"
    · simp only [hfalse, if_true, or_true]
      rfl
    · simp only [htrue, hfalse, if_false, or_self]
      cases Text.integer? value with
      | some n => rfl
      | none =>
        cases Text.double? value with
        | some bits => rfl
        | none => rfl

/-- The decimal digits of a number are read as the count that is left of it. -/
lemma isCount_ofVariable {n : Nat} (hn : n < Nat.pow 2 64) :
    IsCount (ofVariable (String.ofList (Nat.toDigits 10 n))) (countHeard n) := by
  have hdigits : Text.digits? (String.ofList (Nat.toDigits 10 n)).toList = some n := by
    rw [String.toList_ofList]
    exact Text.digits?_toDigits n
  unfold countHeard
  by_cases hsmall : n < Nat.pow 2 63
  · rw [if_pos hsmall, ofVariable_of_digits hdigits hsmall]
    exact isCount_integer _ n
  · have hlarge : Nat.pow 2 63 ≤ n := Nat.not_lt.1 hsmall
    rw [if_neg hsmall, ofVariable_of_large hdigits hlarge]
    intro key
    rw [toCount, countOfDouble_nearestBits hlarge hn]

/-! ## Nothing but the environment -/

/-- No settings file can be found and read. -/
def NoFiles (around : Surroundings) : Prop :=
  ∀ l ∈ locations around none, ∀ found format text, ¬IsThere around l.2 found format text

/-- The variables that hold settings are the given ones, in some order. -/
def SettingsAre (environment held : List (String × String)) : Prop :=
  (environment.filter fun e => (variableKey? e.1).isSome).Perm held

lemma ofEnvironment_filter (environment : List (String × String)) :
    ofEnvironment (environment.filter fun e => (variableKey? e.1).isSome) =
      ofEnvironment environment := by
  unfold ofEnvironment
  rw [List.filterMap_filter]
  refine List.filterMap_congr fun e _ => ?_
  obtain ⟨name, value⟩ := e
  dsimp only
  cases variableKey? name with
  | none => rfl
  | some key => rfl

lemma forall₂_replicate {α β : Type} {r : α → β → Prop} {as : List α} {b : β}
    (h : ∀ a ∈ as, r a b) : List.Forall₂ r as (List.replicate as.length b) := by
  induction as with
  | nil => exact .nil
  | cons a as ih =>
    exact .cons (h a List.mem_cons_self) (ih fun a' ha' => h a' (List.mem_cons_of_mem a ha'))

/-- Layers without entries give nothing. -/
lemma last_replicate_append (n : Nat) (g : Given) :
    Given.last (List.replicate n ({} : Given) ++ [g]) = g := by
  induction n with
  | zero => exact Given.last_singleton g
  | succ n ih =>
    rw [List.replicate_succ, List.cons_append, Given.last_cons, ih]
    simp [Given.or]

/-- Without settings files a configuration is what the environment sets. -/
lemma load_of_noFiles {around : Surroundings} {g : Given} (hfiles : NoFiles around)
    (henvironment : ∀ s, Lays g s (s.addLayer (ofEnvironment around.environment))) :
    load around none = .ok g.config := by
  have hnothing : List.Forall₂ (LocationSays around) (locations around none)
      (List.replicate (locations around none).length {}) := by
    apply forall₂_replicate
    rintro ⟨required, place⟩ hl
    obtain rfl : required = false := (mem_locations_none.1 hl).1
    exact .nothing (hfiles (false, place) hl)
  obtain ⟨files, hlayers, hlays⟩ := exists_layers hnothing
  have hall := List.rel_append hlays (.cons henvironment .nil)
  rw [load_of_lays hlayers hall]
  dsimp only
  rw [last_replicate_append]

/-- The variables that give a marker and a length in decimal digits. -/
def shorteningVariables (fill : String) (n : Nat) : List (String × String) :=
  [("SCHEMA_SUBSET__SHORTEN__FILL", fill),
    ("SCHEMA_SUBSET__SHORTEN__MAX_LENGTH", String.ofList (Nat.toDigits 10 n))]

lemma variableKey?_shortening :
    variableKey? "SCHEMA_SUBSET__SHORTEN__FILL" = some "shorten.fill" ∧
      variableKey? "SCHEMA_SUBSET__SHORTEN__MAX_LENGTH" = some "shorten.max_length" := by
  decide +kernel

/-- A marker and a length that only the environment gives are loaded as what is left of them.  The
length is the given one unless it is neither an integer with a sign nor a double, and the marker is
the given one if it reads as neither a truth value nor a number. -/
theorem load_variables {around : Surroundings} (fill : String) {n : Nat} (hn : n < Nat.pow 2 64)
    (hfiles : NoFiles around)
    (henvironment : SettingsAre around.environment (shorteningVariables fill n)) :
    load around none = .ok { shorten := { maxLength := countHeard n, fill := textHeard fill } } ∧
      (countHeard n = n ↔ n < Nat.pow 2 63 ∨ 2048 ∣ n ∨ n = maxCount) ∧
      (Unread fill → textHeard fill = fill) := by
  refine ⟨?_, countHeard_eq_iff hn, textHeard_of_unread⟩
  have hfill : VariableLays ("SCHEMA_SUBSET__SHORTEN__FILL", fill)
      { fill := some (textHeard fill) } :=
    .inr ⟨"shorten.fill", variableKey?_shortening.1, lays_set_fill (isText_ofVariable fill)⟩
  have hlength : VariableLays
      ("SCHEMA_SUBSET__SHORTEN__MAX_LENGTH", String.ofList (Nat.toDigits 10 n))
      { maxLength := some (countHeard n) } :=
    .inr ⟨"shorten.max_length", variableKey?_shortening.2,
      lays_set_maxLength (isCount_ofVariable hn)⟩
  refine load_of_noFiles (g := { maxLength := some (countHeard n), fill := some (textHeard fill) })
    hfiles fun s => ?_
  rw [← ofEnvironment_filter]
  rcases List.perm_pair.1 henvironment with horder | horder
  · rw [horder]
    exact lays_addLayer_ofEnvironment (.cons hfill (.cons hlength .nil)) s
  · rw [horder]
    exact lays_addLayer_ofEnvironment (.cons hlength (.cons hfill .nil)) s

/-- An empty working directory and an environment. -/
def bare (environment : List (String × String)) : Surroundings where
  files := .empty
  directory := "/work"
  environment

lemma noFiles_bare (environment : List (String × String)) : NoFiles (bare environment) := by
  have hmissing : ∀ place ∈ standardPaths,
      locate (bare environment) place = .error (.fileMissing place) := by
    intro place hplace
    simp only [standardPaths, List.mem_cons, List.not_mem_nil, or_false] at hplace
    rcases hplace with rfl | rfl | rfl <;> rfl
  intro l hl found format text hthere
  obtain ⟨-, hplace | ⟨huser, -⟩⟩ := mem_locations_none.1 hl
  · rw [IsThere, hmissing _ hplace] at hthere
    cases hthere.1
  · cases huser

lemma settingsAre_bare (fill : String) (n : Nat) :
    SettingsAre (bare (shorteningVariables fill n)).environment (shorteningVariables fill n) := by
  unfold SettingsAre shorteningVariables bare
  simp [variableKey?_shortening]

/-- A marker that reads as a truth value loses its letter case, and the largest count is kept. -/
theorem load_variables_bare :
    load (bare (shorteningVariables "Yes" 40)) none =
      .ok { shorten := { maxLength := 40, fill := "Yes" } } ∧
    load (bare (shorteningVariables "TRUE" (Nat.pow 2 64 - 1))) none =
      .ok { shorten := { maxLength := Nat.pow 2 64 - 1, fill := "true" } } := by
  have hheard : textHeard "Yes" = "Yes" ∧ textHeard "TRUE" = "true" := by decide +kernel
  have hcount : countHeard 40 = 40 ∧ countHeard (Nat.pow 2 64 - 1) = Nat.pow 2 64 - 1 := by
    decide +kernel
  obtain ⟨hsmall, -, -⟩ := load_variables "Yes" (by decide) (noFiles_bare _)
    (settingsAre_bare "Yes" 40)
  obtain ⟨hlarge, -, -⟩ := load_variables "TRUE" (by decide) (noFiles_bare _)
    (settingsAre_bare "TRUE" (Nat.pow 2 64 - 1))
  rw [hheard.1, hcount.1] at hsmall
  rw [hheard.2, hcount.2] at hlarge
  exact ⟨hsmall, hlarge⟩

/-- A marker of digits loses its leading zeros, and a length above the integers with a sign loses
its last place. -/
theorem load_variables_inexact :
    (load (bare (shorteningVariables "007" 9223372036854775809)) none).toOption =
      some { shorten := { maxLength := 9223372036854775808, fill := "7" } } ∧
    ¬∀ (around : Surroundings) (fill : String) (n : Nat), n < Nat.pow 2 64 →
      Char.ofNat 0 ∉ fill.toList → NoFiles around →
      SettingsAre around.environment (shorteningVariables fill n) →
      load around none = .ok { shorten := { maxLength := n, fill } } := by
  have hloaded : (load (bare (shorteningVariables "007" 9223372036854775809)) none).toOption =
      some { shorten := { maxLength := 9223372036854775808, fill := "7" } } := by
    decide +kernel
  refine ⟨hloaded, fun hexact => ?_⟩
  have hkept := hexact _ "007" 9223372036854775809 (by decide) (by decide) (noFiles_bare _)
    (settingsAre_bare _ _)
  rw [hkept] at hloaded
  exact absurd hloaded (by decide)

end Config
end SchemaCut
