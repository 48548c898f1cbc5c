import Mathlib.Data.List.TakeWhile
import SchemaCut.Proofs.Reading.Numbers
import SchemaCut.Proofs.Reading.Strings

/-!
# Where readers stop

Everything that is written by the rules is read.  Now the other direction: a reader takes nothing
else.  `Stops P x` says that the rest that `x` leaves satisfies `P` if it leaves one, and has one
rule for each way in which readers are put together.  `P` says how the text goes on up to that rest.

Nothing is said of the value that is read: what is written determines it.

* `exists_space`, `exists_colon` : what is passed over between the parts of a document.
* `stops_readString`, `stops_skipString` : the inside of a string and its closing quote.
* `stops_readNumber`, `stops_skipNumber` : a number.
-/

namespace SchemaCut
namespace Json

variable {α β : Type} {m n : Nat}

/-! ## Conditions on what is left -/

/-- Wherever a reader stops, the rest satisfies a condition. -/
def Stops (P : List Char → Prop) (x : Except Fault (Parsed α n)) : Prop :=
  ∀ p, x = .ok p → P p.rest

section Stops

variable {P Q : List Char → Prop} {x : Except Fault (Parsed α n)}

lemma stops_ok {p : Parsed α n} (h : P p.rest) : Stops P (.ok p) := by
  rintro _ ⟨⟩
  exact h

lemma stops_error (P : List Char → Prop) (f : Fault) :
    Stops P (.error f : Except Fault (Parsed α n)) := by
  rintro _ ⟨⟩

namespace Stops

lemma mono (hx : Stops P x) (h : ∀ rest, P rest → Q rest) : Stops Q x :=
  fun p hp => h p.rest (hx p hp)

lemma bind {k : Parsed α n → Except Fault (Parsed β m)} (hx : Stops P x)
    (hk : ∀ p : Parsed α n, P p.rest → Stops Q (k p)) : Stops Q (x >>= k) := by
  cases x with
  | error f => exact stops_error Q f
  | ok p => exact hk p (hx p rfl)

lemma map {g : Parsed α n → Parsed β m} (hx : Stops P x) (hg : ∀ p, (g p).rest = p.rest)
    (h : ∀ rest, P rest → Q rest) : Stops Q (x.map g) := by
  cases x with
  | error f => exact stops_error Q f
  | ok p =>
    refine stops_ok ?_
    rw [hg]
    exact h p.rest (hx p rfl)

end Stops

lemma exists_of_bind {γ δ : Type} {y : Except Fault γ} {k : γ → Except Fault δ} {b : δ}
    (h : y >>= k = .ok b) : ∃ a, y = .ok a ∧ k a = .ok b := by
  cases y with
  | error f => cases h
  | ok a => exact ⟨a, rfl, h⟩

/-- Something that fails or goes on. -/
lemma stops_check {γ : Type} {y : Except Fault γ} {k : γ → Except Fault (Parsed β m)}
    (hk : ∀ a, y = .ok a → Stops Q (k a)) : Stops Q (y >>= k) := by
  intro p hp
  obtain ⟨a, ha, hp⟩ := exists_of_bind hp
  exact hk a ha p hp

end Stops

/-! ## White space, colons and words -/

/-- White space behind white space. -/
def Space.append (v w : Space) : Space where
  chars := v.chars ++ w.chars
  blank c hc := (List.mem_append.1 hc).elim (v.blank c) (w.blank c)

variable {cs ds rest : List Char}

lemma exists_space {h : ds.length ≤ cs.length} (hskip : skipSpace cs = ⟨ds, h⟩) :
    ∃ w : Space, cs = w.chars ++ ds := by
  have hdrop : cs.dropWhile isSpace = ds := congrArg Subtype.val hskip
  refine ⟨⟨cs.takeWhile isSpace, fun c hc => List.mem_takeWhile_imp hc⟩, ?_⟩
  rw [← hdrop]
  exact List.takeWhile_append_dropWhile.symm

lemma exists_colon {r : Rest cs.length} (h : takeColon cs = .ok r) :
    ∃ w : Space, cs = w.chars ++ ':' :: r.1 := by
  rw [takeColon] at h
  split at h
  · cases h
  · next c ds hlength hskip =>
    obtain ⟨w, rfl⟩ := exists_space hskip
    split at h
    · next hc =>
      subst hc
      cases h
      exact ⟨w, rfl⟩
    · cases h

lemma eq_append_of_takeWord {word : List Char} {r : Rest cs.length}
    (h : takeWord word cs = .ok r) : cs = word ++ r.1 := by
  induction word generalizing cs with
  | nil =>
    cases cs <;> cases h <;> rfl
  | cons w word ih =>
    cases cs with
    | nil => cases h
    | cons c cs =>
      rw [takeWord] at h
      split at h
      · next hc =>
        obtain ⟨r', hword, h⟩ := exists_of_bind h
        cases h
        rw [hc, List.cons_append]
        exact congrArg _ (ih hword)
      · cases h

/-! ## Strings -/

section Strings

open Literal

lemma stops_readHex (cs : List Char) :
    Stops (fun rest => ∃ a b c d value, hexValue? a b c d = some value ∧
      cs = a :: b :: c :: d :: rest) (readHex cs) := by
  rw [readHex.eq_def]
  split
  · next a b c d rest =>
    split
    · next value hvalue => exact stops_ok ⟨a, b, c, d, value, hvalue, rfl⟩
    · exact stops_error _ _
  · split
    · exact stops_error _ _
    · exact stops_error _ _

/-- What stands between a backslash and the rest makes up an escape, or two of them. -/
def IsEscape (cs rest : List Char) : Prop :=
  ∃ pieces, '\\' :: cs = innerText pieces ++ rest

lemma isEscape_letter {c value : Char} (h : letterEscape? c = some value) (rest : List Char) :
    IsEscape (c :: rest) rest :=
  ⟨[.letter c value h], rfl⟩

lemma isEscape_code {a b c d : Char} {value : Nat} (h : hexValue? a b c d = some value)
    (hcs : cs = a :: b :: c :: d :: rest) : IsEscape ('u' :: cs) rest :=
  ⟨[.code a b c d value h], by rw [hcs]; rfl⟩

lemma IsEscape.behind_code (hlow : IsEscape ds rest) {a b c d : Char} {value : Nat}
    (h : hexValue? a b c d = some value) (hcs : cs = a :: b :: c :: d :: '\\' :: ds) :
    IsEscape ('u' :: cs) rest := by
  obtain ⟨pieces, heq⟩ := hlow
  exact ⟨.code a b c d value h :: pieces, by rw [hcs, heq]; rfl⟩

/-- The escape of a low surrogate. -/
lemma stops_readLow (high : Nat) (cs : List Char) :
    Stops (fun rest => ∃ ds, cs = '\\' :: ds ∧ IsEscape ds rest) (readLow high cs) := by
  rw [readLow.eq_def]
  split
  · exact stops_error _ _
  · split
    · exact stops_error _ _
    · exact stops_error _ _
  · next c d cs =>
    split
    · next hstart =>
      obtain ⟨rfl, rfl⟩ := hstart
      refine (stops_readHex cs).bind fun p hp => ?_
      obtain ⟨_, _, _, _, _, hvalue, hcs⟩ := hp
      split
      · exact stops_ok ⟨_, rfl, isEscape_code hvalue hcs⟩
      · exact stops_error _ _
    · exact stops_error _ _

lemma stops_readEscape (cs : List Char) : Stops (IsEscape cs) (readEscape cs) := by
  rw [readEscape.eq_def]
  split
  · exact stops_error _ _
  · next c cs =>
    split
    · next e he => exact stops_ok (isEscape_letter he cs)
    split
    · next hc =>
      subst hc
      refine (stops_readHex cs).bind fun p hp => ?_
      obtain ⟨_, _, _, _, _, hvalue, hcs⟩ := hp
      split
      · exact stops_error _ _
      split
      · refine (stops_readLow p.value p.rest).bind fun q hq => stops_ok ?_
        obtain ⟨ds, hds, hlow⟩ := hq
        rw [hds] at hcs
        exact hlow.behind_code hvalue hcs
      · exact stops_ok (isEscape_code hvalue hcs)
    · exact stops_error _ _

lemma stops_skipEscape (cs : List Char) : Stops (IsEscape cs) (skipEscape cs) := by
  rw [skipEscape.eq_def]
  split
  · exact stops_error _ _
  · next c cs =>
    split
    · next he =>
      obtain ⟨e, he⟩ := Option.isSome_iff_exists.1 he
      exact stops_ok (isEscape_letter he cs)
    split
    · next hc =>
      subst hc
      refine (stops_readHex cs).bind fun p hp => ?_
      obtain ⟨_, _, _, _, _, hvalue, hcs⟩ := hp
      exact stops_ok (isEscape_code hvalue hcs)
    · exact stops_error _ _

/-- What stands behind an opening quote is the inside of a string and the closing quote. -/
def IsInside (cs rest : List Char) : Prop := ∃ l : Literal, cs = innerText l.pieces ++ '"' :: rest

lemma isInside_nil (rest : List Char) : IsInside ('"' :: rest) rest := ⟨⟨[]⟩, rfl⟩

lemma innerText_append (ps qs : List Piece) :
    innerText (ps ++ qs) = innerText ps ++ innerText qs := by
  induction ps with
  | nil => rfl
  | cons p ps ih => rw [List.cons_append, innerText, innerText, ih, List.append_assoc]

lemma IsInside.escape (h : IsInside ds rest) (hescape : IsEscape cs ds) :
    IsInside ('\\' :: cs) rest := by
  obtain ⟨l, rfl⟩ := h
  obtain ⟨pieces, heq⟩ := hescape
  exact ⟨⟨pieces ++ l.pieces⟩, by rw [heq, innerText_append, List.append_assoc]⟩

lemma IsInside.plain (h : IsInside cs rest) {c : Char} (hquote : c ≠ '"') (hbackslash : c ≠ '\\')
    (hcontrol : ¬ c.toNat < 0x20) : IsInside (c :: cs) rest := by
  obtain ⟨l, rfl⟩ := h
  exact ⟨⟨.plain c ⟨hquote, hbackslash, Nat.not_lt.1 hcontrol⟩ :: l.pieces⟩, rfl⟩

lemma stops_readChars (n : Nat) (done cs : List Char) (h : cs.length ≤ n) :
    Stops (IsInside cs) (readChars n done cs h) := by
  fun_induction readChars n done cs h with
  | case1 | case3 | case5 => exact stops_error _ _
  | case2 => exact stops_ok (isInside_nil _)
  | case4 done cs p hescape _ _ _ ih =>
    exact ih.mono fun rest hinside => hinside.escape (stops_readEscape cs p hescape)
  | case6 done c cs _ hquote hbackslash hcontrol _ ih =>
    exact ih.mono fun rest hinside => hinside.plain hquote hbackslash hcontrol

lemma stops_readString (cs : List Char) : Stops (IsInside cs) (readString cs) :=
  stops_readChars cs.length [] cs (length_le_self cs)

lemma stops_skipChars (n : Nat) (cs : List Char) (h : cs.length ≤ n) :
    Stops (IsInside cs) (skipChars n cs h) := by
  fun_induction skipChars n cs h with
  | case1 | case3 | case5 => exact stops_error _ _
  | case2 => exact stops_ok (isInside_nil _)
  | case4 cs p hescape _ _ _ ih =>
    exact ih.mono fun rest hinside => hinside.escape (stops_skipEscape cs p hescape)
  | case6 c cs _ hquote hbackslash hcontrol _ ih =>
    exact ih.mono fun rest hinside => hinside.plain hquote hbackslash hcontrol

lemma stops_skipString (cs : List Char) : Stops (IsInside cs) (skipString cs) :=
  stops_skipChars cs.length cs (length_le_self cs)

end Strings

/-! ## Numbers -/

section Numbers

open Figure

lemma leadingDigits_append_afterDigits (cs : List Char) :
    leadingDigits cs ++ (afterDigits cs).1 = cs :=
  List.takeWhile_append_dropWhile

lemma isDigit_of_mem_leadingDigits {c : Char} (hc : c ∈ leadingDigits cs) : c.isDigit = true :=
  List.mem_takeWhile_imp hc

/-- A digit and those behind it. -/
def Digits.leading (c : Char) (hc : c.isDigit = true) (cs : List Char) : Digits where
  chars := c :: leadingDigits cs
  nonempty := List.cons_ne_nil _ _
  digit _ hd := (List.mem_cons.1 hd).elim (fun h => h ▸ hc) isDigit_of_mem_leadingDigits

lemma stops_readDigits (cs : List Char) :
    Stops (fun rest => ∃ ds : Digits, cs = ds.chars ++ rest) (readDigits cs) := by
  rw [readDigits.eq_def]
  split
  · exact stops_error _ _
  · next c cs =>
    split
    · next hc =>
      exact stops_ok ⟨.leading c hc cs, congrArg _ (leadingDigits_append_afterDigits cs).symm⟩
    · exact stops_error _ _

lemma exists_power (x : Numeral) {q : Numeral × Rest cs.length} (h : readExponent x cs = .ok q) :
    ∃ power, cs = powerText power ++ q.2.1 := by
  rw [readExponent.eq_def] at h
  split at h
  · cases h
    exact ⟨none, rfl⟩
  · next c cs =>
    split at h
    · next hc =>
      split at h
      · next d ds =>
        split at h
        · next hd =>
          obtain ⟨p, hdigits, h⟩ := exists_of_bind h
          cases h
          obtain ⟨digits, heq⟩ := stops_readDigits ds p hdigits
          have hsign : ∀ e ∈ some d, e = '+' ∨ e = '-' := by
            rintro _ ⟨⟩
            exact hd
          exact ⟨some ⟨c, some d, digits, hc, hsign⟩, congrArg (c :: d :: ·) heq⟩
        · obtain ⟨p, hdigits, h⟩ := exists_of_bind h
          cases h
          obtain ⟨digits, heq⟩ := stops_readDigits (d :: ds) p hdigits
          exact ⟨some ⟨c, none, digits, hc, nofun⟩, congrArg (c :: ·) heq⟩
      · cases h
    · cases h
      exact ⟨none, rfl⟩

lemma exists_fraction (x : Numeral) {q : Numeral × Rest cs.length} (h : readFraction x cs = .ok q) :
    ∃ fraction power, cs = fractionText fraction ++ (powerText power ++ q.2.1) := by
  rw [readFraction.eq_def] at h
  split at h
  · cases h
    exact ⟨none, none, rfl⟩
  · next c cs =>
    split at h
    · next hc =>
      subst hc
      obtain ⟨p, hdigits, h⟩ := exists_of_bind h
      obtain ⟨q', hpower, h⟩ := exists_of_bind h
      cases h
      obtain ⟨digits, heq⟩ := stops_readDigits cs p hdigits
      obtain ⟨power, hrest⟩ := exists_power _ hpower
      exact ⟨some digits, power, congrArg _ (heq.trans (congrArg _ hrest))⟩
    · obtain ⟨power, heq⟩ := exists_power x h
      exact ⟨none, power, heq⟩

/-- What is left of a number behind its sign. -/
def IsUnsigned (negative : Bool) (cs rest : List Char) : Prop :=
  ∃ x : Figure, x.negative = negative ∧
    cs = x.whole.chars ++ (fractionText x.fraction ++ (powerText x.power ++ rest))

lemma stops_readUnsigned (negative : Bool) (cs : List Char) :
    Stops (IsUnsigned negative cs) (readUnsigned negative cs) := by
  rw [readUnsigned.eq_def]
  split
  · exact stops_error _ _
  · next c cs =>
    split
    · next hc =>
      subst hc
      split
      · refine stops_check fun q hq => stops_ok ?_
        obtain ⟨fraction, power, heq⟩ := exists_fraction _ hq
        have hdigit : ∀ d ∈ ['0'], d.isDigit = true := List.forall_mem_singleton.mpr rfl
        exact ⟨⟨negative, ⟨['0'], by simp, hdigit⟩, fraction, power, .inl rfl⟩, rfl,
          congrArg _ heq⟩
      · exact stops_error _ _
    split
    · next hzero hc =>
      refine stops_check fun q hq => stops_ok ?_
      obtain ⟨fraction, power, heq⟩ := exists_fraction _ hq
      have hlean : ∀ d ∈ (c :: leadingDigits cs).head?, d ≠ '0' := by
        rintro _ ⟨⟩
        exact hzero
      refine ⟨⟨negative, .leading c hc cs, fraction, power, .inr hlean⟩, rfl, ?_⟩
      have hcs : leadingDigits cs ++ cs.dropWhile Char.isDigit = cs :=
        leadingDigits_append_afterDigits cs
      rw [heq] at hcs
      exact congrArg _ hcs.symm
    · exact stops_error _ _

lemma stops_readNumeral (cs : List Char) :
    Stops (fun rest => ∃ x : Figure, cs = x.text ++ rest) (readNumeral cs) := by
  have hunsigned : ∀ negative ds rest, IsUnsigned negative ds rest →
      ∃ x : Figure, (if negative then ['-'] else []) ++ ds = x.text ++ rest := by
    rintro _ _ rest ⟨x, rfl, rfl⟩
    exact ⟨x, by rw [Figure.text, List.append_assoc, List.append_assoc, List.append_assoc]⟩
  rw [readNumeral.eq_def]
  split
  · exact stops_error _ _
  · next c cs =>
    split
    · next hc =>
      subst hc
      exact (stops_readUnsigned true cs).map (fun _ => rfl) fun rest => hunsigned true cs rest
    · exact (stops_readUnsigned false (c :: cs)).mono fun rest => hunsigned false (c :: cs) rest

lemma stops_readNumber (cs : List Char) :
    Stops (fun rest => ∃ x : Figure, cs = x.text ++ rest) (readNumber cs) :=
  (stops_readNumeral cs).bind fun _ hp => stops_check fun _ _ => stops_ok hp

lemma stops_skipNumber (cs : List Char) :
    Stops (fun rest => ∃ x : Figure, cs = x.text ++ rest) (skipNumber cs) := by
  rw [skipNumber]
  split
  · next p hp => exact stops_ok (stops_readNumeral cs p hp)
  · exact stops_error _ _

end Numbers

end Json
end SchemaCut
