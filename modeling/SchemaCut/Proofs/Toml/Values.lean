import Mathlib.Data.Nat.Init
import Mathlib.Tactic.Lemma
import SchemaCut.Proofs.Reading.Numbers
import SchemaCut.Proofs.Toml.Strings
import SchemaCut.Toml.Reader

/-!
# Values of settings files as they are written

A natural number is written in decimal digits, and a line break follows: it is read as an integer,
and not as a moment, because no moment has a line break behind its first digits.  An array of texts
is written in brackets, with a line for each text if there are several.

* `gives_readValue_digits`, `gives_readValue_text`, `gives_readValue_array` : reading a written
  value gives it back.
-/

namespace SchemaCut
namespace Toml

variable {rest : List Char}

/-! ## Digits -/

lemma digitIn?_of_isDigit {c : Char} (hc : c.isDigit = true) :
    digitIn? 10 c = some (c.toNat - '0'.toNat) := by
  simp only [Char.isDigit, Bool.and_eq_true, decide_eq_true_eq] at hc
  have hdigit : '0' ≤ c ∧ c ≤ '9' := hc
  have hhex : Json.hexDigit? c = some (c.toNat - '0'.toNat) := by
    unfold Json.hexDigit?
    rw [if_pos hdigit]
  have hsmall : c.toNat ≤ '9'.toNat := by
    have hlast : c.val.toNat ≤ '9'.val.toNat := UInt32.le_iff_toNat_le.1 hdigit.2
    exact hlast
  have hnine : '9'.toNat = 57 := rfl
  have hzero : '0'.toNat = 48 := rfl
  have hlt : c.toNat - '0'.toNat < 10 := by omega
  rw [digitIn?, hhex, Option.filter_some, if_pos (by simpa using hlt)]

lemma readMoreDigits_cons {c : Char} (hc : c ≠ '_') (base count value : Nat) (cs : List Char) :
    readMoreDigits base count value (c :: cs) =
      match digitIn? base c with
      | some v => do
        let (n, m, r) ← readMoreDigits base (count + 1) (base * value + v) cs
        return (n, m, r.behind)
      | none => some (count, value, Rest.all (c :: cs)) :=
  readMoreDigits.eq_4 base count value c cs (fun _ _ h _ => hc h) fun h _ => hc h

lemma ne_underscore_of_isDigit {c : Char} (hc : c.isDigit = true) : c ≠ '_' := by
  rintro rfl
  exact absurd hc (by decide)

/-- Digits in front of a line break are read to the last one. -/
lemma readMoreDigits_digits (rest ds : List Char) (hds : ∀ d ∈ ds, d.isDigit = true)
    (count value : Nat) :
    ∃ k h, readMoreDigits 10 count value (ds ++ '\n' :: rest) =
      some (k, Nat.ofDigitChars 10 ds value, ⟨'\n' :: rest, h⟩) := by
  induction ds generalizing count value with
  | nil => exact ⟨count, Nat.le_refl _, rfl⟩
  | cons d ds ih =>
    have hd := hds d List.mem_cons_self
    obtain ⟨k, h, hmore⟩ := ih (fun e he => hds e (List.mem_cons_of_mem d he)) (count + 1)
      (10 * value + (d.toNat - '0'.toNat))
    refine ⟨k, Nat.le_succ_of_le h, ?_⟩
    rw [Nat.ofDigitChars_cons]
    show readMoreDigits 10 count value (d :: (ds ++ '\n' :: rest)) = some (k, _, ⟨'\n' :: rest, _⟩)
    rw [readMoreDigits_cons (ne_underscore_of_isDigit hd), digitIn?_of_isDigit hd]
    simp only [hmore, bind, Option.bind]
    rfl

/-! ## Numbers -/

section Numbers

variable {n : Nat} {c : Char} {ds : List Char}

lemma isDigit_of_toDigits (h : Nat.toDigits 10 n = c :: ds) :
    c.isDigit = true ∧ ∀ d ∈ ds, d.isDigit = true := by
  have hdigit : ∀ d ∈ c :: ds, d.isDigit = true := fun d hd =>
    Nat.isDigit_of_mem_toDigits (by decide) (by decide) (h ▸ hd)
  exact ⟨hdigit c List.mem_cons_self, fun d hd => hdigit d (List.mem_cons_of_mem c hd)⟩

/-- Only the number zero is written with a zero in front. -/
lemma eq_zero_of_toDigits (h : Nat.toDigits 10 n = '0' :: ds) : n = 0 ∧ ds = [] := by
  rcases Nat.eq_zero_or_pos n with rfl | hn
  · rw [Nat.toDigits_zero] at h
    exact ⟨rfl, (List.cons.inj h).2.symm⟩
  · exact absurd rfl (Json.toDigits_head_ne_zero hn '0' (by rw [h]; rfl))

lemma readWhole_toDigits (rest : List Char) (h : Nat.toDigits 10 n = c :: ds) :
    ∃ hle, readWhole c (ds ++ '\n' :: rest) = some (n, ⟨'\n' :: rest, hle⟩) := by
  by_cases hzero : c = '0'
  · subst hzero
    obtain ⟨rfl, rfl⟩ := eq_zero_of_toDigits h
    exact ⟨Nat.le_refl _, rfl⟩
  · obtain ⟨hc, hds⟩ := isDigit_of_toDigits h
    have hvalue : Nat.ofDigitChars 10 ds (10 * 0 + (c.toNat - '0'.toNat)) = n := by
      rw [← Nat.ofDigitChars_cons, ← h, Nat.ofDigitChars_ten_toDigits]
    obtain ⟨k, hle, hmore⟩ := readMoreDigits_digits rest ds hds 1
      (10 * 0 + (c.toNat - '0'.toNat))
    refine ⟨hle, ?_⟩
    rw [readWhole, if_neg hzero, readDigits, digitIn?_of_isDigit hc]
    simp only [bind, Option.bind, hmore, hvalue]
    rfl

/-- Without a point, an exponent or the end of a number stands behind its whole part. -/
lemma gives_readDecimal_of_whole {cs tail : List Char} {whole : Nat} {v : Toml}
    {hle : tail.length ≤ cs.length} (hwhole : readWhole c cs = some (whole, ⟨tail, hle⟩))
    (hpoint : ∀ es, tail ≠ '.' :: es)
    (hexponent : readExponent tail = some (none, Rest.all tail))
    (hinteger : integer? (whole : Int) = some v) : Gives (readDecimal false (c :: cs)) v tail := by
  refine ⟨Nat.lt_succ_of_le hle, ?_⟩
  rw [readDecimal, hwhole, Option.bind_eq_bind, Option.bind_some]
  split
  next heq =>
    cases heq
    split
    · exact absurd rfl (hpoint _)
    · rw [hexponent, Option.bind_eq_bind, Option.bind_some]
      dsimp only
      rw [if_neg (by decide), hinteger]
      rfl

lemma integer?_of_lt (hn : n < Nat.pow 2 63) : integer? (n : Int) = some (.integer n) := by
  have hlow : -(Nat.pow 2 63 : Int) ≤ n :=
    Int.le_trans (Int.neg_nonpos_of_nonneg (Int.natCast_nonneg _)) (Int.natCast_nonneg n)
  have hhigh : (n : Int) < Nat.pow 2 63 := Int.ofNat_lt.2 hn
  unfold integer?
  rw [if_pos ⟨hlow, hhigh⟩]

lemma gives_readDecimal (rest : List Char) (h : Nat.toDigits 10 n = c :: ds)
    (hn : n < Nat.pow 2 63) :
    Gives (readDecimal false (c :: (ds ++ '\n' :: rest))) (.integer n) ('\n' :: rest) := by
  obtain ⟨hle, hwhole⟩ := readWhole_toDigits rest h
  have hpoint : ∀ es, '\n' :: rest ≠ '.' :: es := fun _ heq =>
    absurd (List.cons.inj heq).1 (by decide)
  exact gives_readDecimal_of_whole hwhole hpoint rfl (integer?_of_lt hn)

/-- A text that starts with a digit other than zero is read as a decimal number. -/
lemma readNumber_of_digit {cs : List Char} (h : ∀ d ∈ cs.head?, d.isDigit = true ∧ d ≠ '0') :
    readNumber cs = readDecimal false cs := by
  unfold readNumber
  split
  · exact absurd rfl (h '0' rfl).2
  · exact absurd (h '+' rfl).1 (by decide)
  · exact absurd (h '-' rfl).1 (by decide)
  · exact absurd (h 'i' rfl).1 (by decide)
  · exact absurd (h 'n' rfl).1 (by decide)
  · rfl

lemma gives_readNumber (h : Nat.toDigits 10 n = c :: ds) (hn : n < Nat.pow 2 63) :
    Gives (readNumber (c :: (ds ++ '\n' :: rest))) (.integer n) ('\n' :: rest) := by
  have hdecimal := gives_readDecimal rest h hn
  by_cases hzero : c = '0'
  · subst hzero
    obtain ⟨-, rfl⟩ := eq_zero_of_toDigits h
    exact hdecimal
  · have hhead : ∀ d ∈ (c :: (ds ++ '\n' :: rest)).head?, d.isDigit = true ∧ d ≠ '0' := by
      intro d hd
      obtain rfl : c = d := by simpa using hd
      exact ⟨(isDigit_of_toDigits h).1, hzero⟩
    rw [readNumber_of_digit hhead]
    exact hdecimal

/-! ### Numbers are no moments -/

/-- A line break is the first character behind digits in front of it. -/
lemma eq_break_of_digits {ds pre tail : List Char} (hds : ∀ d ∈ ds, d.isDigit = true)
    (hpre : ∀ d ∈ pre, d.isDigit = true) {e : Char} (he : e.isDigit = false)
    (h : ds ++ '\n' :: rest = pre ++ e :: tail) : e = '\n' := by
  have hleft : (ds ++ '\n' :: rest).dropWhile Char.isDigit = '\n' :: rest := by
    rw [List.dropWhile_append_of_pos hds]
    rfl
  have hright : (pre ++ e :: tail).dropWhile Char.isDigit = e :: tail := by
    rw [List.dropWhile_append_of_pos hpre, List.dropWhile_cons_of_neg (by simp [he])]
  rw [h, hright] at hleft
  exact (List.cons.inj hleft).1

lemma readChar_eq_none {c : Char} {cs : List Char} :
    readChar c cs = none ↔ ∀ es, cs ≠ c :: es := by
  cases cs with
  | nil => simp [readChar]
  | cons d ds =>
    by_cases hd : d = c
    · simp [readChar, hd]
    · simp [readChar, hd]

/-- A date has a dash behind four digits. -/
lemma readDate_eq_none {cs : List Char}
    (h : ∀ pre tail, (∀ d ∈ pre, d.isDigit = true) → cs ≠ pre ++ '-' :: tail) :
    readDate cs = none := by
  unfold readDate
  split
  · next a b c d cs =>
    by_cases hdigits : [a, b, c, d].all Char.isDigit = true
    · have hdash : readChar '-' cs = none := by
        cases cs with
        | nil => rfl
        | cons e tail =>
          refine if_neg ?_
          rintro rfl
          exact h [a, b, c, d] tail (List.all_eq_true.1 hdigits) rfl
      simp only [hdigits, hdash]
      rfl
    · have hdigits : [a, b, c, d].all Char.isDigit = false := by simpa using hdigits
      simp only [hdigits]
      rfl
  · rfl

lemma exists_of_readTwo {low high : Nat} {cs : List Char} {p : Parsed (List Char) cs.length}
    (h : readTwo low high cs = some p) :
    ∃ a b tail, cs = a :: b :: tail ∧ (∀ d ∈ [a, b], d.isDigit = true) ∧ p.rest = tail := by
  unfold readTwo at h
  split at h
  · next a b tail =>
    dsimp only at h
    split_ifs at h with hdigits
    cases h
    exact ⟨a, b, tail, rfl, by simpa using ⟨hdigits.1, hdigits.2.1⟩, rfl⟩
  · cases h

/-- A time of day has a colon behind two digits. -/
lemma readTime_eq_none {cs : List Char} (lastHour : Nat)
    (h : ∀ pre tail, (∀ d ∈ pre, d.isDigit = true) → cs ≠ pre ++ ':' :: tail) :
    readTime lastHour cs = none := by
  have hclock : readClock lastHour cs = none := by
    unfold readClock
    cases htwo : readTwo 0 lastHour cs with
    | none => rfl
    | some hour =>
      obtain ⟨a, b, tail, rfl, hdigits, hrest⟩ := exists_of_readTwo htwo
      have hcolon : readChar ':' hour.rest = none := by
        rw [readChar_eq_none]
        rintro es heq
        exact h [a, b] es hdigits (by rw [← hrest, heq]; rfl)
      rw [Option.bind_eq_bind, Option.bind_some, hcolon]
      rfl
  unfold readTime
  rw [hclock]
  rfl

/-- What starts with digits in front of a line break is no moment. -/
lemma readMoment_digits (hds : ∀ d ∈ ds, d.isDigit = true) :
    readMoment (ds ++ '\n' :: rest) = none := by
  have hdash : ∀ pre tail, (∀ d ∈ pre, d.isDigit = true) →
      ds ++ '\n' :: rest ≠ pre ++ '-' :: tail := by
    intro pre tail hpre heq
    exact absurd (eq_break_of_digits hds hpre (by decide) heq) (by decide)
  have hcolon : ∀ pre tail, (∀ d ∈ pre, d.isDigit = true) →
      ds ++ '\n' :: rest ≠ pre ++ ':' :: tail := by
    intro pre tail hpre heq
    exact absurd (eq_break_of_digits hds hpre (by decide) heq) (by decide)
  unfold readMoment
  rw [readDate_eq_none hdash, readTime_eq_none 23 hcolon]
  rfl

/-- The digits of a number are read as an integer. -/
theorem gives_readValue_digits (room : Nat) (hn : n < Nat.pow 2 63) :
    Gives (readValue room (Nat.toDigits 10 n ++ '\n' :: rest)) (.integer n) ('\n' :: rest) := by
  cases h : Nat.toDigits 10 n with
  | nil => exact absurd h Nat.toDigits_ne_nil
  | cons c ds =>
    obtain ⟨hc, hds⟩ := isDigit_of_toDigits h
    have hne : ∀ e, e.isDigit = false → c ≠ e := by
      rintro e he rfl
      rw [hc] at he
      cases he
    have hmoment : readMoment (c :: (ds ++ '\n' :: rest)) = none :=
      @readMoment_digits rest (c :: ds) (List.forall_mem_cons.2 ⟨hc, hds⟩)
    show Gives (readValue room (c :: (ds ++ '\n' :: rest))) _ _
    rw [readValue.eq_def]
    dsimp only
    rw [if_neg (hne '[' rfl), if_neg (hne '\x7b' rfl),
      if_neg (not_or.2 ⟨hne '"' rfl, hne '\'' rfl⟩), if_neg (not_or.2 ⟨hne 't' rfl, hne 'f' rfl⟩),
      hmoment]
    exact gives_readNumber h hn

end Numbers

/-! ## Texts and arrays -/

/-- A text in front of a character that is no quote. -/
theorem gives_readValue_text (room : Nat) (s : String) (hbasic : rest.head? ≠ some '"')
    (hliteral : rest.head? ≠ some '\'') :
    Gives (readValue room (stringText s ++ rest)) (.text s) rest := by
  obtain ⟨q, cs, htext, hq⟩ := exists_stringText_eq_cons s
  have hread := gives_readString s hbasic hliteral
  rw [htext] at hread ⊢
  have hne : ∀ e, e ≠ '"' → e ≠ '\'' → q ≠ e := by
    rintro e hdouble hsingle rfl
    exact hq.elim hdouble hsingle
  show Gives (readValue room (q :: (cs ++ rest))) _ _
  rw [readValue.eq_def]
  dsimp only
  rw [if_neg (hne '[' (by decide) (by decide)),
    if_neg (hne '\x7b' (by decide) (by decide)), if_pos hq]
  exact hread.map (fun _ => rfl) (fun _ => rfl)

/-- White space between the lines of a settings file. -/
def isBlank (c : Char) : Bool := isGap c || c = '\n'

/-- The first character that is no white space, and starts no comment. -/
def Solid (c : Char) : Prop := isBlank c = false ∧ c ≠ '\r' ∧ c ≠ '#'

lemma skipLines_solid {c : Char} (hc : Solid c) (cs : List Char) :
    skipLines (c :: cs) = Rest.all (c :: cs) := by
  rw [skipLines, if_neg (by simpa [isBlank] using hc.1), if_neg (fun h => hc.2.1 h.1),
    if_neg hc.2.2]

/-- White space in front of a line is passed over. -/
lemma skipLines_append {blank : List Char} (hblank : ∀ c ∈ blank, isBlank c = true) {c : Char}
    (hc : Solid c) (cs : List Char) :
    ∃ h, skipLines (blank ++ c :: cs) = ⟨c :: cs, h⟩ := by
  induction blank with
  | nil => exact ⟨Nat.le_refl _, skipLines_solid hc cs⟩
  | cons b blank ih =>
    obtain ⟨h, hskip⟩ := ih fun d hd => hblank d (List.mem_cons_of_mem b hd)
    refine ⟨Nat.le_succ_of_le h, ?_⟩
    show skipLines (b :: (blank ++ c :: cs)) = _
    have hb : (isGap b || decide (b = '\n')) = true := hblank b List.mem_cons_self
    rw [skipLines, if_pos hb, hskip]
    rfl

section Elements

variable {read : Reader Toml} {n : Nat} {done : List Toml} {blank text tail : List Char} {v : Toml}
  {vs : List Toml}

/-- The bracket behind the last element ends an array, also behind a comma. -/
lemma gives_readElements_close (hblank : ∀ c ∈ blank, isBlank c = true)
    (h : (blank ++ ']' :: rest).length < n) :
    Gives (readElements read n done (blank ++ ']' :: rest) h) done.reverse rest := by
  have hclose : Solid ']' := ⟨rfl, by decide, by decide⟩
  obtain ⟨hle, hskip⟩ := skipLines_append hblank hclose rest
  refine ⟨?_, ?_⟩
  · simp only [List.length_append, List.length_cons] at h
    omega
  · rw [readElements, hskip]
    dsimp only
    rw [if_pos rfl]

/-- A character that an element may start with. -/
structure Starts (c : Char) : Prop where
  solid : Solid c
  noClose : c ≠ ']'

/-- One turn of the loop over the elements of an array, in front of a comma. -/
lemma gives_readElements_comma {c : Char} {cs : List Char} (htext : text = c :: cs)
    (hblank : ∀ c ∈ blank, isBlank c = true) (hc : Starts c)
    (hread : Gives (read (text ++ ',' :: tail)) v (',' :: tail))
    (h : (blank ++ (text ++ ',' :: tail)).length < n)
    (hgo : ∀ h', Gives (readElements read n (v :: done) tail h') vs rest) :
    Gives (readElements read n done (blank ++ (text ++ ',' :: tail)) h) vs rest := by
  subst htext
  obtain ⟨hle, hskip⟩ := skipLines_append hblank hc.solid (cs ++ ',' :: tail)
  obtain ⟨hshort, hvalue⟩ : Gives (read (c :: (cs ++ ',' :: tail))) v (',' :: tail) := hread
  have hcomma : skipLines (',' :: tail) = Rest.all (',' :: tail) :=
    skipLines_solid ⟨rfl, by decide, by decide⟩ tail
  show Gives (readElements read n done (blank ++ c :: (cs ++ ',' :: tail)) h) vs rest
  rw [readElements, hskip]
  dsimp only
  rw [if_neg hc.noClose, hvalue]
  dsimp only
  rw [hcomma]
  dsimp only [Rest.all]
  rw [if_neg (by decide), if_pos rfl]
  exact hgo _

/-- The last element of an array, in front of the bracket. -/
lemma gives_readElements_last {c : Char} {cs : List Char} (htext : text = c :: cs) (hc : Starts c)
    (hread : Gives (read (text ++ ']' :: rest)) v (']' :: rest))
    (h : (text ++ ']' :: rest).length < n) :
    Gives (readElements read n done (text ++ ']' :: rest) h) (v :: done).reverse rest := by
  subst htext
  have hskip : skipLines (c :: (cs ++ ']' :: rest)) = Rest.all (c :: (cs ++ ']' :: rest)) :=
    skipLines_solid hc.solid _
  obtain ⟨hshort, hvalue⟩ : Gives (read (c :: (cs ++ ']' :: rest))) v (']' :: rest) := hread
  have hclose : skipLines (']' :: rest) = Rest.all (']' :: rest) :=
    skipLines_solid ⟨rfl, by decide, by decide⟩ rest
  refine ⟨?_, ?_⟩
  · simp only [List.cons_append, List.length_cons, List.length_append] at h
    omega
  · show readElements read n done (c :: (cs ++ ']' :: rest)) h = _
    rw [readElements, hskip]
    dsimp only [Rest.all]
    rw [if_neg hc.noClose, hvalue]
    dsimp only
    rw [hclose]
    dsimp only [Rest.all]
    rw [if_pos rfl]

end Elements

/-- A string may start an element. -/
lemma exists_stringText_starts (s : String) : ∃ c cs, stringText s = c :: cs ∧ Starts c := by
  obtain ⟨q, cs, htext, rfl | rfl⟩ := exists_stringText_eq_cons s
  · exact ⟨'"', cs, htext, ⟨rfl, by decide, by decide⟩, by decide⟩
  · exact ⟨'\'', cs, htext, ⟨rfl, by decide, by decide⟩, by decide⟩

/-- The lines of an array, one for each text. -/
def linesOf (ss : List String) : List Char :=
  ss.flatMap fun s => "    ".toList ++ stringText s ++ [',', '\n']

lemma gives_readElements_lines (room : Nat) (ss : List String) {n : Nat} {done : List Toml}
    {cs : List Char} (hcs : cs = '\n' :: (linesOf ss ++ ']' :: rest)) (h : cs.length < n) :
    Gives (readElements (readValue room) n done cs h) (done.reverse ++ ss.map .text) rest := by
  induction ss generalizing done cs with
  | nil =>
    have hblank : ∀ c ∈ ['\n'], isBlank c = true := List.all_eq_true.1 rfl
    rw [List.map_nil, List.append_nil]
    subst hcs
    exact gives_readElements_close hblank h
  | cons s ss ih =>
    obtain ⟨c, cs', htext, hc⟩ := exists_stringText_starts s
    have hblank : ∀ c ∈ "\n    ".toList, isBlank c = true := List.all_eq_true.1 (by decide)
    have hline : cs =
        "\n    ".toList ++ (stringText s ++ ',' :: '\n' :: (linesOf ss ++ ']' :: rest)) := by
      rw [hcs]
      simp [linesOf]
    have hdone : done.reverse ++ (s :: ss).map Toml.text =
        (Toml.text s :: done).reverse ++ ss.map Toml.text := by simp
    rw [hdone]
    subst hline
    exact gives_readElements_comma htext hblank hc
      (gives_readValue_text room s (by simp) (by simp)) h fun h' => ih rfl h'

lemma gives_readValue_bracket {room : Nat} {cs : List Char} {vs : List Toml}
    (hgo : ∀ h, Gives (readElements (readValue room) ('[' :: cs).length [] cs h) vs rest) :
    Gives (readValue (room + 1) ('[' :: cs)) (.array vs) rest := by
  rw [readValue.eq_def]
  exact (hgo _).map (fun _ => rfl) (fun _ => rfl)

/-- An array of texts is read back. -/
theorem gives_readValue_array (room : Nat) (ss : List String) :
    Gives (readValue (room + 1) (arrayText ss ++ rest)) (.array (ss.map .text)) rest := by
  match ss with
  | [] =>
    have hblank : ∀ c ∈ ([] : List Char), isBlank c = true := by simp
    exact gives_readValue_bracket fun h => gives_readElements_close hblank h
  | [s] =>
    obtain ⟨c, cs, htext, hc⟩ := exists_stringText_starts s
    have harray : arrayText [s] ++ rest = '[' :: (stringText s ++ ']' :: rest) := by
      simp [arrayText]
    rw [harray]
    exact gives_readValue_bracket fun h =>
      gives_readElements_last htext hc (gives_readValue_text room s (by simp) (by simp)) h
  | s :: t :: ss =>
    have harray : arrayText (s :: t :: ss) ++ rest =
        '[' :: '\n' :: (linesOf (s :: t :: ss) ++ ']' :: rest) := by
      simp [arrayText, linesOf]
    rw [harray]
    exact gives_readValue_bracket fun h => gives_readElements_lines room (s :: t :: ss) rfl h

end Toml
end SchemaCut
