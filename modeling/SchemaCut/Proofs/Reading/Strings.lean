import SchemaCut.Json.Printer
import SchemaCut.Json.StringReader
import SchemaCut.Proofs.Reading.Takes

/-!
# Strings as they are written

A string is written as a list of pieces between quotes: characters that stand for themselves,
escapes by a letter, and escapes by four hexadecimal digits.  Every such list is a string of a
document, but not every one has a value, because an escape may stand for one half of a surrogate
pair only.

* `takes_readString` : reading a written string gives its value.
* `takes_skipString` : passing over a string needs no value.
* `exists_literal` : what is written for a value is a string with that value.
-/

namespace SchemaCut
namespace Json

/-- A character or an escape, as it stands in a string. -/
inductive Piece where
  | plain (c : Char) (h : c ≠ '"' ∧ c ≠ '\\' ∧ 0x20 ≤ c.toNat)
  | letter (c value : Char) (h : letterEscape? c = some value)
  | code (a b c d : Char) (value : Nat) (h : hexValue? a b c d = some value)

namespace Piece

def text : Piece → List Char
  | plain c _ => [c]
  | letter c _ _ => ['\\', c]
  | code a b c d _ _ => ['\\', 'u', a, b, c, d]

end Piece

/-- A string as it is written. -/
structure Literal where
  pieces : List Piece

namespace Literal

/-- The text between the quotes. -/
def innerText : List Piece → List Char
  | [] => []
  | p :: ps => p.text ++ innerText ps

/-- The characters that pieces stand for.  A high surrogate has to be followed by a low one, and the
two are one character. -/
def chars? : List Piece → Option (List Char)
  | [] => some []
  | .plain c _ :: ps => (chars? ps).map (c :: ·)
  | .letter _ value _ :: ps => (chars? ps).map (value :: ·)
  | .code _ _ _ _ value _ :: ps =>
    if 0xDC00 ≤ value ∧ value ≤ 0xDFFF then none
    else if 0xD800 ≤ value ∧ value ≤ 0xDBFF then
      match ps with
      | .code _ _ _ _ low _ :: ps =>
        if 0xDC00 ≤ low ∧ low ≤ 0xDFFF then
          (chars? ps).map
            (Char.ofNat ((value - 0xD800) * 0x400 + (low - 0xDC00) + 0x10000) :: ·)
        else none
      | _ => none
    else (chars? ps).map (Char.ofNat value :: ·)

/-- The text with its quotes. -/
def text (l : Literal) : List Char := '"' :: innerText l.pieces ++ ['"']

/-- The string that is meant. -/
def value? (l : Literal) : Option String := (chars? l.pieces).map String.ofList

end Literal

open Literal

/-! ## Reading -/

lemma readHex_code {a b c d : Char} {value : Nat} (h : hexValue? a b c d = some value)
    (rest : List Char) : ∃ hlt, readHex (a :: b :: c :: d :: rest) = .ok ⟨value, rest, hlt⟩ := by
  refine ⟨by simp; omega, ?_⟩
  rw [readHex, h]
  rfl

lemma readEscape_letter {c value : Char} (h : letterEscape? c = some value) (rest : List Char) :
    ∃ hlt, readEscape (c :: rest) = .ok ⟨value, rest, hlt⟩ := by
  refine ⟨by simp, ?_⟩
  rw [readEscape, h]
  rfl

lemma letter_ne_u {c value : Char} (h : letterEscape? c = some value) : c ≠ 'u' := by
  rintro rfl
  cases h

/-- A high surrogate takes the low one that is written behind it. -/
lemma takes_readLow {a b c d : Char} {low : Nat} (h : hexValue? a b c d = some low) (high : Nat)
    (rest : List Char) :
    Takes (readLow high ('\\' :: 'u' :: a :: b :: c :: d :: rest)) rest
      (if 0xDC00 ≤ low ∧ low ≤ 0xDFFF then
        some (Char.ofNat ((high - 0xD800) * 0x400 + (low - 0xDC00) + 0x10000)) else none) := by
  obtain ⟨hlt, hhex⟩ := readHex_code h rest
  simp only [readLow, and_self, if_true, hhex, bind, Except.bind]
  by_cases hlow : 0xDC00 ≤ low ∧ low ≤ 0xDFFF
  · simp only [hlow, and_self, if_true, pure, Except.pure, Parsed.map, Parsed.behind, Parsed.widen]
    exact takes_ok _ _
  · rw [if_neg hlow, if_neg hlow]
    exact takes_error _ _

/-- A high surrogate takes nothing else. -/
lemma readLow_other (high : Nat) {cs : List Char} (h : ∀ rest, cs ≠ '\\' :: 'u' :: rest) :
    ∃ f, readLow high cs = .error f := by
  match cs with
  | [] => exact ⟨_, rfl⟩
  | [c] =>
    rw [readLow]
    split
    · exact ⟨_, rfl⟩
    · exact ⟨_, rfl⟩
  | c :: d :: cs =>
    rw [readLow, if_neg]
    · exact ⟨_, rfl⟩
    · rintro ⟨rfl, rfl⟩
      exact h cs rfl

/-- What a code that is no half of a surrogate pair stands for. -/
lemma readEscape_code {a b c d : Char} {value : Nat} (h : hexValue? a b c d = some value)
    (hlow : ¬ (0xDC00 ≤ value ∧ value ≤ 0xDFFF)) (hhigh : ¬ (0xD800 ≤ value ∧ value ≤ 0xDBFF))
    (rest : List Char) :
    ∃ hlt, readEscape ('u' :: a :: b :: c :: d :: rest) = .ok ⟨Char.ofNat value, rest, hlt⟩ := by
  obtain ⟨hlt, hhex⟩ := readHex_code h rest
  refine ⟨by simp; omega, ?_⟩
  have hletter : letterEscape? 'u' = none := rfl
  simp only [readEscape, hletter, if_true, hhex, bind, Except.bind, if_neg hlow, if_neg hhigh]
  rfl

lemma readEscape_lone {a b c d : Char} {value : Nat} (h : hexValue? a b c d = some value)
    (hlow : 0xDC00 ≤ value ∧ value ≤ 0xDFFF) (rest : List Char) :
    ∃ f, readEscape ('u' :: a :: b :: c :: d :: rest) = .error f := by
  obtain ⟨hlt, hhex⟩ := readHex_code h rest
  refine ⟨.loneSurrogate, ?_⟩
  have hletter : letterEscape? 'u' = none := rfl
  simp only [readEscape, hletter, if_true, hhex, bind, Except.bind, if_pos hlow]

/-- A high surrogate is what is read behind it makes of it. -/
lemma takes_readEscape_high {a b c d : Char} {value : Nat} (h : hexValue? a b c d = some value)
    (hlow : ¬ (0xDC00 ≤ value ∧ value ≤ 0xDFFF)) (hhigh : 0xD800 ≤ value ∧ value ≤ 0xDBFF)
    {cs rest : List Char} {a? : Option Char} (hnext : Takes (readLow value cs) rest a?) :
    Takes (readEscape ('u' :: a :: b :: c :: d :: cs)) rest a? := by
  obtain ⟨hlt, hhex⟩ := readHex_code h cs
  have hletter : letterEscape? 'u' = none := rfl
  simp only [readEscape, hletter, if_true, hhex, bind, Except.bind, if_neg hlow, if_pos hhigh]
  cases a? with
  | none =>
    obtain ⟨f, hf⟩ := hnext
    exact ⟨f, by rw [hf]⟩
  | some e =>
    obtain ⟨hlt, he⟩ := hnext
    exact ⟨by simp; omega, by rw [he]; rfl⟩

/-! One turn of the loop of `readChars` for each way in which a string may go on. -/

section Turns

variable {n : Nat} {done cs rest : List Char} {s? : Option String}

lemma takes_readChars_plain {c : Char} (hc : c ≠ '"' ∧ c ≠ '\\' ∧ 0x20 ≤ c.toNat)
    (h : (c :: cs).length ≤ n)
    (hgo : ∀ h', Takes (readChars n (c :: done) cs h') rest s?) :
    Takes (readChars n done (c :: cs) h) rest s? := by
  rw [readChars, if_neg hc.1, if_neg hc.2.1, if_neg (by omega)]
  exact hgo _

lemma takes_readChars_escape {e : Char} {tail : List Char} (h : ('\\' :: cs).length ≤ n)
    (hescape : Takes (readEscape cs) tail (some e))
    (hgo : ∀ h', Takes (readChars n (e :: done) tail h') rest s?) :
    Takes (readChars n done ('\\' :: cs) h) rest s? := by
  obtain ⟨hlt, hescape⟩ := hescape
  rw [readChars, if_neg (by decide), if_pos rfl, hescape]
  exact hgo _

lemma takes_readChars_fault (h : ('\\' :: cs).length ≤ n)
    (hescape : ∃ f, readEscape cs = .error f) :
    Takes (readChars n done ('\\' :: cs) h) rest none := by
  obtain ⟨f, hescape⟩ := hescape
  rw [readChars, if_neg (by decide), if_pos rfl, hescape]
  exact takes_error f rest

end Turns

lemma innerText_ne_code {ps : List Piece}
    (h : ∀ a b c d low hlow ps', ps ≠ .code a b c d low hlow :: ps') (rest tail : List Char) :
    innerText ps ++ '"' :: rest ≠ '\\' :: 'u' :: tail := by
  intro heq
  match ps, h with
  | [], _ => simp [innerText] at heq
  | .plain c hc :: ps, _ =>
    simp only [innerText, Piece.text, List.cons_append, List.cons.injEq] at heq
    exact hc.2.1 heq.1
  | .letter c value hc :: ps, _ =>
    simp only [innerText, Piece.text, List.cons_append, List.cons.injEq] at heq
    exact letter_ne_u hc heq.2.1
  | .code a b c d low hlow :: ps, h => exact h a b c d low hlow ps rfl

/-- Characters behind those that have been read already, the last of which comes first. -/
def joined (done chars : List Char) : String := String.ofList (done.reverse ++ chars)

lemma map_joined_cons (done : List Char) (c : Char) (chars? : Option (List Char)) :
    (chars?.map (c :: ·)).map (joined done) = chars?.map (joined (c :: done)) := by
  rw [Option.map_map]
  congr 1
  funext chars
  simp [joined]

lemma takes_readChars (ps : List Piece) {n : Nat} {done cs rest : List Char}
    (hcs : cs = innerText ps ++ '"' :: rest) (h : cs.length ≤ n) :
    Takes (readChars n done cs h) rest ((chars? ps).map (joined done)) := by
  fun_induction chars? ps generalizing done cs with
  | case1 =>
    obtain rfl : cs = '"' :: rest := hcs
    rw [readChars, if_pos rfl]
    simpa [joined] using takes_ok (String.ofList done.reverse) h
  | case2 c hc ps ih =>
    obtain rfl : cs = c :: (innerText ps ++ '"' :: rest) := hcs
    refine takes_readChars_plain hc h fun h' => ?_
    rw [map_joined_cons]
    exact ih rfl h'
  | case3 c value hc ps ih =>
    obtain rfl : cs = '\\' :: c :: (innerText ps ++ '"' :: rest) := hcs
    refine takes_readChars_escape h (readEscape_letter hc _) fun h' => ?_
    rw [map_joined_cons]
    exact ih rfl h'
  | case4 a b c d value hc ps hlow =>
    obtain rfl : cs = '\\' :: 'u' :: a :: b :: c :: d :: (innerText ps ++ '"' :: rest) := hcs
    exact takes_readChars_fault h (readEscape_lone hc hlow _)
  | case5 a b c d value hc hlow hhigh a' b' c' d' low hc' ps hpair ih =>
    obtain rfl : cs = '\\' :: 'u' :: a :: b :: c :: d ::
        '\\' :: 'u' :: a' :: b' :: c' :: d' :: (innerText ps ++ '"' :: rest) := hcs
    have hnext := takes_readLow hc' value (innerText ps ++ '"' :: rest)
    rw [if_pos hpair] at hnext
    refine takes_readChars_escape h (takes_readEscape_high hc hlow hhigh hnext) fun h' => ?_
    rw [map_joined_cons]
    exact ih rfl h'
  | case6 a b c d value hc hlow hhigh a' b' c' d' low hc' ps hpair =>
    obtain rfl : cs = '\\' :: 'u' :: a :: b :: c :: d ::
        '\\' :: 'u' :: a' :: b' :: c' :: d' :: (innerText ps ++ '"' :: rest) := hcs
    have hnext := takes_readLow hc' value (innerText ps ++ '"' :: rest)
    rw [if_neg hpair] at hnext
    exact takes_readChars_fault h (takes_readEscape_high hc hlow hhigh hnext)
  | case7 a b c d value hc ps hlow hhigh hother =>
    obtain rfl : cs = '\\' :: 'u' :: a :: b :: c :: d :: (innerText ps ++ '"' :: rest) := hcs
    have hnext : Takes (readLow value (innerText ps ++ '"' :: rest)) rest none :=
      readLow_other value (innerText_ne_code hother rest)
    exact takes_readChars_fault h (takes_readEscape_high hc hlow hhigh hnext)
  | case8 a b c d value hc ps hlow hhigh ih =>
    obtain rfl : cs = '\\' :: 'u' :: a :: b :: c :: d :: (innerText ps ++ '"' :: rest) := hcs
    refine takes_readChars_escape h (readEscape_code hc hlow hhigh _) fun h' => ?_
    rw [map_joined_cons]
    exact ih rfl h'

/-- Reading a written string from behind its opening quote gives its value. -/
theorem takes_readString (l : Literal) (rest : List Char) :
    Takes (readString (innerText l.pieces ++ '"' :: rest)) rest l.value? :=
  takes_readChars l.pieces rfl (length_le_self (innerText l.pieces ++ '"' :: rest))

/-! ## Passing over -/

lemma takes_skipEscape_letter {c value : Char} (h : letterEscape? c = some value)
    (rest : List Char) : Takes (skipEscape (c :: rest)) rest (some ()) := by
  rw [skipEscape, if_pos (by rw [h]; rfl)]
  exact takes_ok _ _

lemma takes_skipEscape_code {a b c d : Char} {value : Nat} (h : hexValue? a b c d = some value)
    (rest : List Char) : Takes (skipEscape ('u' :: a :: b :: c :: d :: rest)) rest (some ()) := by
  obtain ⟨hlt, hhex⟩ := readHex_code h rest
  rw [skipEscape, if_neg (by decide), if_pos rfl, hhex]
  exact takes_ok _ _

lemma takes_skipChars_escape {n : Nat} {cs tail rest : List Char} (h : ('\\' :: cs).length ≤ n)
    (hescape : Takes (skipEscape cs) tail (some ()))
    (hgo : ∀ h', Takes (skipChars n tail h') rest (some ())) :
    Takes (skipChars n ('\\' :: cs) h) rest (some ()) := by
  obtain ⟨hlt, hescape⟩ := hescape
  rw [skipChars, if_neg (by decide), if_pos rfl, hescape]
  exact hgo _

lemma takes_skipChars (ps : List Piece) {n : Nat} {cs rest : List Char}
    (hcs : cs = innerText ps ++ '"' :: rest) (h : cs.length ≤ n) :
    Takes (skipChars n cs h) rest (some ()) := by
  induction ps generalizing cs with
  | nil =>
    obtain rfl : cs = '"' :: rest := hcs
    rw [skipChars, if_pos rfl]
    exact takes_ok () h
  | cons p ps ih =>
    cases p with
    | plain c hc =>
      obtain rfl : cs = c :: (innerText ps ++ '"' :: rest) := hcs
      rw [skipChars, if_neg hc.1, if_neg hc.2.1, if_neg (by omega)]
      exact ih rfl _
    | letter c value hc =>
      obtain rfl : cs = '\\' :: c :: (innerText ps ++ '"' :: rest) := hcs
      exact takes_skipChars_escape h (takes_skipEscape_letter hc _) fun h' => ih rfl h'
    | code a b c d value hc =>
      obtain rfl : cs = '\\' :: 'u' :: a :: b :: c :: d :: (innerText ps ++ '"' :: rest) := hcs
      exact takes_skipChars_escape h (takes_skipEscape_code hc _) fun h' => ih rfl h'

/-- Every written string can be passed over, whether it has a value or not. -/
theorem takes_skipString (l : Literal) (rest : List Char) :
    Takes (skipString (innerText l.pieces ++ '"' :: rest)) rest (some ()) :=
  takes_skipChars l.pieces rfl (length_le_self (innerText l.pieces ++ '"' :: rest))

/-! ## Writing -/

lemma hexDigit?_digitChar : ∀ n < 16, hexDigit? (Nat.digitChar n) = some n := by
  decide

/-- A control character is written as an escape with its code. -/
lemma hexValue?_digits {n : Nat} (h : n < 0x20) :
    hexValue? '0' '0' (Nat.digitChar (n / 16)) (Nat.digitChar (n % 16)) = some n := by
  have hzero : hexDigit? '0' = some 0 := by decide
  have hhigh := hexDigit?_digitChar (n / 16) (by omega)
  have hlow := hexDigit?_digitChar (n % 16) (by omega)
  simp only [hexValue?, hzero, hhigh, hlow, bind, Option.bind, pure, Option.some.injEq]
  omega

lemma chars?_code {a b c d : Char} {value : Nat} (h : hexValue? a b c d = some value)
    (hsmall : value < 0x20) (ps : List Piece) :
    chars? (.code a b c d value h :: ps) = (chars? ps).map (Char.ofNat value :: ·) := by
  rw [chars?.eq_def]
  simp only
  rw [if_neg (by omega), if_neg (by omega)]

/-- A piece that is written so stands for the character. -/
def Stands (text : List Char) (c : Char) : Prop :=
  ∃ p : Piece, p.text = text ∧ ∀ ps, chars? (p :: ps) = (chars? ps).map (c :: ·)

lemma stands_letter {l c : Char} (h : letterEscape? l = some c) : Stands ['\\', l] c :=
  ⟨.letter l c h, rfl, fun ps => by rw [chars?]⟩

lemma stands_code {c : Char} (h : c.toNat < 0x20) :
    Stands ['\\', 'u', '0', '0', Nat.digitChar (c.toNat / 16), Nat.digitChar (c.toNat % 16)] c := by
  refine ⟨.code _ _ _ _ c.toNat (hexValue?_digits h), rfl, fun ps => ?_⟩
  rw [chars?_code _ h, Char.ofNat_toNat]

lemma stands_escapeChar (c : Char) : Stands (escapeChar c) c := by
  rw [escapeChar]
  -- the seven characters that have a letter
  iterate 7
    split
    · next h =>
      subst h
      exact stands_letter rfl
  split
  · next h => exact stands_code h
  · next hquote hbackslash _ _ _ _ _ hcontrol =>
    exact ⟨.plain c ⟨hquote, hbackslash, Nat.not_lt.1 hcontrol⟩, rfl, fun ps => by rw [chars?]⟩

lemma exists_pieces (cs : List Char) :
    ∃ ps, innerText ps = cs.flatMap escapeChar ∧ chars? ps = some cs := by
  induction cs with
  | nil => exact ⟨[], rfl, rfl⟩
  | cons c cs ih =>
    obtain ⟨p, htext, hvalue⟩ := stands_escapeChar c
    obtain ⟨ps, htexts, hvalues⟩ := ih
    refine ⟨p :: ps, ?_, ?_⟩
    · rw [innerText, htext, htexts, List.flatMap_cons]
    · rw [hvalue, hvalues]
      rfl

/-- What is written for a string is a string of a document, and the same one is read from it. -/
theorem exists_literal (s : String) : ∃ l : Literal, l.text = stringText s ∧ l.value? = some s := by
  obtain ⟨ps, htext, hvalue⟩ := exists_pieces s.toList
  refine ⟨⟨ps⟩, ?_, ?_⟩
  · rw [Literal.text, htext, stringText]
  · rw [Literal.value?, hvalue, Option.map_some, String.ofList_toList]

end Json
end SchemaCut
