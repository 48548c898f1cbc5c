import Mathlib.Tactic.Lemma
import SchemaCut.Json.Scalar

/-!
# What readers take

A reader gives a value and the rest of the text, with a proof that the rest is shorter.  `Takes`
says what a reader gives without that proof: the value that is read, or none, and where the rest
starts. Readers are put together from others, and so are these facts: `Takes.bind` is the rule for
one reader behind another.

`Space` is white space between the parts of a document; a reader goes past it to the first
character that is none (`skipSpace_append`).  `Delimited` says of a text that it does not prolong a
number, which is the one kind of value whose end is not written.
-/

namespace SchemaCut
namespace Json

variable {α β : Type} {m n : Nat}

/-! ## Values and rests -/

/-- A reader gives the value `a?` and leaves `rest`, or fails if there is no value. -/
def Takes (x : Except Fault (Parsed α n)) (rest : List Char) : Option α → Prop
  | some a => ∃ h, x = .ok ⟨a, rest, h⟩
  | none => ∃ f, x = .error f

lemma takes_ok (a : α) {rest : List Char} (h : rest.length < n) :
    Takes (.ok ⟨a, rest, h⟩) rest (some a) := ⟨h, rfl⟩

lemma takes_error (f : Fault) (rest : List Char) :
    Takes (.error f : Except Fault (Parsed α n)) rest none := ⟨f, rfl⟩

lemma toOption_eq_some_iff {x : Except Fault α} {a : α} : x.toOption = some a ↔ x = .ok a := by
  cases x <;> simp [Except.toOption]

/-- What was read is given if a check of it succeeds. -/
lemma takes_checked (x : Except Fault α) {rest : List Char} (h : rest.length < n) :
    Takes (do
      let a ← x
      return ⟨a, rest, h⟩) rest x.toOption := by
  cases x with
  | error f => exact takes_error f rest
  | ok a => exact takes_ok a h

namespace Takes

variable {x : Except Fault (Parsed α n)} {rest rest' : List Char} {a? : Option α}

lemma error_or_ok (hx : Takes x rest a?) :
    (∃ f, a? = none ∧ x = .error f) ∨ ∃ a h, a? = some a ∧ x = .ok ⟨a, rest, h⟩ := by
  cases a? with
  | none =>
    obtain ⟨f, hf⟩ := hx
    exact .inl ⟨f, rfl, hf⟩
  | some a =>
    obtain ⟨h, ha⟩ := hx
    exact .inr ⟨a, h, rfl, ha⟩

/-- One reader behind another: the second goes on from the rest of the first. -/
lemma bind {k : Parsed α n → Except Fault (Parsed β m)} {b : α → Option β} (hx : Takes x rest a?)
    (hk : ∀ a h, a? = some a → Takes (k ⟨a, rest, h⟩) rest' (b a)) :
    Takes (x >>= k) rest' (a?.bind b) := by
  obtain ⟨f, rfl, rfl⟩ | ⟨a, h, rfl, rfl⟩ := hx.error_or_ok
  · exact takes_error f rest'
  · exact hk a h rfl

/-- A change of what was read that leaves the rest alone. -/
lemma map {g : Parsed α n → Parsed β m} {b : α → β} (hx : Takes x rest a?)
    (hvalue : ∀ p, (g p).value = b p.value) (hrest : ∀ p, (g p).rest = p.rest) :
    Takes (x.map g) rest (a?.map b) := by
  obtain ⟨f, rfl, rfl⟩ | ⟨a, h, rfl, rfl⟩ := hx.error_or_ok
  · exact takes_error f rest
  · have hshort : rest.length < m := by simpa [hrest] using (g ⟨a, rest, h⟩).shorter
    refine ⟨hshort, ?_⟩
    rw [Except.map]
    congr 1
    cases hg : g ⟨a, rest, h⟩ with
    | mk value rest' short =>
      have hv := hvalue ⟨a, rest, h⟩
      have hr := hrest ⟨a, rest, h⟩
      rw [hg] at hv hr
      simp only at hv hr
      subst hv hr
      rfl

end Takes

/-! ## White space -/

/-- White space between the parts of a document. -/
structure Space where
  chars : List Char
  blank : ∀ c ∈ chars, isSpace c = true

/-- No white space. -/
def Space.empty : Space := ⟨[], fun _ hc => absurd hc List.not_mem_nil⟩

/-- One space. -/
def Space.single : Space := ⟨[' '], by simp [isSpace]⟩

lemma dropWhile_space (s : Space) (cs : List Char) :
    (s.chars ++ cs).dropWhile isSpace = cs.dropWhile isSpace :=
  List.dropWhile_append_of_pos s.blank

/-- A reader goes past white space. -/
lemma skipSpace_append (s : Space) {c : Char} (hc : isSpace c = false) (cs : List Char) :
    ∃ h, skipSpace (s.chars ++ c :: cs) = ⟨c :: cs, h⟩ := by
  have hdrop : (s.chars ++ c :: cs).dropWhile isSpace = c :: cs := by
    rw [dropWhile_space, List.dropWhile_cons_of_neg (by simp [hc])]
  exact ⟨by simp, Subtype.ext hdrop⟩

/-- A reader goes past white space behind white space. -/
lemma skipSpace_append_append (s t : Space) {c : Char} (hc : isSpace c = false) (cs : List Char) :
    ∃ h, skipSpace (s.chars ++ (t.chars ++ c :: cs)) = ⟨c :: cs, h⟩ := by
  have hdrop : (s.chars ++ (t.chars ++ c :: cs)).dropWhile isSpace = c :: cs := by
    rw [dropWhile_space, dropWhile_space, List.dropWhile_cons_of_neg (by simp [hc])]
  exact ⟨by simp; omega, Subtype.ext hdrop⟩

lemma takeColon_append (s : Space) (cs : List Char) :
    ∃ h, takeColon (s.chars ++ ':' :: cs) = .ok ⟨cs, h⟩ := by
  obtain ⟨h, hskip⟩ := skipSpace_append s (c := ':') rfl cs
  exact ⟨by simp; omega, by rw [takeColon, hskip]; rfl⟩

/-- Whether a character can stand inside of a number. -/
def inNumber (c : Char) : Bool := c.isDigit || c = '.' || c = 'e' || c = 'E'

/-- A text that does not prolong a number in front of it. -/
def Delimited (cs : List Char) : Prop := ∀ c ∈ cs.head?, inNumber c = false

lemma delimited_cons {c : Char} (hc : inNumber c = false) (cs : List Char) :
    Delimited (c :: cs) := by
  simpa [Delimited] using hc

lemma inNumber_of_isSpace {c : Char} (hc : isSpace c = true) : inNumber c = false := by
  simp only [isSpace, Bool.or_eq_true, decide_eq_true_eq] at hc
  rcases hc with ((rfl | rfl) | rfl) | rfl <;> decide

lemma delimited_space (s : Space) {cs : List Char} (h : Delimited cs) :
    Delimited (s.chars ++ cs) := by
  obtain ⟨chars, blank⟩ := s
  cases chars with
  | nil => exact h
  | cons c chars => exact delimited_cons (inNumber_of_isSpace (blank c List.mem_cons_self)) _

end Json
end SchemaCut
