/-!
# What is left of a text

A reader takes a text and gives back what it has read together with the rest of the text. The rest
is shorter, and the result says so: a loop that goes on with the rest ends by the length of the
text.
-/

namespace SchemaCut

universe u v

/-- What is left of a text of `n` characters after taking some, or none, of them. -/
abbrev Rest (n : Nat) := { cs : List Char // cs.length ≤ n }

namespace Rest

variable {m n : Nat}

/-- The whole of a text. -/
def all (cs : List Char) : Rest cs.length := ⟨cs, Nat.le_refl _⟩

/-- The same rest, seen from a text that was at least as long. -/
def widen (r : Rest m) (h : m ≤ n) : Rest n := ⟨r.1, Nat.le_trans r.2 h⟩

/-- The same rest, seen from one character further to the left. -/
def behind (r : Rest n) : Rest (n + 1) := r.widen (Nat.le_succ n)

end Rest

/-- What was read from a text of `n` characters, and the shorter text that is left. -/
structure Parsed (α : Type u) (n : Nat) where
  value : α
  rest : List Char
  shorter : rest.length < n

namespace Parsed

variable {α : Type u} {β : Type v} {m n : Nat}

/-- What was read with the first character of a text and some, or none, of the others. -/
def ofRest (a : α) (r : Rest n) : Parsed α (n + 1) := ⟨a, r.1, Nat.lt_succ_of_le r.2⟩

/-- The same result, seen from a text that was at least as long. -/
def widen (p : Parsed α m) (h : m ≤ n) : Parsed α n :=
  ⟨p.value, p.rest, Nat.lt_of_lt_of_le p.shorter h⟩

/-- The same result, seen from one character further to the left. -/
def behind (p : Parsed α n) : Parsed α (n + 1) := p.widen (Nat.le_succ n)

/-- Changes the value read. -/
def map (f : α → β) (p : Parsed α n) : Parsed β n := ⟨f p.value, p.rest, p.shorter⟩

/-- The text that is left. -/
def left (p : Parsed α n) : Rest n := ⟨p.rest, Nat.le_of_lt p.shorter⟩

/-- A later result, seen from the text before this one. -/
def before (p : Parsed α n) (q : Parsed β p.rest.length) : Parsed β n :=
  q.widen (Nat.le_of_lt p.shorter)

/-- What is left later, seen from the text before this result. -/
def beforeRest (p : Parsed α n) (r : Rest p.rest.length) : Rest n :=
  r.widen (Nat.le_of_lt p.shorter)

end Parsed

/-- The text from its first character on that fails a test. -/
def skipWhile (test : Char → Bool) (cs : List Char) : Rest cs.length :=
  ⟨cs.dropWhile test, (List.dropWhile_suffix _).length_le⟩

/-! ## Lengths behind the first character

A reader that keeps the length of a text far to its left gives these to its next turn. -/

section Lengths

variable {α : Type u} {n : Nat} {c : Char} {cs ds : List Char}

theorem length_le_self (cs : List Char) : cs.length ≤ cs.length := Nat.le_refl _

theorem length_lt_cons (c : Char) (cs : List Char) : cs.length < (c :: cs).length :=
  Nat.lt_succ_self _

theorem length_le_of_cons (h : (c :: cs).length ≤ n) : cs.length ≤ n := Nat.le_of_succ_le h

theorem length_lt_of_cons (hn : cs.length < n) (h : (c :: ds).length ≤ cs.length) : ds.length < n :=
  Nat.lt_trans h hn

theorem Parsed.length_le_of_cons (p : Parsed α cs.length) (h : (c :: cs).length ≤ n) :
    p.rest.length ≤ n :=
  Nat.le_of_lt (Nat.lt_trans p.shorter h)

end Lengths

end SchemaCut
