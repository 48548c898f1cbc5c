import SchemaCut.Json.NumberReader
import SchemaCut.Json.StringReader

/-!
# Passing over values

A value that nobody asks for is passed over: only its form is checked. Its strings may hold
surrogates without a partner, its numbers may be of any size, and its arrays and objects may be
nested to any depth, because the brackets that are still open are kept in a list.
-/

namespace SchemaCut.Json

/-- An open container. -/
inductive Bracket where
  | array
  | object
  deriving DecidableEq, Repr

namespace Bracket

/-- The container that a character opens. -/
def opened? (c : Char) : Option Bracket :=
  if c = '[' then some .array else if c = '{' then some .object else none

/-- The character that closes the container. -/
def close : Bracket → Char
  | .array => ']'
  | .object => '}'

/-- The fault of a text that ends inside the container. -/
def unfinished : Bracket → Fault
  | .array => .endInArray
  | .object => .endInObject

/-- The fault of a value that is followed neither by a comma nor by the closing bracket. -/
def unseparated : Bracket → Fault
  | .array => .noCommaOrBracket
  | .object => .noCommaOrBrace

end Bracket

/-- Passes over a word, a string or a number that starts at the first character. -/
def skipScalar : Reader Unit
  | [] => .error .endAtValue
  | c :: cs =>
    let word (letters : List Char) : Except Fault (Parsed Unit (c :: cs).length) := do
      let r ← takeWord letters cs
      return .ofRest () r
    if c = 'n' then word ['u', 'l', 'l']
    else if c = 't' then word ['r', 'u', 'e']
    else if c = 'f' then word ['a', 'l', 's', 'e']
    else if c = '"' then (skipString cs).map fun p => p.behind
    else if c = '-' ∨ c.isDigit then skipNumber (c :: cs)
    else .error .noValue

/-- Passes over what stands before a value in a container: in an object, its name and the colon. -/
def skipName (b : Bracket) (cs : List Char) : Except Fault (Rest cs.length) :=
  match b with
  | .array => .ok (Rest.all cs)
  | .object =>
    match skipSpace cs with
    | ⟨[], _⟩ => .error .endInObject
    | ⟨c :: ds, h⟩ =>
      if c = '"' then do
        let p ← skipString ds
        let r ← takeColon p.rest
        return (p.beforeRest r).behind.widen h
      else .error .keyNotString

mutual

/-- Passes over a value inside of the open containers, and then over the rest of these. -/
def skipValue (n : Nat) (stack : List Bracket) (cs : List Char) (h : cs.length ≤ n) :
    Except Fault (Parsed Unit n) :=
  match skipSpace cs with
  | ⟨[], _⟩ => .error .endAtValue
  | ⟨c :: ds, h₁⟩ =>
    match Bracket.opened? c with
    | some b =>
      match skipSpace ds with
      | ⟨[], _⟩ => .error b.unfinished
      | ⟨d :: es, h₂⟩ =>
        if d = b.close then
          skipMore n stack es (by simp only [List.length_cons] at *; omega)
        else
          match skipName b (d :: es) with
          | .error f => .error f
          | .ok ⟨fs, h₃⟩ =>
            skipValue n (b :: stack) fs (by simp only [List.length_cons] at *; omega)
    | none =>
      match skipScalar (c :: ds) with
      | .error f => .error f
      | .ok p => skipMore n stack p.rest (by have := p.shorter; omega)
termination_by cs.length
decreasing_by
  all_goals try have := p.shorter
  all_goals simp only [List.length_cons] at *
  all_goals omega

/-- Passes over what follows a value inside of the open containers. -/
def skipMore (n : Nat) (stack : List Bracket) (cs : List Char) (h : cs.length < n) :
    Except Fault (Parsed Unit n) :=
  match stack with
  | [] => .ok ⟨(), cs, h⟩
  | b :: outer =>
    match skipSpace cs with
    | ⟨[], _⟩ => .error b.unfinished
    | ⟨c :: ds, h₁⟩ =>
      if c = ',' then
        match skipName b ds with
        | .error f => .error f
        | .ok ⟨es, h₂⟩ =>
          skipValue n (b :: outer) es (by simp only [List.length_cons] at *; omega)
      else if c = b.close then
        skipMore n outer ds (length_lt_of_cons h h₁)
      else .error b.unseparated
termination_by cs.length
decreasing_by
  all_goals simp only [List.length_cons] at *
  all_goals omega

end

/-- Passes over one value. -/
def skip : Reader Unit := fun cs => skipValue cs.length [] cs (length_le_self cs)

end SchemaCut.Json
