import SchemaCut.Json.Scalar

/-!
# Reading arrays, objects and values

Arrays and objects are read part by part with a reader for the parts. Reading an array gives the
list of its elements. Reading an object carries a state from member to member: the step for a member
is given its name and reads on from behind it.

`readValue room` reads any value; `room` is the number of containers that may still be opened. Of
several members with one name the last counts.
-/

namespace SchemaCut.Json

/-- The number of containers that may stand inside one another. -/
def maxDepth : Nat := 127

section Arrays

variable {α : Type}

/-- Reads what follows an element of an array: the further elements and the closing bracket. -/
def readMoreItems (read : Reader α) (cs : List Char) :
    Except Fault (Parsed (List α) cs.length) :=
  match skipSpace cs with
  | ⟨[], _⟩ => .error .endInArray
  | ⟨c :: ds, h₁⟩ =>
    if c = ']' then .ok ⟨[], ds, h₁⟩
    else if c = ',' then
      match skipSpace ds with
      | ⟨[], _⟩ => .error .endAtValue
      | ⟨d :: es, h₂⟩ =>
        if d = ']' then .error .trailingComma
        else
          match read (d :: es) with
          | .error f => .error f
          | .ok p =>
            match readMoreItems read p.rest with
            | .error f => .error f
            | .ok q => .ok (((p.before (q.map (p.value :: ·))).widen h₂).behind.widen h₁)
    else .error .noCommaOrBracket
termination_by cs.length
decreasing_by have := p.shorter; simp only [List.length_cons] at *; omega

/-- Reads an array from behind its opening bracket. -/
def readItems (read : Reader α) : Reader (List α) := fun cs =>
  match skipSpace cs with
  | ⟨[], _⟩ => .error .endInArray
  | ⟨c :: ds, h⟩ =>
    if c = ']' then .ok ⟨[], ds, h⟩
    else do
      let p ← read (c :: ds)
      let q ← readMoreItems read p.rest
      return (p.before (q.map (p.value :: ·))).widen h

end Arrays

section Objects

variable {σ : Type}

/-- How a member changes the state: given its name, reads on from behind it. -/
abbrev MemberStep (σ : Type) := σ → String → Reader σ

/-- Reads a member from behind the quote that opens its name. -/
def readMember (step : MemberStep σ) (s : σ) : Reader σ := fun cs => do
  let p ← readString cs
  let q ← step s p.value p.rest
  return p.before q

/-- Reads what follows a member of an object: the further members and the closing brace. -/
def readMoreMembers (step : MemberStep σ) (n : Nat) (s : σ) (cs : List Char) (h : cs.length ≤ n) :
    Except Fault (Parsed σ n) :=
  match skipSpace cs with
  | ⟨[], _⟩ => .error .endInObject
  | ⟨c :: ds, h₁⟩ =>
    if c = '}' then .ok ⟨s, ds, Nat.lt_of_lt_of_le h₁ h⟩
    else if c = ',' then
      match skipSpace ds with
      | ⟨[], _⟩ => .error .endAtValue
      | ⟨d :: es, h₂⟩ =>
        if d = '}' then .error .trailingComma
        else if d = '"' then
          match readMember step s es with
          | .error f => .error f
          | .ok p => readMoreMembers step n p.value p.rest (by
              have := p.shorter; simp only [List.length_cons] at *; omega)
        else .error .keyNotString
    else .error .noCommaOrBrace
termination_by cs.length
decreasing_by have := p.shorter; simp only [List.length_cons] at *; omega

/-- Reads an object from behind its opening brace. -/
def readMembers (step : MemberStep σ) (s : σ) : Reader σ := fun cs =>
  match skipSpace cs with
  | ⟨[], _⟩ => .error .endInObject
  | ⟨c :: ds, h⟩ =>
    if c = '}' then .ok ⟨s, ds, h⟩
    else if c = '"' then do
      let p ← readMember step s ds
      readMoreMembers step cs.length p.value p.rest
        (by have := p.shorter; simp only [List.length_cons] at h; omega)
    else .error .keyNotString

/-- The step that reads the value of every member and keeps the last value of each name. -/
def entryStep {α : Type} (read : Reader α) : MemberStep (List (String × α)) := fun es name cs => do
  let ⟨ds, h⟩ ← takeColon cs
  let p ← read ds
  return (p.map fun a => Entries.put name a es).widen h

end Objects

/-- Reads a value; `room` containers may be opened. -/
def readValue (room : Nat) (cs : List Char) : Except Fault (Parsed Json cs.length) :=
  match skipSpace cs with
  | ⟨[], _⟩ => .error .endAtValue
  | ⟨c :: ds, h⟩ =>
    if c = '[' then
      match room with
      | 0 => .error .tooDeep
      | room + 1 => (readItems (readValue room) ds).map fun p =>
          (p.map Json.arr).behind.widen h
    else if c = '{' then
      match room with
      | 0 => .error .tooDeep
      | room + 1 => (readMembers (entryStep (readValue room)) [] ds).map fun p =>
          (p.map Json.obj).behind.widen h
    else (readScalar (c :: ds)).map fun p => (p.map Found.toJson).widen h

/-- Reads a whole text with a reader that may open `maxDepth` containers. -/
def readAll {α : Type} (read : Nat → Reader α) (text : String) : Except Fault α := do
  let p ← read maxDepth text.toList
  match (skipSpace p.rest).1 with
  | [] => return p.value
  | _ => .error .trailingText

/-- Reads a text as one value. -/
def ofText (text : String) : Except Fault Json := readAll readValue text

end SchemaCut.Json
