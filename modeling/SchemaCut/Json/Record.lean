import SchemaCut.Json.Reader
import SchemaCut.Json.Skip

/-!
# Reading records and words

A record is written as an object of its fields, in any order and among members of other names, which
are passed over, or as an array of its fields in their declared order. A field may be given once. A
field that is not required may be missing; in an array only the last fields can be.

A word out of a fixed choice is written as a string, or as an object whose only member has the word
for its name and null for its value.
-/

namespace SchemaCut.Json

/-- A field of a record of which `σ` is the part read so far. -/
structure Field (σ : Type) where
  name : String
  required : Bool
  /-- Whether the field has been read. -/
  given : σ → Bool
  /-- Reads the value of the field; `room` containers may be opened. -/
  read : (room : Nat) → σ → Reader σ

/-- A field whose value is kept beside those of the other fields. -/
def Field.slot {σ β : Type} (name : String) (required : Bool) (given : σ → Bool) (put : σ → β → σ)
    (read : Nat → Reader β) : Field σ where
  name := name
  required := required
  given := given
  read room s cs := (read room cs).map fun p => p.map (put s)

/-- How a record is read: its title in faults, its fields in declared order, what is known before
anything is read, and the record that is known when every required field is. -/
structure Record (σ α : Type) where
  title : String
  fields : List (Field σ)
  start : σ
  finish : σ → α

namespace Record

variable {σ α : Type}

/-- The step for a member of a record that is written as an object. -/
def memberStep (r : Record σ α) (room : Nat) : MemberStep σ := fun s name cs =>
  match r.fields.find? (·.name = name) with
  | some field =>
    if field.given s then .error (.duplicateField name)
    else do
      let ⟨ds, h⟩ ← takeColon cs
      let p ← field.read room s ds
      return p.widen h
  | none => do
    let ⟨ds, h⟩ ← takeColon cs
    let p ← skip ds
    return (p.map fun _ => s).widen h

/-- The record, once all members are read. -/
def ofMembers (r : Record σ α) (s : σ) : Except Fault α :=
  match r.fields.find? fun field => field.required && !field.given s with
  | some field => .error (.missingField field.name)
  | none => .ok (r.finish s)

/-- Reads the end of an array that may hold no further element. -/
def readArrayEnd (cs : List Char) : Except Fault (Rest cs.length) :=
  match skipSpace cs with
  | ⟨[], _⟩ => .error .endInArray
  | ⟨c :: ds, h⟩ =>
    if c = ']' then .ok ((Rest.all ds).behind.widen h)
    else if c = ',' ∧ (skipSpace ds).1.head? = some ']' then .error .trailingComma
    else .error .trailingText

/-- Reads fields from the elements of an array, and the closing bracket. Gives what is known then
and the fields for which there was no element. `first` says that no element has been read yet. -/
def readFields (room n : Nat) (fields : List (Field σ)) (first : Bool) (s : σ) (cs : List Char)
    (h : cs.length < n) : Except Fault (Parsed (σ × List (Field σ)) n) :=
  match fields with
  | [] => do
    let ⟨ds, h'⟩ ← readArrayEnd cs
    return ⟨(s, []), ds, Nat.lt_of_le_of_lt h' h⟩
  | field :: fields =>
    match skipSpace cs with
    | ⟨[], _⟩ => .error .endInArray
    | ⟨c :: ds, h₁⟩ =>
      if c = ']' then
        .ok ⟨(s, field :: fields), ds, length_lt_of_cons h h₁⟩
      else if first then do
        let p ← field.read room s (c :: ds)
        readFields room n fields false p.value p.rest
          (Nat.lt_trans (Nat.lt_of_lt_of_le p.shorter h₁) h)
      else if c = ',' then
        match skipSpace ds with
        | ⟨[], _⟩ => .error .endAtValue
        | ⟨d :: es, h₂⟩ =>
          if d = ']' then .error .trailingComma
          else do
            let p ← field.read room s (d :: es)
            readFields room n fields false p.value p.rest
              (by have := p.shorter; simp only [List.length_cons] at *; omega)
      else .error .noCommaOrBracket

/-- The record, once the elements of an array are read and `left` are the fields without one. -/
def ofElements (r : Record σ α) (s : σ) (left : List (Field σ)) : Except Fault α :=
  match left.dropWhile (!·.required) with
  | [] => .ok (r.finish s)
  | missing =>
    .error (.wrongLength (r.fields.length - missing.length)
      (r.title ++ " with " ++ toString r.fields.length ++ " elements"))

/-- Reads a record. -/
def read (r : Record σ α) (room : Nat) : Reader α := fun cs =>
  match skipSpace cs with
  | ⟨[], _⟩ => .error .endAtValue
  | ⟨c :: ds, h⟩ =>
    if c = '{' then
      match room with
      | 0 => .error .tooDeep
      | room + 1 => do
        let p ← readMembers (r.memberStep room) r.start ds
        let a ← r.ofMembers p.value
        return (p.map fun _ => a).behind.widen h
    else if c = '[' then
      match room with
      | 0 => .error .tooDeep
      | room + 1 => do
        let p ← readFields room (c :: ds).length r.fields true r.start ds (length_lt_cons c ds)
        let a ← r.ofElements p.value.1 p.value.2
        return (p.map fun _ => a).widen h
    else .error (mismatch r.title (c :: ds))

end Record

/-! ## Objects and arrays of a type -/

/-- Reads an object with values of one kind; of several members with one name the last counts. -/
def readMap {α : Type} (read : Nat → Reader α) (room : Nat) : Reader (NameMap α) := fun cs =>
  match skipSpace cs with
  | ⟨[], _⟩ => .error .endAtValue
  | ⟨c :: ds, h⟩ =>
    if c = '{' then
      match room with
      | 0 => .error .tooDeep
      | room + 1 => (readMembers (fun es name cs' => do
          let ⟨rest, h'⟩ ← takeColon cs'
          let p ← read room rest
          return (p.map fun a => NameMap.insert es name a).widen h') ∅ ds).map fun p =>
            p.behind.widen h
    else .error (mismatch "a map" (c :: ds))

/-- Reads an array with elements of one kind. -/
def readList {α : Type} (read : Nat → Reader α) (room : Nat) : Reader (List α) := fun cs =>
  match skipSpace cs with
  | ⟨[], _⟩ => .error .endAtValue
  | ⟨c :: ds, h⟩ =>
    if c = '[' then
      match room with
      | 0 => .error .tooDeep
      | room + 1 => (readItems (read room) ds).map fun p => p.behind.widen h
    else .error (mismatch "a sequence" (c :: ds))

/-! ## Words out of a choice -/

/-- The value of a word. -/
def chosen {α : Type} (choice : List (String × α)) (word : String) : Except Fault α :=
  match choice.lookup word with
  | some a => .ok a
  | none => .error (.unknownVariant word (choice.map Prod.fst))

/-- Reads a word out of a choice. -/
def readChoice {α : Type} (choice : List (String × α)) (room : Nat) : Reader α := fun cs =>
  match skipSpace cs with
  | ⟨[], _⟩ => .error .endAtValue
  | ⟨c :: ds, h⟩ =>
    if c = '"' then do
      let p ← readString ds
      let a ← chosen choice p.value
      return (p.map fun _ => a).behind.widen h
    else if c = '{' then
      if room = 0 then .error .tooDeep
      else
        match skipSpace ds with
        | ⟨[], _⟩ => .error .endInObject
        | ⟨d :: es, h₁⟩ =>
          if d = '"' then do
            let p ← readString es
            let a ← chosen choice p.value
            let ⟨fs, h₂⟩ ← takeColon p.rest
            let q ← readUnit fs
            match skipSpace q.rest with
            | ⟨[], _⟩ => .error .endInObject
            | ⟨g :: gs, h₃⟩ =>
              if g = '}' then
                return ⟨a, gs, by
                  have := p.shorter; have := q.shorter
                  simp only [List.length_cons] at *; omega⟩
              else .error .noValue
          else if d = '\x7d' then .error .noValue
          else .error .keyNotString
    else .error .noValue

end SchemaCut.Json
