import SchemaCut.Json.NumberReader
import SchemaCut.Json.StringReader

/-!
# Values without parts

Null, booleans, numbers and strings are read here, and so is the fault of a value that is of another
type than the one expected: a value without parts is read to its end first, so that a fault inside
of it comes before the fault of its type.
-/

namespace SchemaCut.Json

/-- The value that a found value without parts is. -/
def Found.toJson : Found → Json
  | .null | .sequence | .mapping => .null
  | .boolean b => .bool b
  | .number n => .num n
  | .string s => .str s

/-- Reads the rest of a word whose first letter is taken. -/
def readWord (found : Found) (word : List Char) (cs : List Char) :
    Except Fault (Parsed Found (cs.length + 1)) := do
  let r ← takeWord word cs
  return .ofRest found r

/-- Reads a value without parts that starts at the first character. -/
def readScalar : Reader Found
  | [] => .error .endAtValue
  | c :: cs =>
    if c = 'n' then readWord .null ['u', 'l', 'l'] cs
    else if c = 't' then readWord (.boolean true) ['r', 'u', 'e'] cs
    else if c = 'f' then readWord (.boolean false) ['a', 'l', 's', 'e'] cs
    else if c = '"' then (readString cs).map fun p => (p.map Found.string).behind
    else if c = '-' ∨ c.isDigit then (readNumber (c :: cs)).map fun p => p.map Found.number
    else .error .noValue

/-- The fault of a value that starts at the first character and is not what is expected. -/
def mismatch (expected : String) (cs : List Char) : Fault :=
  match cs with
  | '[' :: _ => .wrongType .sequence expected
  | '{' :: _ => .wrongType .mapping expected
  | cs =>
    match readScalar cs with
    | .ok p => .wrongType p.value expected
    | .error f => f

/-- Reads a value without parts and takes it if it is of the right type. -/
def readExpected {α : Type} (expected : String) (accept : Found → Except Fault α) : Reader α :=
  fun cs =>
    match skipSpace cs with
    | ⟨[], _⟩ => .error .endAtValue
    | ⟨c :: ds, h⟩ =>
      if c = '[' ∨ c = '{' then .error (mismatch expected (c :: ds))
      else do
        let p ← readScalar (c :: ds)
        let a ← accept p.value
        return (p.map fun _ => a).widen h

/-- Reads a boolean. -/
def readBool : Reader Bool :=
  readExpected "a boolean" fun
    | .boolean b => .ok b
    | found => .error (.wrongType found "a boolean")

/-- Reads a string where a string has to be. -/
def readText : Reader String :=
  readExpected "a string" fun
    | .string s => .ok s
    | found => .error (.wrongType found "a string")

/-- Reads a natural number below `2 ^ 64`. -/
def readCount : Reader Nat :=
  readExpected "usize" fun
    | .number (.int n) => if 0 ≤ n then .ok n.toNat else .error (.wrongValue n "usize")
    | found => .error (.wrongType found "usize")

/-- Reads a null where nothing else may be. -/
def readUnit : Reader Unit :=
  readExpected "unit" fun
    | .null => .ok ()
    | found => .error (.wrongType found "unit")

/-- Reads a null as nothing and everything else with the given reader. -/
def readOptional {α : Type} (read : Reader α) : Reader (Option α) := fun cs =>
  match skipSpace cs with
  | ⟨'n' :: ds, h⟩ => do
    let p ← readWord .null ['u', 'l', 'l'] ds
    return (p.map fun _ => none).widen h
  | _ => (read cs).map fun p => p.map some

end SchemaCut.Json
