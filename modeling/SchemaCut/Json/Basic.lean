import SchemaCut.NameMap

/-!
# Document values

`Json` is what a schema document says: null, booleans, numbers, strings, arrays, and objects. An
object is the list of its members. What is read from a text has the members of every object in
ascending order of names and no name twice (`Json.Canonical`); a value made for writing may list
them in any order.

A number is an integer or a double, which is kept as its 64 bits, so equality of values is
decided by the bits.

* `Json.induct` : induction over values, with a hypothesis for every element and every member.
-/

namespace SchemaCut

/-- A number of a document. -/
inductive Number where
  | int (n : Int)
  | double (bits : UInt64)
  deriving DecidableEq, Repr, Inhabited

/-- A value of a document. -/
inductive Json where
  | null
  | bool (b : Bool)
  | num (n : Number)
  | str (s : String)
  | arr (items : List Json)
  | obj (members : List (String × Json))
  deriving Repr, Inhabited

namespace Json

/-- Whether a value is an object. -/
def isObject : Json → Bool
  | .obj _ => true
  | _ => false

@[elab_as_elim]
theorem induct {P : Json → Prop} (null : P .null) (bool : ∀ b, P (.bool b))
    (num : ∀ n, P (.num n)) (str : ∀ s, P (.str s))
    (arr : ∀ items, (∀ v ∈ items, P v) → P (.arr items))
    (obj : ∀ members, (∀ m ∈ members, P m.2) → P (.obj members)) (v : Json) : P v :=
  Json.rec (motive_1 := P) (motive_2 := fun vs => ∀ v ∈ vs, P v)
    (motive_3 := fun ms => ∀ m ∈ ms, P m.2) (motive_4 := fun m => P m.2)
    null bool num str arr obj
    (fun _ h => absurd h List.not_mem_nil)
    (fun _ _ hv hvs w hw => (List.mem_cons.1 hw).elim (fun e => e ▸ hv) (hvs w))
    (fun _ h => absurd h List.not_mem_nil)
    (fun _ _ hm hms n hn => (List.mem_cons.1 hn).elim (fun e => e ▸ hm) (hms n))
    (fun _ _ h => h) v

mutual

/-- The members of every object in the value ascend by name. -/
def Canonical : Json → Prop
  | .arr items => CanonicalItems items
  | .obj members => Entries.Ascending members ∧ CanonicalMembers members
  | _ => True
termination_by structural v => v

/-- `Canonical` at every element. -/
def CanonicalItems : List Json → Prop
  | [] => True
  | v :: vs => Canonical v ∧ CanonicalItems vs
termination_by structural vs => vs

/-- `Canonical` at every member. -/
def CanonicalMembers : List (String × Json) → Prop
  | [] => True
  | (_, v) :: ms => Canonical v ∧ CanonicalMembers ms
termination_by structural ms => ms

end

theorem canonicalItems_iff {vs : List Json} : CanonicalItems vs ↔ ∀ v ∈ vs, v.Canonical := by
  induction vs with
  | nil => simp [CanonicalItems]
  | cons v vs ih => simp [CanonicalItems, ih]

theorem canonicalMembers_iff {ms : List (String × Json)} :
    CanonicalMembers ms ↔ ∀ m ∈ ms, m.2.Canonical := by
  induction ms with
  | nil => simp [CanonicalMembers]
  | cons m ms ih => obtain ⟨n, v⟩ := m; simp [CanonicalMembers, ih]

end Json

end SchemaCut
