import SchemaCut.Json.Skip
import SchemaCut.Proofs.Reading.Numbers
import SchemaCut.Proofs.Reading.Strings

/-!
# Values as they are written

A `Tree` is a value as it is written: numbers and strings in their spelling, the members of an
object in their order and with their repeats, and the white space between the parts.
`Tree.textBefore` is its text with another text behind it.

`Tree.value?` says what a tree means to a reader that may open `room` containers.  There is no value
if more containers stand inside one another, if a string has half a surrogate pair or if a number is
out of range.

A text can be taken apart by its first character (`exists_textBefore_eq_cons`), and what stands
behind a part of a container does not prolong the part (`delimited_items`, `delimited_members`).
-/

namespace SchemaCut
namespace Json

/-! ## Trees -/

/-- Something between white space. -/
structure Spaced (α : Type) where
  before : Space
  value : α
  after : Space

/-- A value as it is written.  `close` is the white space in front of the closing bracket. -/
inductive Tree where
  | null
  | bool (b : Bool)
  | number (x : Figure)
  | string (l : Literal)
  | array (items : List (Spaced Tree)) (close : Space)
  | object (members : List (Spaced Literal × Spaced Tree)) (close : Space)

/-- A member of an object as it is written: its name and its value. -/
abbrev Member := Spaced Literal × Spaced Tree

/-- The text of a string with another text behind it. -/
def Literal.textBefore (l : Literal) (rest : List Char) : List Char :=
  '"' :: (Literal.innerText l.pieces ++ '"' :: rest)

namespace Tree

@[elab_as_elim]
theorem induct {P : Tree → Prop} (null : P .null) (bool : ∀ b, P (.bool b))
    (number : ∀ x, P (.number x)) (string : ∀ l, P (.string l))
    (array : ∀ items close, (∀ i ∈ items, P i.value) → P (.array items close))
    (object : ∀ members close, (∀ m ∈ members, P m.2.value) → P (.object members close))
    (t : Tree) : P t :=
  Tree.rec (motive_1 := P) (motive_2 := fun items => ∀ i ∈ items, P i.value)
    (motive_3 := fun members => ∀ m ∈ members, P m.2.value) (motive_4 := fun i => P i.value)
    (motive_5 := fun m => P m.2.value)
    null bool number string array object
    (fun _ h => absurd h List.not_mem_nil)
    (fun _ _ hi his j hj => (List.mem_cons.1 hj).elim (fun e => e ▸ hi) (his j))
    (fun _ h => absurd h List.not_mem_nil)
    (fun _ _ hm hms n hn => (List.mem_cons.1 hn).elim (fun e => e ▸ hm) (hms n))
    (fun _ _ _ h => h) (fun _ _ h => h) t

mutual

/-- The text of a value with another text behind it. -/
def textBefore : Tree → List Char → List Char
  | .null, rest => 'n' :: 'u' :: 'l' :: 'l' :: rest
  | .bool true, rest => 't' :: 'r' :: 'u' :: 'e' :: rest
  | .bool false, rest => 'f' :: 'a' :: 'l' :: 's' :: 'e' :: rest
  | .number x, rest => x.text ++ rest
  | .string l, rest => l.textBefore rest
  | .array [] close, rest => '[' :: (close.chars ++ ']' :: rest)
  | .array (⟨before, t, after⟩ :: items) close, rest =>
    '[' :: (before.chars ++ textBefore t (after.chars ++
      itemsBefore items (close.chars ++ ']' :: rest)))
  | .object [] close, rest => '{' :: (close.chars ++ '}' :: rest)
  | .object ((name, ⟨before, t, after⟩) :: members) close, rest =>
    '{' :: (name.before.chars ++ name.value.textBefore (name.after.chars ++
      ':' :: (before.chars ++ textBefore t (after.chars ++
        membersBefore members (close.chars ++ '}' :: rest)))))
termination_by structural t => t

/-- The further elements of an array, each behind a comma, with another text behind them. -/
def itemsBefore : List (Spaced Tree) → List Char → List Char
  | [], rest => rest
  | ⟨before, t, after⟩ :: items, rest =>
    ',' :: (before.chars ++ textBefore t (after.chars ++ itemsBefore items rest))
termination_by structural items => items

/-- The further members of an object, each behind a comma, with another text behind them. -/
def membersBefore : List (Spaced Literal × Spaced Tree) → List Char → List Char
  | [], rest => rest
  | (name, ⟨before, t, after⟩) :: members, rest =>
    ',' :: (name.before.chars ++ name.value.textBefore (name.after.chars ++
      ':' :: (before.chars ++ textBefore t (after.chars ++ membersBefore members rest))))
termination_by structural members => members

end

mutual

/-- What a tree means to a reader that may open `room` containers. -/
def value? : Nat → Tree → Option Json
  | _, .null => some .null
  | _, .bool b => some (.bool b)
  | _, .number x => x.value?.map .num
  | _, .string l => l.value?.map .str
  | 0, .array _ _ => none
  | room + 1, .array items _ => (itemValues? room items).map .arr
  | 0, .object _ _ => none
  | room + 1, .object members _ => (entries? room members).map fun es => .obj (Entries.ofList es)
termination_by structural _ t => t

/-- `value?` at every element. -/
def itemValues? : Nat → List (Spaced Tree) → Option (List Json)
  | _, [] => some []
  | room, ⟨_, t, _⟩ :: items => do
    let v ← value? room t
    let vs ← itemValues? room items
    return v :: vs
termination_by structural _ items => items

/-- The names and the values of members in the order in which they are written. -/
def entries? : Nat → List (Spaced Literal × Spaced Tree) → Option (List (String × Json))
  | _, [] => some []
  | room, (name, ⟨_, t, _⟩) :: members => do
    let n ← name.value.value?
    let v ← value? room t
    let es ← entries? room members
    return (n, v) :: es
termination_by structural _ members => members

end

/-- The text of an array from behind its opening bracket. -/
def itemsInside (items : List (Spaced Tree)) (close : Space) (rest : List Char) : List Char :=
  match items with
  | [] => close.chars ++ ']' :: rest
  | ⟨before, t, after⟩ :: items =>
    before.chars ++ t.textBefore (after.chars ++ itemsBefore items (close.chars ++ ']' :: rest))

/-- The text of an object from behind its opening brace. -/
def membersInside (members : List Member) (close : Space) (rest : List Char) : List Char :=
  match members with
  | [] => close.chars ++ '}' :: rest
  | (name, ⟨before, t, after⟩) :: members =>
    name.before.chars ++ name.value.textBefore (name.after.chars ++
      ':' :: (before.chars ++ t.textBefore (after.chars ++
        membersBefore members (close.chars ++ '}' :: rest))))

lemma textBefore_array (items : List (Spaced Tree)) (close : Space) (rest : List Char) :
    (array items close).textBefore rest = '[' :: itemsInside items close rest := by
  cases items <;> rfl

lemma textBefore_object (members : List Member) (close : Space) (rest : List Char) :
    (object members close).textBefore rest = '{' :: membersInside members close rest := by
  cases members <;> rfl

lemma itemValues?_eq_mapM (room : Nat) (items : List (Spaced Tree)) :
    itemValues? room items = items.mapM fun i => i.value.value? room := by
  induction items with
  | nil => rfl
  | cons i items ih =>
    obtain ⟨before, t, after⟩ := i
    rw [itemValues?, ih, List.mapM_cons]

/-! ## Where a text starts and where it ends -/

lemma ne_of_startsNumber {c d : Char} (hc : c = '-' ∨ c.isDigit = true)
    (hd : ¬ (d = '-' ∨ d.isDigit = true)) : c ≠ d := by
  rintro rfl
  exact hd hc

lemma ne_letters_of_startsNumber {c : Char} (hc : c = '-' ∨ c.isDigit = true) :
    c ≠ 'n' ∧ c ≠ 't' ∧ c ≠ 'f' ∧ c ≠ '"' :=
  ⟨ne_of_startsNumber hc (by decide), ne_of_startsNumber hc (by decide),
    ne_of_startsNumber hc (by decide), ne_of_startsNumber hc (by decide)⟩

/-- The first character of a value is no white space, and no array is closed by it. -/
lemma exists_textBefore_eq_cons (t : Tree) (rest : List Char) :
    ∃ c cs, t.textBefore rest = c :: cs ∧ isSpace c = false ∧ c ≠ ']' := by
  match t with
  | .null | .bool true | .bool false => exact ⟨_, _, rfl, by decide, by decide⟩
  | .string l => exact ⟨_, _, rfl, by decide, by decide⟩
  | .array [] _ | .array (_ :: _) _ => exact ⟨_, _, rfl, by decide, by decide⟩
  | .object [] _ | .object (_ :: _) _ => exact ⟨_, _, rfl, by decide, by decide⟩
  | .number x =>
    obtain ⟨c, cs, htext, hc⟩ := x.exists_text_eq_cons
    refine ⟨c, cs ++ rest, by rw [textBefore, htext, List.cons_append], ?_⟩
    refine ⟨?_, ne_of_startsNumber hc (by decide)⟩
    rw [← Bool.not_eq_true]
    intro hspace
    simp only [isSpace, Bool.or_eq_true, decide_eq_true_eq] at hspace
    rcases hspace with ((rfl | rfl) | rfl) | rfl <;> exact absurd hc (by decide)

/-- A value without parts. -/
def IsScalar : Tree → Prop
  | .array _ _ | .object _ _ => False
  | _ => True

/-- What a value without parts means. -/
def scalar? : Tree → Option Found
  | .null => some .null
  | .bool b => some (.boolean b)
  | .number x => x.value?.map .number
  | .string l => l.value?.map .string
  | .array _ _ | .object _ _ => none

lemma IsScalar.value?_eq {t : Tree} (ht : t.IsScalar) (room : Nat) :
    t.value? room = t.scalar?.map Found.toJson := by
  match t, ht with
  | .null, _ | .bool _, _ => rfl
  | .number x, _ => rw [value?, scalar?, Option.map_map]; rfl
  | .string l, _ => rw [value?, scalar?, Option.map_map]; rfl

/-- A value without parts opens no container. -/
lemma IsScalar.opened?_eq_none {t : Tree} (ht : t.IsScalar) {rest : List Char} {c : Char}
    {cs : List Char} (htext : t.textBefore rest = c :: cs) : Bracket.opened? c = none := by
  match t, ht with
  | .null, _ | .bool true, _ | .bool false, _ | .string l, _ =>
    obtain ⟨rfl, -⟩ := List.cons.inj htext
    rfl
  | .number x, _ =>
    obtain ⟨d, ds, hd, hstart⟩ := x.exists_text_eq_cons
    rw [textBefore, hd, List.cons_append] at htext
    obtain ⟨rfl, -⟩ := List.cons.inj htext
    rw [Bracket.opened?, if_neg (ne_of_startsNumber hstart (by decide)),
      if_neg (ne_of_startsNumber hstart (by decide))]

lemma IsScalar.exists_textBefore_eq_cons {t : Tree} (ht : t.IsScalar) (rest : List Char) :
    ∃ c cs, t.textBefore rest = c :: cs ∧ isSpace c = false ∧ c ≠ '[' ∧ c ≠ '{' := by
  obtain ⟨c, cs, htext, hspace, -⟩ := t.exists_textBefore_eq_cons rest
  have hopen := ht.opened?_eq_none htext
  refine ⟨c, cs, htext, hspace, ?_, ?_⟩
  · rintro rfl
    cases hopen
  · rintro rfl
    cases hopen

/-- What stands behind a value in a container does not prolong it. -/
lemma delimited_items (after : Space) (items : List (Spaced Tree)) (close : Space)
    (rest : List Char) :
    Delimited (after.chars ++ itemsBefore items (close.chars ++ ']' :: rest)) := by
  refine delimited_space after ?_
  cases items with
  | nil => exact delimited_space close (delimited_cons rfl rest)
  | cons i items => exact delimited_cons rfl _

lemma delimited_members (after : Space) (members : List Member) (close : Space)
    (rest : List Char) :
    Delimited (after.chars ++ membersBefore members (close.chars ++ '}' :: rest)) := by
  refine delimited_space after ?_
  cases members with
  | nil => exact delimited_space close (delimited_cons rfl rest)
  | cons m members => exact delimited_cons rfl _

end Tree

/-- The name of a member. -/
def Member.name? (m : Member) : Option String := m.1.value.value?

/-- The text of a member from behind the quote that opens its name. -/
def Member.inside (m : Member) (rest : List Char) : List Char :=
  Literal.innerText m.1.value.pieces ++
    '"' :: (m.1.after.chars ++ ':' :: (m.2.before.chars ++ m.2.value.textBefore rest))

lemma membersBefore_cons (m : Member) (members : List Member) (rest : List Char) :
    Tree.membersBefore (m :: members) rest =
      ',' :: (m.1.before.chars ++ '"' :: m.inside (m.2.after.chars ++
        Tree.membersBefore members rest)) := rfl

lemma membersInside_cons (m : Member) (members : List Member) (close : Space) (rest : List Char) :
    Tree.membersInside (m :: members) close rest =
      m.1.before.chars ++ '"' :: m.inside (m.2.after.chars ++
        Tree.membersBefore members (close.chars ++ '}' :: rest)) := rfl

end Json
end SchemaCut
