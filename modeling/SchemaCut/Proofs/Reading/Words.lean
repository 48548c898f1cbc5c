import Mathlib.Data.Nat.Init
import SchemaCut.Json.Record
import SchemaCut.Proofs.Reading.Values

/-!
# Reading texts, counts, words and lists

The fields of a request are not values of any form: each is read by a reader for its own type.
What a tree means to such a reader is a function of the tree alone, as it is for values; whether it
is refused does not depend on what stands behind it.

* `takes_readText`, `takes_readBool`, `takes_readCount`, `takes_readUnit` : values without parts.
* `takes_readOptional` : null, or what another reader takes.
* `takes_readList` : an array whose elements are all read alike.
* `takes_readChoice` : a word out of a choice, as a string or as the name of a null.
-/

namespace SchemaCut
namespace Json

variable {α : Type}

/-! ## Values without parts -/

section Scalars

variable (t : Tree) (w : Space) {rest : List Char}

/-- A value without parts is accepted for what it means, and a container is never accepted. -/
lemma takes_readExpected {expected : String} {accept : Found → Except Fault α} {a? : Option α}
    (hrest : Delimited rest)
    (hmeans : (t.scalar?.bind fun found => (accept found).toOption) = a?) :
    Takes (readExpected expected accept (w.chars ++ t.textBefore rest)) rest a? := by
  subst hmeans
  by_cases ht : t.IsScalar
  · obtain ⟨c, cs, htext, hspace, harray, hobject⟩ := ht.exists_textBefore_eq_cons rest
    obtain ⟨h, hskip⟩ := skipSpace_append w hspace cs
    have hscalar := takes_readScalar ht hrest
    rw [htext] at hscalar
    rw [htext, readExpected, hskip]
    simp only [harray, hobject, or_self, if_false]
    refine hscalar.bind fun found h' _ => ?_
    exact takes_checked (accept found) (Nat.lt_of_lt_of_le h' h)
  cases t with
  | null | bool b | number x | string l => exact absurd trivial ht
  | array items close =>
    obtain ⟨h, hskip⟩ := skipSpace_append w (c := '[') rfl (Tree.itemsInside items close rest)
    rw [Tree.textBefore_array, readExpected, hskip]
    exact takes_error _ rest
  | object members close =>
    obtain ⟨h, hskip⟩ := skipSpace_append w (c := '{') rfl (Tree.membersInside members close rest)
    rw [Tree.textBefore_object, readExpected, hskip]
    exact takes_error _ rest

/-- The string that a tree means. -/
def Tree.text? : Tree → Option String
  | .string l => l.value?
  | _ => none

lemma takes_readText (hrest : Delimited rest) :
    Takes (readText (w.chars ++ t.textBefore rest)) rest t.text? := by
  refine takes_readExpected t w hrest ?_
  cases t with
  | null | bool b | array items close | object members close => rfl
  | number x => rw [Tree.scalar?]; cases x.value? <;> rfl
  | string l => rw [Tree.scalar?, Tree.text?]; cases l.value? <;> rfl

/-- The boolean that a tree means. -/
def Tree.bool? : Tree → Option Bool
  | .bool b => some b
  | _ => none

lemma takes_readBool (hrest : Delimited rest) :
    Takes (readBool (w.chars ++ t.textBefore rest)) rest t.bool? := by
  refine takes_readExpected t w hrest ?_
  cases t with
  | null | bool b | array items close | object members close => rfl
  | number x => rw [Tree.scalar?]; cases x.value? <;> rfl
  | string l => rw [Tree.scalar?]; cases l.value? <;> rfl

/-- The natural number that a number is. -/
def Number.count? : Number → Option Nat
  | .int n => if 0 ≤ n then some n.toNat else none
  | .double _ => none

/-- The natural number that a tree means. -/
def Tree.count? : Tree → Option Nat
  | .number x => x.value?.bind Number.count?
  | _ => none

lemma takes_readCount (hrest : Delimited rest) :
    Takes (readCount (w.chars ++ t.textBefore rest)) rest t.count? := by
  refine takes_readExpected t w hrest ?_
  cases t with
  | null | bool b | array items close | object members close => rfl
  | string l => rw [Tree.scalar?]; cases l.value? <;> rfl
  | number x =>
    rw [Tree.scalar?, Tree.count?, Option.bind_map]
    refine congrArg _ (funext fun n => ?_)
    cases n with
    | double bits => rfl
    | int n =>
      simp only [Function.comp_apply, Number.count?]
      split <;> rfl

/-- Whether a tree is null. -/
def Tree.unit? : Tree → Option Unit
  | .null => some ()
  | _ => none

lemma takes_readUnit (hrest : Delimited rest) :
    Takes (readUnit (w.chars ++ t.textBefore rest)) rest t.unit? := by
  refine takes_readExpected t w hrest ?_
  cases t with
  | null | bool b | array items close | object members close => rfl
  | number x => rw [Tree.scalar?]; cases x.value? <;> rfl
  | string l => rw [Tree.scalar?]; cases l.value? <;> rfl

end Scalars

/-! ## Null or something -/

/-- Null, strings and objects are known by the first character. -/
lemma Tree.exists_first_char (t : Tree) (rest : List Char) :
    ∃ c cs, t.textBefore rest = c :: cs ∧ isSpace c = false ∧ (c = 'n' → t = .null) ∧
      (c = '"' → ∃ l, t = .string l) ∧ (c = '{' → ∃ members close, t = .object members close) := by
  obtain ⟨c, cs, htext, hspace, -⟩ := t.exists_textBefore_eq_cons rest
  refine ⟨c, cs, htext, hspace, ?_⟩
  match t with
  | .null | .bool true | .bool false | .string l | .array [] _ | .array (_ :: _) _ | .object [] _
  | .object (_ :: _) _ =>
    obtain ⟨rfl, -⟩ := List.cons.inj htext
    simp
  | .number x =>
    obtain ⟨d, ds, hd, hstart⟩ := x.exists_text_eq_cons
    rw [textBefore, hd, List.cons_append] at htext
    obtain ⟨rfl, -⟩ := List.cons.inj htext
    obtain ⟨hnull, -, -, hquote⟩ := ne_letters_of_startsNumber hstart
    exact ⟨fun h => absurd h hnull, fun h => absurd h hquote,
      fun h => absurd h (ne_of_startsNumber hstart (by decide))⟩

/-- What a tree means that may be null, for what it means if it is not. -/
def Tree.optional? (t : Tree) (a? : Option α) : Option (Option α) :=
  match t with
  | .null => some none
  | _ => a?.map some

lemma takes_readOptional {read : Reader α} {t : Tree} {w : Space} {rest : List Char}
    {a? : Option α} (hread : Takes (read (w.chars ++ t.textBefore rest)) rest a?) :
    Takes (readOptional read (w.chars ++ t.textBefore rest)) rest (t.optional? a?) := by
  by_cases ht : t = .null
  · subst ht
    obtain ⟨h, hskip⟩ := skipSpace_append w (c := 'n') rfl ('u' :: 'l' :: 'l' :: rest)
    rw [Tree.textBefore, readOptional, hskip]
    refine (takes_word Found.null ['u', 'l', 'l'] rest).bind (b := fun _ => some none)
      fun found h' _ => takes_ok none _
  · obtain ⟨c, cs, htext, hspace, hnull, -⟩ := t.exists_first_char rest
    obtain ⟨h, hskip⟩ := skipSpace_append w hspace cs
    have hmeans : t.optional? a? = a?.map some := by
      cases t with
      | null => exact absurd rfl ht
      | bool b | number x | string l | array items close | object members close => rfl
    rw [hmeans]
    rw [htext] at hread ⊢
    rw [readOptional, hskip]
    split
    · next heq => exact absurd (hnull (List.cons.inj (congrArg Subtype.val heq)).1) ht
    · exact hread.map (fun _ => rfl) fun _ => rfl

/-! ## Lists -/

/-- The list that a tree means to a reader that may open `room` containers, for what its elements
mean. -/
def Tree.list? (value? : Nat → Tree → Option α) : Nat → Tree → Option (List α)
  | room + 1, .array items _ => items.mapM fun i => value? room i.value
  | _, _ => none

/-- Reading a written list gives what its elements mean. -/
lemma takes_readList {read : Nat → Reader α} {value? : Nat → Tree → Option α}
    (hread : ∀ room t (w : Space) tail, Delimited tail →
      Takes (read room (w.chars ++ t.textBefore tail)) tail (value? room t))
    (t : Tree) (room : Nat) (w : Space) (rest : List Char) :
    Takes (readList read room (w.chars ++ t.textBefore rest)) rest (t.list? value? room) := by
  by_cases ht : t.IsScalar
  · obtain ⟨c, cs, htext, hspace, harray, hobject⟩ := ht.exists_textBefore_eq_cons rest
    obtain ⟨h, hskip⟩ := skipSpace_append w hspace cs
    have hnone : t.list? value? room = none := by
      match t, ht with
      | .null, _ | .bool _, _ | .number _, _ | .string _, _ => cases room <;> rfl
    rw [htext, readList, hskip, hnone]
    simp only [if_neg harray]
    exact takes_error _ rest
  cases t with
  | null | bool b | number x | string l => exact absurd trivial ht
  | array items close =>
    obtain ⟨h, hskip⟩ := skipSpace_append w (c := '[') rfl (Tree.itemsInside items close rest)
    rw [Tree.textBefore_array, readList, hskip]
    cases room with
    | zero => exact takes_error _ rest
    | succ room =>
      simp only [if_true, Tree.list?]
      have hitems := takes_readItems items close rest
        fun i _ tail htail => hread room i.value .empty tail htail
      have hlist := hitems.map (b := id) (g := fun p => p.behind.widen h) (fun _ => rfl)
        fun _ => rfl
      rwa [Option.map_id] at hlist
  | object members close =>
    obtain ⟨h, hskip⟩ := skipSpace_append w (c := '{') rfl (Tree.membersInside members close rest)
    have hnone : (Tree.object members close).list? value? room = none := by cases room <;> rfl
    rw [Tree.textBefore_object, readList, hskip, hnone]
    exact takes_error _ rest

/-! ## Words out of a choice -/

section Choices

variable (choice : List (String × α))

/-- What a tree means as a word: a string, or an object with one member whose value is null, whose
name is a word of the choice. -/
def Tree.chosen? : Nat → Tree → Option α
  | _, .string l => l.value?.bind (List.lookup · choice)
  | _ + 1, .object [m] _ => do
    let word ← m.1.value.value?
    let a ← List.lookup word choice
    m.2.value.unit?
    return a
  | _, _ => none

variable {choice}

/-- A word is looked up before anything is read behind it. -/
lemma takes_chosen {β : Type} {n : Nat} (word : String) {rest : List Char}
    {k : α → Except Fault (Parsed β n)} {b? : α → Option β} (hk : ∀ a, Takes (k a) rest (b? a)) :
    Takes (chosen choice word >>= k) rest ((List.lookup word choice).bind b?) := by
  rw [chosen]
  cases List.lookup word choice with
  | none => exact takes_error _ rest
  | some a => exact hk a

lemma takes_readChoice_other {t : Tree} (hstring : ∀ l, t ≠ .string l)
    (hobject : ∀ members close, t ≠ .object members close) (room : Nat) (w : Space)
    (rest : List Char) :
    Takes (readChoice choice room (w.chars ++ t.textBefore rest)) rest (t.chosen? choice room) := by
  obtain ⟨c, cs, htext, hspace, -, hstring?, hobject?⟩ := t.exists_first_char rest
  have hquote : c ≠ '"' := fun h => (hstring? h).elim hstring
  have hbrace : c ≠ '{' := by
    intro h
    obtain ⟨members, close, heq⟩ := hobject? h
    exact hobject members close heq
  obtain ⟨h, hskip⟩ := skipSpace_append w hspace cs
  have hnone : t.chosen? choice room = none := by
    match t with
    | .string l => exact absurd rfl (hstring l)
    | .object members close => exact absurd rfl (hobject members close)
    | .null | .bool _ | .number _ | .array _ _ => cases room <;> rfl
  rw [htext, readChoice, hskip, hnone]
  simp only [if_neg hquote, if_neg hbrace]
  exact takes_error _ rest

lemma Tree.chosen?_object_cons (room : Nat) (m : Member) (members : List Member) (close : Space) :
    (object (m :: members) close).chosen? choice (room + 1) =
      m.1.value.value?.bind fun word => (List.lookup word choice).bind fun a =>
        m.2.value.unit?.bind fun _ => if members = [] then some a else none := by
  cases members with
  | nil => rfl
  | cons m' members =>
    simp only [chosen?, List.cons_ne_nil, if_false, Option.bind_fun_none]

/-- An object is a word if it has one member and null under it. -/
lemma takes_readChoice_object (members : List Member) (close : Space) (room : Nat) (w : Space)
    (rest : List Char) :
    Takes (readChoice choice (room + 1) (w.chars ++ (Tree.object members close).textBefore rest))
      rest ((Tree.object members close).chosen? choice (room + 1)) := by
  rw [Tree.textBefore_object]
  cases members with
  | nil =>
    obtain ⟨h, hskip⟩ := skipSpace_append w (c := '{') rfl (close.chars ++ '}' :: rest)
    obtain ⟨h₁, hclose⟩ := skipSpace_append close (c := '}') rfl rest
    rw [Tree.membersInside, readChoice, hskip]
    simp only [if_neg (by decide : '{' ≠ '"'), if_true, Nat.succ_ne_zero, if_false, hclose]
    exact takes_error _ rest
  | cons m members =>
    obtain ⟨h, hskip⟩ := skipSpace_append w (c := '{') rfl
      (m.1.before.chars ++ '"' :: m.inside (m.2.after.chars ++
        Tree.membersBefore members (close.chars ++ '}' :: rest)))
    obtain ⟨h₁, hquote⟩ := skipSpace_append m.1.before (c := '"') rfl
      (m.inside (m.2.after.chars ++ Tree.membersBefore members (close.chars ++ '}' :: rest)))
    rw [membersInside_cons, readChoice, hskip]
    simp only [if_neg (by decide : '{' ≠ '"'), if_true, Nat.succ_ne_zero, if_false, hquote]
    rw [Tree.chosen?_object_cons]
    refine (takes_readString m.1.value _).bind fun word h₂ _ => ?_
    refine takes_chosen word fun a => ?_
    obtain ⟨h₃, hcolon⟩ := takeColon_append m.1.after (m.2.before.chars ++
      m.2.value.textBefore (m.2.after.chars ++
        Tree.membersBefore members (close.chars ++ '}' :: rest)))
    simp only [hcolon]
    have hunit := takes_readUnit m.2.value m.2.before
      (Tree.delimited_members m.2.after members close rest)
    refine hunit.bind fun _ h₄ _ => ?_
    cases members with
    | nil =>
      obtain ⟨h₅, hclose⟩ := skipSpace_append_append m.2.after close (c := '}') rfl rest
      simp only [Tree.membersBefore, hclose]
      exact takes_ok a _
    | cons m' members =>
      obtain ⟨h₅, hcomma⟩ := skipSpace_append m.2.after (c := ',') rfl
        (m'.1.before.chars ++ '"' :: m'.inside (m'.2.after.chars ++
          Tree.membersBefore members (close.chars ++ '}' :: rest)))
      simp only [membersBefore_cons, hcomma]
      exact takes_error _ rest

/-- Reading a written word gives what it stands for. -/
lemma takes_readChoice (t : Tree) (room : Nat) (w : Space) (rest : List Char) :
    Takes (readChoice choice room (w.chars ++ t.textBefore rest)) rest (t.chosen? choice room) := by
  cases t with
  | null | bool b | number x | array items close =>
    exact takes_readChoice_other (by simp) (by simp) room w rest
  | string l =>
    obtain ⟨h, hskip⟩ := skipSpace_append w (c := '"') rfl
      (Literal.innerText l.pieces ++ '"' :: rest)
    rw [Tree.textBefore, Literal.textBefore, readChoice, hskip]
    simp only [if_true, Tree.chosen?]
    refine (takes_readString l rest).bind fun word h' _ => ?_
    have hword : Takes (chosen choice word >>= fun a =>
        pure (Parsed.widen (Parsed.behind ⟨a, rest, h'⟩) h)) rest
          ((List.lookup word choice).bind some) := takes_chosen word fun a => takes_ok a _
    rwa [Option.bind_fun_some] at hword
  | object members close =>
    cases room with
    | zero =>
      obtain ⟨h, hskip⟩ := skipSpace_append w (c := '{') rfl (Tree.membersInside members close rest)
      have hnone : (Tree.object members close).chosen? choice 0 = none := by
        rcases members with - | ⟨m, - | ⟨m', members⟩⟩ <;> rfl
      rw [Tree.textBefore_object, readChoice, hskip, hnone]
      exact takes_error _ rest
    | succ room => exact takes_readChoice_object members close room w rest

end Choices

end Json
end SchemaCut
