import Mathlib.Data.List.Infix
import Mathlib.Tactic.Lemma
import SchemaCut.Proofs.References

/-!
# Places in a value

A place is the way from a value down to a value inside of it: the position of an element or of a
member, and so on from there.  `Json.at?` is the value at a place, and `Json.changeAt` changes it
there.  `Node` is what a value is apart from its parts: a scalar, the number of elements of an
array, the names of an object.

A change at one place is not seen at a place that is apart from it, and two changes at such places
can be swapped.  So several parts of a value can be changed one after the other, in any order, as
long as none of them is inside of another.

* `ext_at?` : a value is determined by the nodes at its places.
* `changeAt_comm`, `at?_changeAt_of_apart` : changes that do not meet.
* `foldl_changeAt_append` : changing parts of the value at a place is changing that value.
-/

namespace SchemaCut
namespace Json

/-! ## Nodes and values at places -/

/-- What a value is apart from its parts. -/
inductive Node where
  | null
  | bool (b : Bool)
  | num (n : Number)
  | str (s : String)
  | arr (size : Nat)
  | obj (names : List String)

/-- The value without its parts. -/
def node : Json → Node
  | .null => .null
  | .bool b => .bool b
  | .num n => .num n
  | .str s => .str s
  | .arr items => .arr items.length
  | .obj members => .obj (members.map Prod.fst)

lemma node_eq_str_iff {v : Json} {s : String} : v.node = .str s ↔ v = .str s := by
  cases v <;> simp [node]

/-- The number of parts of a value with such a node. -/
def Node.size : Node → Nat
  | .arr size => size
  | .obj names => names.length
  | .null | .bool _ | .num _ | .str _ => 0

/-- The value with a node and such parts. -/
def Node.build : Node → List Json → Json
  | .null, _ => .null
  | .bool b, _ => .bool b
  | .num n, _ => .num n
  | .str s, _ => .str s
  | .arr _, parts => .arr parts
  | .obj names, parts => .obj (names.zip parts)

lemma length_parts (v : Json) : v.parts.length = v.node.size := by
  cases v with
  | obj members => simp [parts, memberValues, node, Node.size]
  | null | bool b | num n | str s | arr items => rfl

lemma build_node_parts (v : Json) : v.node.build v.parts = v := by
  cases v with
  | obj members =>
    have hzip := List.zip_unzip members
    rw [List.unzip_eq_map] at hzip
    exact congrArg _ hzip
  | null | bool b | num n | str s | arr items => rfl

lemma eq_of_node_parts {v w : Json} (hnode : v.node = w.node) (hparts : v.parts = w.parts) :
    v = w := by
  rw [← build_node_parts v, hnode, hparts, build_node_parts w]

/-- The positions of the parts on the way to a value. -/
abbrev Place := List Nat

/-- The value at a place. -/
def at? : Json → Place → Option Json
  | v, [] => some v
  | v, i :: p => v.parts[i]?.bind fun u => u.at? p

@[simp] lemma at?_nil (v : Json) : v.at? [] = some v := rfl

@[simp] lemma at?_cons (v : Json) (i : Nat) (p : Place) :
    v.at? (i :: p) = v.parts[i]?.bind fun u => u.at? p := rfl

lemma at?_append (v : Json) (p q : Place) : v.at? (p ++ q) = (v.at? p).bind (·.at? q) := by
  induction p generalizing v with
  | nil => rfl
  | cons i p ih =>
    rw [List.cons_append, at?_cons, at?_cons, Option.bind_assoc]
    exact congrArg _ (funext ih)

/-- A value is determined by the nodes at its places. -/
theorem ext_at? {v w : Json} (h : ∀ p, (v.at? p).map node = (w.at? p).map node) : v = w := by
  induction v using induct_parts generalizing w with
  | step v ih =>
    have hnode : v.node = w.node := Option.some.inj (h [])
    refine eq_of_node_parts hnode (List.ext_getElem (by rw [length_parts, hnode, length_parts]) ?_)
    intro i hv hw
    refine ih _ (List.getElem_mem hv) fun p => ?_
    have hp := h (i :: p)
    rwa [at?_cons, at?_cons, List.getElem?_eq_getElem hv, List.getElem?_eq_getElem hw,
      Option.bind_some, Option.bind_some] at hp

/-! ## Changes -/

/-- Changes the part at a position. -/
def changePart (f : Json → Json) (i : Nat) : Json → Json
  | .arr items => .arr (items.modify i f)
  | .obj members => .obj (members.modify i fun m => (m.1, f m.2))
  | .null => .null
  | .bool b => .bool b
  | .num n => .num n
  | .str s => .str s

/-- Changes the value at a place. -/
def changeAt (f : Json → Json) : Place → Json → Json
  | [], v => f v
  | i :: p, v => v.changePart (changeAt f p) i

lemma memberValues_modify (f : Json → Json) (i : Nat) (ms : List (String × Json)) :
    memberValues (ms.modify i fun m => (m.1, f m.2)) = (memberValues ms).modify i f := by
  refine List.ext_getElem? fun j => ?_
  rw [memberValues, memberValues, List.getElem?_map, List.getElem?_modify, List.getElem?_modify,
    List.getElem?_map]
  cases ms[j]? with
  | none => rfl
  | some m => by_cases hij : i = j <;> simp [hij]

lemma parts_changePart (f : Json → Json) (i : Nat) (v : Json) :
    (v.changePart f i).parts = v.parts.modify i f := by
  cases v with
  | arr items => rfl
  | obj members => exact memberValues_modify f i members
  | null | bool b | num n | str s => exact (List.modify_nil f i).symm

lemma changePart_changePart (f g : Json → Json) (i : Nat) (v : Json) :
    (v.changePart g i).changePart f i = v.changePart (f ∘ g) i := by
  cases v with
  | arr items => exact congrArg _ (List.modify_modify_eq g f i items)
  | obj members => exact congrArg _ (List.modify_modify_eq _ _ i members)
  | null | bool b | num n | str s => rfl

lemma changePart_comm (f g : Json → Json) {i j : Nat} (h : i ≠ j) (v : Json) :
    (v.changePart g j).changePart f i = (v.changePart f i).changePart g j := by
  cases v with
  | arr items => exact congrArg _ (List.modify_modify_ne g f items h.symm)
  | obj members => exact congrArg _ (List.modify_modify_ne _ _ members h.symm)
  | null | bool b | num n | str s => rfl

lemma modify_congr {α : Type} {f g : α → α} {i : Nat} {xs : List α}
    (h : ∀ x, xs[i]? = some x → f x = g x) : xs.modify i f = xs.modify i g := by
  refine List.ext_getElem? fun j => ?_
  rw [List.getElem?_modify, List.getElem?_modify]
  by_cases hij : i = j
  · subst hij
    cases hx : xs[i]? with
    | none => rfl
    | some x => simp [h x hx]
  · simp [hij]

lemma changePart_congr {f g : Json → Json} {i : Nat} {v : Json}
    (h : ∀ u, v.parts[i]? = some u → f u = g u) : v.changePart f i = v.changePart g i := by
  cases v with
  | arr items => exact congrArg _ (modify_congr h)
  | obj members =>
    refine congrArg _ (modify_congr fun m hm => ?_)
    rw [h m.2 (by simp [parts, memberValues, hm])]
  | null | bool b | num n | str s => rfl

lemma changeAt_append (f : Json → Json) (p q : Place) (v : Json) :
    changeAt f (p ++ q) v = changeAt (changeAt f q) p v := by
  induction p generalizing v with
  | nil => rfl
  | cons i p ih => rw [List.cons_append, changeAt, changeAt, funext ih]

lemma changeAt_changeAt (f g : Json → Json) (p : Place) (v : Json) :
    changeAt f p (changeAt g p v) = changeAt (f ∘ g) p v := by
  induction p generalizing v with
  | nil => rfl
  | cons i p ih =>
    rw [changeAt, changeAt, changeAt, changePart_changePart]
    exact congrArg (changePart · i v) (funext ih)

/-- A change counts for the value that it meets only. -/
lemma changeAt_congr {f g : Json → Json} {p : Place} {v : Json}
    (h : ∀ u, v.at? p = some u → f u = g u) : changeAt f p v = changeAt g p v := by
  induction p generalizing v with
  | nil => exact h v rfl
  | cons i p ih =>
    refine changePart_congr fun u hu => ih fun x hx => h x ?_
    rw [at?_cons, hu]
    exact hx

lemma at?_changeAt_self (f : Json → Json) (p : Place) (v : Json) :
    (changeAt f p v).at? p = (v.at? p).map f := by
  induction p generalizing v with
  | nil => rfl
  | cons i p ih =>
    rw [changeAt, at?_cons, at?_cons, parts_changePart, List.getElem?_modify]
    cases v.parts[i]? with
    | none => rfl
    | some u => simpa using ih u

/-! ## Places that are apart -/

/-- Neither place is on the way to the other. -/
def Apart (p q : Place) : Prop := ¬ p <+: q ∧ ¬ q <+: p

lemma Apart.symm {p q : Place} (h : Apart p q) : Apart q p := ⟨h.2, h.1⟩

instance : Std.Symm Apart := ⟨fun _ _ h => h.symm⟩

lemma apart_cons_iff {i j : Nat} {p q : Place} :
    Apart (i :: p) (j :: q) ↔ i ≠ j ∨ Apart p q := by
  rw [Apart, Apart, List.cons_prefix_cons, List.cons_prefix_cons]
  grind

lemma not_apart_nil (p : Place) : ¬ Apart [] p := fun h => h.1 List.nil_prefix

/-- What is behind a place is apart from what the place is apart from. -/
lemma Apart.append {p q : Place} (h : Apart p q) (r : Place) : Apart (p ++ r) q := by
  refine ⟨fun hpre => h.1 ((List.prefix_append p r).trans hpre), fun hpre => ?_⟩
  rcases List.prefix_or_prefix_of_prefix hpre (List.prefix_append p r) with hq | hp
  · exact h.2 hq
  · exact h.1 hp

lemma apart_of_ne {i j : Nat} (h : i ≠ j) (p : Place) : Apart (p ++ [i]) (p ++ [j]) := by
  simp [Apart, List.prefix_append_right_inj, h, h.symm]

lemma changeAt_comm {p q : Place} (h : Apart p q) (f g : Json → Json) (v : Json) :
    changeAt f p (changeAt g q v) = changeAt g q (changeAt f p v) := by
  induction p generalizing q v with
  | nil => exact absurd h (not_apart_nil q)
  | cons i p ih =>
    cases q with
    | nil => exact absurd h.symm (not_apart_nil _)
    | cons j q =>
      rw [changeAt, changeAt, changeAt, changeAt]
      by_cases hij : i = j
      · subst hij
        have hpq : Apart p q := (apart_cons_iff.1 h).resolve_left fun hne => hne rfl
        rw [changePart_changePart, changePart_changePart]
        exact congrArg (changePart · i v) (funext (ih hpq))
      · exact changePart_comm _ _ hij v

lemma at?_changeAt_of_apart {p q : Place} (h : Apart p q) (f : Json → Json) (v : Json) :
    (changeAt f p v).at? q = v.at? q := by
  induction p generalizing q v with
  | nil => exact absurd h (not_apart_nil q)
  | cons i p ih =>
    cases q with
    | nil => exact absurd h.symm (not_apart_nil _)
    | cons j q =>
      rw [changeAt, at?_cons, at?_cons, parts_changePart, List.getElem?_modify]
      cases v.parts[j]? with
      | none => rfl
      | some u =>
        rcases apart_cons_iff.1 h with hij | hpq
        · simp [hij]
        · by_cases hij : i = j
          · simpa [hij] using ih hpq u
          · simp [hij]

/-- Changing some parts of the value at a place, once it has been changed itself, is one change of
that value. -/
lemma foldl_changeAt_append (f g : Json → Json) (p : Place) (is : List Nat) (v : Json) :
    is.foldl (fun c i => changeAt f (p ++ [i]) c) (changeAt g p v) =
      changeAt (fun u => is.foldl (fun c i => c.changePart f i) (g u)) p v := by
  induction is generalizing g with
  | nil => rfl
  | cons i is ih =>
    rw [List.foldl_cons, changeAt_append, changeAt_changeAt, ih]
    rfl

end Json
end SchemaCut
