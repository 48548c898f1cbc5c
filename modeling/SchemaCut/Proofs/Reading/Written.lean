import SchemaCut.Json.Printer
import SchemaCut.Proofs.Reading.Bounds
import SchemaCut.Proofs.Reading.Schemas

/-!
# What is written

The text that is written for a value is the text of a tree, in either layout, and the tree means
the value again: nothing of it is lost.  Numbers are the exception.  What is written for a double
is the shortest numeral that is nearest to it, and which double is read from that is a matter of
rounding, so the values here are those whose numbers are integers of 64 bits.

* `exists_tree` : every such value is written as a tree that means it.
* `ofDocument_written` : the same for the document of a schema.
-/

namespace SchemaCut
namespace Json

/-! ## Numbers of a value -/

mutual

/-- The numbers in a value. -/
def numbers : Json → List Number
  | .num n => [n]
  | .arr items => numbersItems items
  | .obj members => numbersMembers members
  | .null | .bool _ | .str _ => []
termination_by structural v => v

/-- The numbers in a list of values. -/
def numbersItems : List Json → List Number
  | [] => []
  | v :: vs => numbers v ++ numbersItems vs
termination_by structural vs => vs

/-- The numbers in the values of members. -/
def numbersMembers : List (String × Json) → List Number
  | [] => []
  | (_, v) :: ms => numbers v ++ numbersMembers ms
termination_by structural ms => ms

end

/-- Every number in a value is an integer of 64 bits. -/
def Integral (v : Json) : Prop := ∀ n ∈ v.numbers, n.Integral

lemma integral_arr_iff {items : List Json} :
    (arr items).Integral ↔ ∀ v ∈ items, v.Integral := by
  simp only [Integral, numbers]
  induction items with
  | nil => simp [numbersItems]
  | cons v vs ih => simp [numbersItems, or_imp, forall_and, ih]

lemma integral_obj_iff {members : List (String × Json)} :
    (obj members).Integral ↔ ∀ m ∈ members, m.2.Integral := by
  simp only [Integral, numbers]
  induction members with
  | nil => simp [numbersMembers]
  | cons m ms ih => obtain ⟨name, v⟩ := m; simp [numbersMembers, or_imp, forall_and, ih]

/-! ## Trees of written values -/

/-- The white space in front of what stands `depth` containers deep. -/
def lineStart (layout : Layout) (depth : Nat) : Space where
  chars := layout.newline depth
  blank c hc := by
    cases layout with
    | pretty =>
      rcases List.mem_cons.1 hc with rfl | hc
      · rfl
      · rw [List.eq_of_mem_replicate hc]
        rfl
    | compact => exact absurd hc List.not_mem_nil

/-- The white space behind a colon. -/
def colonSpace : Layout → Space
  | .pretty => .single
  | .compact => .empty

lemma colon_eq (layout : Layout) : layout.colon = ':' :: (colonSpace layout).chars := by
  cases layout <;> rfl

/-- A tree whose text is what is written for a value. -/
abbrev HasText (layout : Layout) (depth : Nat) (v : Json) (t : Tree) : Prop :=
  ∀ rest, t.textBefore rest = write layout depth v ++ rest

/-- A tree that is written for a value and means it. -/
structure IsWritten (layout : Layout) (depth room : Nat) (v : Json) (t : Tree) : Prop where
  text : HasText layout depth v t
  value : t.value? room = some v

/-- Members that have the names of entries one by one, and values that are related to these. -/
inductive Lists (R : String × Json → Tree → Prop) : List (String × Json) → List Member → Prop
  | nil : Lists R [] []
  | cons {e : String × Json} {m : Member} {es : List (String × Json)} {members : List Member}
    (name : m.name? = some e.1) (value : R e m.2.value) (more : Lists R es members) :
    Lists R (e :: es) (m :: members)

section Containers

variable {layout : Layout} {depth room : Nat}

lemma exists_items {vs : List Json}
    (h : ∀ v ∈ vs, ∃ t, IsWritten layout (depth + 1) room v t) :
    ∃ items, (∀ rest, Tree.itemsBefore items rest = writeItems layout depth vs ++ rest) ∧
      Tree.itemValues? room items = some vs := by
  induction vs with
  | nil => exact ⟨[], fun _ => rfl, rfl⟩
  | cons v vs ih =>
    obtain ⟨t, htext, hvalue⟩ := h v List.mem_cons_self
    obtain ⟨items, htexts, hvalues⟩ := ih fun w hw => h w (List.mem_cons_of_mem v hw)
    refine ⟨⟨lineStart layout (depth + 1), t, .empty⟩ :: items, fun rest => ?_, ?_⟩
    · simp [Tree.itemsBefore, writeItems, htext, htexts, lineStart, Space.empty]
    · rw [Tree.itemValues?, hvalue, hvalues]
      rfl

lemma exists_members {ms : List (String × Json)} {R : String × Json → Tree → Prop}
    (h : ∀ m ∈ ms, ∃ t, HasText layout (depth + 1) m.2 t ∧ R m t) :
    ∃ members, (∀ rest, Tree.membersBefore members rest = writeMembers layout depth ms ++ rest) ∧
      Lists R ms members := by
  induction ms with
  | nil => exact ⟨[], fun _ => rfl, .nil⟩
  | cons m ms ih =>
    obtain ⟨name, v⟩ := m
    obtain ⟨t, htext, hvalue⟩ := h (name, v) List.mem_cons_self
    obtain ⟨l, hname, hmeans⟩ := exists_literal name
    obtain ⟨members, htexts, hvalues⟩ := ih fun w hw => h w (List.mem_cons_of_mem _ hw)
    refine ⟨(⟨lineStart layout (depth + 1), l, .empty⟩, ⟨colonSpace layout, t, .empty⟩) :: members,
      fun rest => ?_, .cons hmeans hvalue hvalues⟩
    simp [Tree.membersBefore, writeMembers, htext, htexts, lineStart, Space.empty, ← hname,
      Literal.text, Literal.textBefore, colon_eq]

lemma write_arr_cons (layout : Layout) (depth : Nat) (v : Json) (vs : List Json) :
    write layout depth (arr (v :: vs)) =
      '[' :: (writeItems layout depth (v :: vs)).tail ++ layout.newline depth ++ [']'] := by
  simp [write, writeItems]

lemma write_obj_cons (layout : Layout) (depth : Nat) (m : String × Json)
    (ms : List (String × Json)) :
    write layout depth (obj (m :: ms)) =
      '{' :: (writeMembers layout depth (m :: ms)).tail ++ layout.newline depth ++ ['}'] := by
  simp [write, writeMembers]

lemma itemsInside_cons (i : Spaced Tree) (items : List (Spaced Tree)) (close : Space)
    (rest : List Char) :
    Tree.itemsInside (i :: items) close rest =
      (Tree.itemsBefore (i :: items) (close.chars ++ ']' :: rest)).tail := rfl

lemma membersInside_eq_tail (m : Member) (members : List Member) (close : Space)
    (rest : List Char) :
    Tree.membersInside (m :: members) close rest =
      (Tree.membersBefore (m :: members) (close.chars ++ '}' :: rest)).tail := rfl

/-- An array is written with its first element where the comma of a further one would be. -/
lemma exists_array (layout : Layout) (depth : Nat) {vs : List Json}
    (h : ∀ v ∈ vs, ∃ t, IsWritten layout (depth + 1) room v t) :
    ∃ items close, (∀ rest, (Tree.array items close).textBefore rest =
        write layout depth (arr vs) ++ rest) ∧
      Tree.itemValues? room items = some vs := by
  obtain ⟨items, htexts, hvalues⟩ := exists_items h
  match items, vs with
  | [], [] => exact ⟨[], .empty, fun rest => rfl, rfl⟩
  | [], _ :: _ => cases hvalues
  | i :: items, [] => exact absurd (htexts []) (List.cons_ne_nil _ _)
  | i :: items, v :: vs =>
    refine ⟨i :: items, lineStart layout depth, fun rest => ?_, hvalues⟩
    rw [Tree.textBefore_array, itemsInside_cons, htexts, write_arr_cons]
    simp [writeItems, lineStart]

/-- An object is written for any members whose values are. -/
lemma exists_object (layout : Layout) (depth : Nat) {ms : List (String × Json)}
    {R : String × Json → Tree → Prop}
    (h : ∀ m ∈ ms, ∃ t, HasText layout (depth + 1) m.2 t ∧ R m t) :
    ∃ members close, HasText layout depth (obj ms) (.object members close) ∧
      Lists R ms members := by
  obtain ⟨members, htexts, hvalues⟩ := exists_members h
  cases hvalues with
  | nil => exact ⟨[], .empty, fun rest => rfl, .nil⟩
  | @cons e m ms members hname hvalue hms =>
    refine ⟨m :: members, lineStart layout depth, fun rest => ?_, .cons hname hvalue hms⟩
    rw [Tree.textBefore_object, membersInside_eq_tail, htexts, write_obj_cons]
    simp [writeMembers, lineStart]

lemma entries?_of_lists {ms : List (String × Json)} {members : List Member}
    (h : Lists (fun e t => t.value? room = some e.2) ms members) :
    Tree.entries? room members = some ms := by
  induction h with
  | nil => rfl
  | @cons e m ms members hname hvalue _ ih =>
    obtain ⟨name, before, t, after⟩ := m
    rw [Tree.entries?, show name.value.value? = some e.1 from hname,
      show t.value? room = some e.2 from hvalue, ih]
    rfl

end Containers

/-- A value that reads back when it is written where `room` containers may be opened. -/
theorem exists_tree {v : Json} {room : Nat} (hbounded : v.Bounded room) (hintegral : v.Integral)
    (layout : Layout) (depth : Nat) : ∃ t, IsWritten layout depth room v t := by
  induction v using Json.induct generalizing room depth with
  | null => exact ⟨.null, fun _ => rfl, rfl⟩
  | bool b => cases b <;> exact ⟨.bool _, fun _ => rfl, rfl⟩
  | num n =>
    obtain ⟨x, htext, hvalue⟩ := exists_figure (hintegral n (by simp [numbers]))
    refine ⟨.number x, fun rest => ?_, ?_⟩
    · rw [Tree.textBefore, htext, write]
    · rw [Tree.value?, hvalue]
      rfl
  | str s =>
    obtain ⟨l, htext, hvalue⟩ := exists_literal s
    refine ⟨.string l, fun rest => ?_, ?_⟩
    · rw [write, ← htext]
      simp [Tree.textBefore, Literal.textBefore, Literal.text]
    · rw [Tree.value?, hvalue]
      rfl
  | arr items ih =>
    cases room with
    | zero => exact absurd hbounded.depth_le (by simp [Json.depth])
    | succ room =>
      rw [bounded_arr_iff] at hbounded
      rw [integral_arr_iff] at hintegral
      obtain ⟨written, close, htext, hvalues⟩ := exists_array layout depth
        fun v hv => ih v hv (hbounded v hv) (hintegral v hv) (depth + 1)
      exact ⟨.array written close, htext, by rw [Tree.value?, hvalues]; rfl⟩
  | obj members ih =>
    cases room with
    | zero => exact absurd hbounded.depth_le (by simp [Json.depth])
    | succ room =>
      rw [bounded_obj_iff] at hbounded
      rw [integral_obj_iff] at hintegral
      obtain ⟨written, close, htext, hvalues⟩ := exists_object layout depth fun m hm =>
        (ih m hm (hbounded.2 m hm) (hintegral m hm) (depth + 1)).imp fun _ ht => ⟨ht.text, ht.value⟩
      refine ⟨.object written close, htext, ?_⟩
      rw [Tree.value?, entries?_of_lists hvalues, Option.map_some,
        Entries.ofList_of_ascending hbounded.1]

lemma text_eq_of_hasText {layout : Layout} {v : Json} {t : Tree} (h : HasText layout 0 v t) :
    Spaced.text ⟨.empty, t, .empty⟩ = v.text layout := by
  rw [Spaced.text, text]
  simp only [Space.empty, List.nil_append, h [], List.append_nil]

end Json

/-! ## Schemas -/

namespace Schema

open Json

/-- The sections of a schema whose definitions leave room for document and section. -/
lemma bounded_section {s : Schema} (hbounded : s.All (Bounded 125)) (k : Kind) :
    (Json.obj (s.definitions k).entries).Bounded 126 := by
  refine bounded_obj_iff.2 ⟨(s.definitions k).ascending, fun e he => ?_⟩
  exact hbounded ⟨k, e.1⟩ e.2 (NameMap.find?_eq_some_iff.2 he)

lemma integral_section {s : Schema} (hintegral : s.All Integral) (k : Kind) :
    (Json.obj (s.definitions k).entries).Integral :=
  integral_obj_iff.2 fun e he => hintegral ⟨k, e.1⟩ e.2 (NameMap.find?_eq_some_iff.2 he)

/-- What is written for a schema is a document of the schema. -/
theorem ofDocument_written {s : Schema} (hbounded : s.All (Bounded 125))
    (hintegral : s.All Integral) (layout : Layout) : ofDocument (s.text layout) = .ok s := by
  have hsections : ∀ m ∈ Kind.all.map fun k => (k.sectionName, obj (s.definitions k).entries),
      ∃ t, HasText layout 1 m.2 t ∧ t.value? 126 = some m.2 := by
    rw [List.forall_mem_map]
    intro k _
    exact (exists_tree (bounded_section hbounded k) (integral_section hintegral k) layout 1).imp
      fun _ ht => ⟨ht.text, ht.value⟩
  obtain ⟨members, close, htext, hvalues⟩ := exists_object layout 0 hsections
  have hread := ofDocument_text ⟨.empty, .object members close, .empty⟩
  have hwritten : Spaced.text ⟨.empty, .object members close, .empty⟩ = s.text layout :=
    text_eq_of_hasText htext
  rw [hwritten, meaning?_of_entries close (entries?_of_lists hvalues)] at hread
  exact toOption_eq_some_iff.1 hread

end Schema
end SchemaCut
