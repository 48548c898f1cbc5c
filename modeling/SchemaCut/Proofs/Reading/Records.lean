import SchemaCut.Json.Record
import SchemaCut.Proofs.Reading.Skipping

/-!
# Reading maps and records

A map is an object whose members are all read alike.  A record is written as an object of its
fields or as an array of them.  In an object a field may stand anywhere, and what is no field is
passed over without a trace; in an array the fields stand in their order.

`Record.value?` says what a tree means as a record, for a given meaning of its fields.

* `takes_readMap` : reading a written map of values gives its entries.
* `takes_record` : reading a written record gives what it means, if its fields are read as they are
  meant.
* `readAll_text` : the same for a text that is read to its end.
-/

namespace SchemaCut
namespace Json

/-! ## Maps -/

/-- The map that a value is. -/
def map? : Json → Option (NameMap Json)
  | .obj members => some (.ofList members)
  | _ => none

lemma map?_obj_entries (p : NameMap Json) : (obj p.entries).map? = some p := by
  obtain ⟨entries, ascending⟩ := p
  simp only [map?, NameMap.ofList, Entries.ofList_of_ascending ascending]

/-- The map that a tree means to a reader that may open `room` containers. -/
def Tree.map? (room : Nat) (t : Tree) : Option (NameMap Json) := (t.value? room).bind Json.map?

lemma Tree.IsScalar.map?_eq_none {t : Tree} (ht : t.IsScalar) (room : Nat) :
    t.map? room = none := by
  rw [map?, ht.value?_eq]
  cases t.scalar? with
  | none => rfl
  | some found => cases found <;> rfl

lemma Tree.map?_array (items : List (Spaced Tree)) (close : Space) (room : Nat) :
    (array items close).map? room = none := by
  cases room with
  | zero => rfl
  | succ room =>
    rw [map?, value?]
    cases itemValues? room items <;> rfl

lemma Tree.map?_object (members : List Member) (close : Space) (room : Nat) :
    (object members close).map? (room + 1) = (entries? room members).map NameMap.ofList := by
  rw [map?, value?]
  cases entries? room members with
  | none => rfl
  | some es => exact map?_obj_entries (.ofList es)

/-- Putting entries into a map puts them into its list. -/
lemma foldl_insert (es : List (String × Json)) (p : NameMap Json) :
    (es.foldl (fun p e => p.insert e.1 e.2) p).entries =
      es.foldl (fun acc e => Entries.put e.1 e.2 acc) p.entries := by
  induction es generalizing p with
  | nil => rfl
  | cons e es ih => exact ih (p.insert e.1 e.2)

lemma foldl_insert_empty (es : List (String × Json)) :
    es.foldl (fun p e => p.insert e.1 e.2) ∅ = NameMap.ofList es := by
  refine NameMap.ext_find? fun n => ?_
  rw [NameMap.find?, foldl_insert]
  rfl

/-- Reading a written map of values gives its entries. -/
theorem takes_readMap (t : Tree) (room : Nat) (w : Space) (rest : List Char) :
    Takes (readMap readValue room (w.chars ++ t.textBefore rest)) rest (t.map? room) := by
  by_cases ht : t.IsScalar
  · obtain ⟨c, cs, htext, hspace, harray, hobject⟩ := ht.exists_textBefore_eq_cons rest
    obtain ⟨h, hskip⟩ := skipSpace_append w hspace cs
    rw [htext, readMap, hskip, ht.map?_eq_none]
    simp only [if_neg hobject]
    exact takes_error _ rest
  cases t with
  | null | bool b | number x | string l => exact absurd trivial ht
  | array items close =>
    obtain ⟨h, hskip⟩ := skipSpace_append w (c := '[') rfl
      (Tree.itemsInside items close rest)
    rw [Tree.textBefore_array, readMap, hskip, Tree.map?_array]
    exact takes_error _ rest
  | object members close =>
    obtain ⟨h, hskip⟩ := skipSpace_append w (c := '{') rfl
      (Tree.membersInside members close rest)
    rw [Tree.textBefore_object, readMap, hskip]
    cases room with
    | zero => exact takes_error _ rest
    | succ room =>
      have hentries : (Tree.entries? room members).map NameMap.ofList =
          (members.foldlM (Member.next? (joined? (fun n v p => p.insert n v) room)) ∅).map id := by
        rw [Option.map_id, foldlM_joined?, funext foldl_insert_empty]
        rfl
      rw [Tree.map?_object, hentries]
      refine (takes_readMembers members close rest ?_ ∅).map (fun _ => rfl) fun _ => rfl
      exact fun m _ p n tail htail => takes_behindColon
        (takes_readValue m.2.value room m.2.before htail) m.1.after fun v => p.insert n v

/-! ## Records -/

namespace Record

variable {σ α : Type} (r : Record σ α) (meaning : Field σ → σ → Tree → Option σ)

/-- What a member means to a record of which `s` is known: a field that is new, or nothing. -/
def member? (s : σ) (n : String) (t : Tree) : Option σ :=
  match r.fields.find? (·.name = n) with
  | some field => if field.given s then none else meaning field s t
  | none => some s

/-- What the elements of an array mean as fields in their order, and the fields that are left. -/
def elements? : List (Field σ) → List (Spaced Tree) → σ → Option (σ × List (Field σ))
  | fields, [], s => some (s, fields)
  | [], _ :: _, _ => none
  | field :: fields, i :: items, s => do
    let s' ← meaning field s i.value
    elements? fields items s'

/-- What a tree means as a record to a reader that may open `room` containers. -/
def value? (meaning : Nat → Field σ → σ → Tree → Option σ) : Nat → Tree → Option α
  | room + 1, .object members _ => do
    let s ← members.foldlM (Member.next? (r.member? (meaning room))) r.start
    (r.ofMembers s).toOption
  | room + 1, .array items _ => do
    let (s, left) ← elements? (meaning room) r.fields items r.start
    (r.ofElements s left).toOption
  | _, _ => none

variable {r meaning} {room : Nat}

/-- A field is read as it is meant. -/
def FieldTakes (room : Nat) (meaning : Field σ → σ → Tree → Option σ) (t : Tree) (field : Field σ) :
    Prop :=
  ∀ s (w : Space) tail, Delimited tail →
    Takes (field.read room s (w.chars ++ t.textBefore tail)) tail (meaning field s t)

lemma takes_memberStep {m : Member}
    (hfields : ∀ field ∈ r.fields, FieldTakes room meaning m.2.value field) :
    StepTakes (r.memberStep room) (r.member? meaning) m := by
  intro s n tail htail
  rw [memberStep, member?]
  cases hfield : r.fields.find? (·.name = n) with
  | none =>
    exact takes_behindColon (takes_skip m.2.value m.2.before htail) m.1.after fun _ => s
  | some field =>
    simp only
    split
    · exact takes_error _ tail
    · have hread := hfields field (List.mem_of_find?_eq_some hfield) s m.2.before tail htail
      have hvalue := takes_behindColon hread m.1.after id
      rwa [Option.map_id] at hvalue

/-! An array of fields is read element by element; after the last field it has to end. -/

section Elements

variable {n : Nat} {s : σ} {rest cs : List Char}

lemma readArrayEnd_close (w w' : Space) (rest : List Char) :
    ∃ h, readArrayEnd (w.chars ++ (w'.chars ++ ']' :: rest)) = .ok ⟨rest, h⟩ := by
  obtain ⟨h, hskip⟩ := skipSpace_append_append w w' (c := ']') rfl rest
  exact ⟨by simp; omega, by rw [readArrayEnd, hskip]; rfl⟩

lemma readArrayEnd_more (w : Space) {c : Char} (hc : isSpace c = false) (hclose : c ≠ ']')
    (tail : List Char) : ∃ f, readArrayEnd (w.chars ++ c :: tail) = .error f := by
  obtain ⟨h, hskip⟩ := skipSpace_append w hc tail
  rw [readArrayEnd, hskip]
  simp only [if_neg hclose]
  split
  · exact ⟨_, rfl⟩
  · exact ⟨_, rfl⟩

/-- Without a field left the array has to end. -/
lemma takes_readFields_nil {first : Bool} {items : List (Spaced Tree)} {h : cs.length < n}
    (hempty : items = [] → ∃ h, readArrayEnd cs = .ok ⟨rest, h⟩)
    (hmore : items ≠ [] → ∃ f, readArrayEnd cs = .error f) :
    Takes (readFields room n [] first s cs h) rest (elements? meaning [] items s) := by
  rw [readFields]
  cases items with
  | nil =>
    obtain ⟨h', hend⟩ := hempty rfl
    rw [hend]
    exact takes_ok (s, []) _
  | cons i items =>
    obtain ⟨f, hend⟩ := hmore (List.cons_ne_nil i items)
    rw [hend]
    exact takes_error f rest

lemma takes_readFields_more {fields : List (Field σ)} {items : List (Spaced Tree)}
    (hfields : ∀ field ∈ fields, ∀ i ∈ items, FieldTakes room meaning i.value field)
    (close after : Space)
    (hcs : cs = after.chars ++ Tree.itemsBefore items (close.chars ++ ']' :: rest))
    (h : cs.length < n) :
    Takes (readFields room n fields false s cs h) rest (elements? meaning fields items s) := by
  induction fields generalizing items after s cs with
  | nil =>
    subst hcs
    refine takes_readFields_nil ?_ ?_
    · rintro rfl
      exact readArrayEnd_close after close rest
    · intro hitems
      obtain ⟨i, items, rfl⟩ := List.exists_cons_of_ne_nil hitems
      exact readArrayEnd_more after (by decide) (by decide) _
  | cons field fields ih =>
    cases items with
    | nil =>
      obtain ⟨h₁, hskip⟩ := skipSpace_append_append after close (c := ']') rfl rest
      rw [Tree.itemsBefore] at hcs
      subst hcs
      rw [readFields, hskip]
      exact takes_ok (s, field :: fields) _
    | cons i items =>
      obtain ⟨before, t, after'⟩ := i
      obtain ⟨c, ds, htext, hspace, hclose⟩ := t.exists_textBefore_eq_cons
        (after'.chars ++ Tree.itemsBefore items (close.chars ++ ']' :: rest))
      have hvalue := hfields field List.mem_cons_self ⟨before, t, after'⟩ List.mem_cons_self s
        .empty _ (Tree.delimited_items after' items close rest)
      obtain ⟨h₁, hcomma⟩ := skipSpace_append after (c := ',') rfl (before.chars ++ c :: ds)
      obtain ⟨h₂, hskip⟩ := skipSpace_append before hspace ds
      rw [Tree.itemsBefore, htext] at hcs
      subst hcs
      change Takes (field.read room s (t.textBefore _)) _ _ at hvalue
      rw [htext] at hvalue
      rw [readFields, hcomma]
      simp only [if_neg (by decide : ',' ≠ ']'), Bool.false_eq_true, if_false, if_true, hskip,
        if_neg hclose]
      refine hvalue.bind fun s' h' _ => ?_
      exact ih (fun field' hf j hj =>
        hfields field' (List.mem_cons_of_mem _ hf) j (List.mem_cons_of_mem _ hj)) after' rfl _

lemma takes_readFields {fields : List (Field σ)} (items : List (Spaced Tree)) (close : Space)
    (rest : List Char) (s : σ)
    (hfields : ∀ field ∈ fields, ∀ i ∈ items, FieldTakes room meaning i.value field)
    (hcs : cs = Tree.itemsInside items close rest) (h : cs.length < n) :
    Takes (readFields room n fields true s cs h) rest (elements? meaning fields items s) := by
  cases items with
  | nil =>
    rw [Tree.itemsInside] at hcs
    subst hcs
    cases fields with
    | nil =>
      exact takes_readFields_nil (fun _ => readArrayEnd_close .empty close rest)
        fun hitems => absurd rfl hitems
    | cons field fields =>
      obtain ⟨h₁, hskip⟩ := skipSpace_append close (c := ']') rfl rest
      rw [readFields, hskip]
      exact takes_ok (s, field :: fields) _
  | cons i items =>
    obtain ⟨before, t, after⟩ := i
    obtain ⟨c, ds, htext, hspace, hclose⟩ := t.exists_textBefore_eq_cons
      (after.chars ++ Tree.itemsBefore items (close.chars ++ ']' :: rest))
    rw [Tree.itemsInside, htext] at hcs
    subst hcs
    cases fields with
    | nil =>
      exact takes_readFields_nil (fun hitems => absurd hitems (List.cons_ne_nil _ _)) fun _ =>
        readArrayEnd_more before hspace hclose ds
    | cons field fields =>
      have hvalue := hfields field List.mem_cons_self ⟨before, t, after⟩ List.mem_cons_self s
        .empty _ (Tree.delimited_items after items close rest)
      change Takes (field.read room s (t.textBefore _)) _ _ at hvalue
      obtain ⟨h₁, hskip⟩ := skipSpace_append before hspace ds
      rw [htext] at hvalue
      rw [readFields, hskip]
      simp only [if_neg hclose, if_true]
      refine hvalue.bind fun s' h' _ => ?_
      exact takes_readFields_more (fun field' hf j hj =>
        hfields field' (List.mem_cons_of_mem _ hf) j (List.mem_cons_of_mem _ hj)) close after rfl _

end Elements

/-- Reading a written record gives what it means. -/
theorem takes_record {meaning : Nat → Field σ → σ → Tree → Option σ}
    (hfields : ∀ room, ∀ field ∈ r.fields, ∀ t, FieldTakes room (meaning room) t field)
    (t : Tree) (room : Nat) (w : Space) (rest : List Char) :
    Takes (r.read room (w.chars ++ t.textBefore rest)) rest (r.value? meaning room t) := by
  by_cases ht : t.IsScalar
  · obtain ⟨c, cs, htext, hspace, harray, hobject⟩ := ht.exists_textBefore_eq_cons rest
    obtain ⟨h, hskip⟩ := skipSpace_append w hspace cs
    have hnone : r.value? meaning room t = none := by
      match t, ht with
      | .null, _ | .bool _, _ | .number _, _ | .string _, _ => cases room <;> rfl
    rw [htext, read, hskip, hnone]
    simp only [if_neg hobject, if_neg harray]
    exact takes_error _ rest
  cases t with
  | null | bool b | number x | string l => exact absurd trivial ht
  | array items close =>
    obtain ⟨h, hskip⟩ := skipSpace_append w (c := '[') rfl
      (Tree.itemsInside items close rest)
    rw [Tree.textBefore_array, read, hskip]
    cases room with
    | zero => exact takes_error _ rest
    | succ room =>
      simp only [if_neg (by decide : '[' ≠ '{'), if_true]
      have hfields := takes_readFields items close rest r.start
        (fun field hf i _ => hfields room field hf i.value) rfl
        (length_lt_cons '[' (Tree.itemsInside items close rest))
      refine hfields.bind fun p h' _ => ?_
      exact takes_checked (r.ofElements p.1 p.2) (Nat.lt_of_lt_of_le h' h)
  | object members close =>
    obtain ⟨h, hskip⟩ := skipSpace_append w (c := '{') rfl
      (Tree.membersInside members close rest)
    rw [Tree.textBefore_object, read, hskip]
    cases room with
    | zero => exact takes_error _ rest
    | succ room =>
      simp only [if_true]
      have hmembers := takes_readMembers members close rest
        (fun m _ => takes_memberStep fun field hf => hfields room field hf m.2.value) r.start
      refine hmembers.bind fun s h' _ => ?_
      exact takes_checked (r.ofMembers s) (Nat.lt_trans h' (Nat.lt_of_succ_le h))

end Record

/-! ## Texts -/

/-- A text that holds one value between white space. -/
def Spaced.text (d : Spaced Tree) : String :=
  String.ofList (d.before.chars ++ d.value.textBefore d.after.chars)

lemma skipSpace_chars (w : Space) : ∃ h, skipSpace w.chars = ⟨[], h⟩ := by
  have hdrop := dropWhile_space w []
  rw [List.append_nil] at hdrop
  exact ⟨Nat.zero_le _, Subtype.ext hdrop⟩

/-- A text is read to its end by what takes the value in it. -/
theorem readAll_text {α : Type} {read : Nat → Reader α} (d : Spaced Tree) {a? : Option α}
    (hread : Takes (read maxDepth (d.before.chars ++ d.value.textBefore d.after.chars))
      d.after.chars a?) : (readAll read d.text).toOption = a? := by
  rw [readAll, Spaced.text, String.toList_ofList]
  obtain ⟨h, hskip⟩ := skipSpace_chars d.after
  cases a? with
  | none =>
    obtain ⟨f, hf⟩ := hread
    rw [hf]
    rfl
  | some a =>
    obtain ⟨h', ha⟩ := hread
    rw [ha]
    simp only [bind, Except.bind, hskip]
    rfl

end Json
end SchemaCut
