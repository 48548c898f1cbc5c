import Mathlib.Data.List.Nodup
import SchemaCut.Checksum
import SchemaCut.Proofs.RoundTrip

/-!
# One schema in many spellings

The same document can be written with its members in another order, with other white space, and with
members at the top level that are no sections.  `SameDocument` says that two trees differ in nothing
else; inside of the sections this is `Tree.Alike`, which asks that no object repeats a name.

Both trees mean the same schema, so what is written for it, its checksum, and every subset of it are
the same too, to the last byte.  What is written has the sections in their fixed order and all names
below in ascending order, whatever the order was in which they were read.

* `value?_eq_of_alike` : two spellings of a value mean the same.
* `meaning?_eq_of_sameDocument` : so do two spellings of a document.
* `sameDocument_same_output` : what follows for everything that is made of it.
-/

namespace SchemaCut

/-! ## Entries in another order -/

lemma NameMap.insert_comm {α : Type} (p : NameMap α) {m n : String} (a b : α) (h : m ≠ n) :
    (p.insert m a).insert n b = (p.insert n b).insert m a := by
  refine NameMap.ext_find? fun x => ?_
  simp only [NameMap.find?_insert]
  grind

/-! ## Steps in another order -/

section Steps

variable {σ α : Type} {f : σ → α → Option σ}

lemma foldl_bind (f : σ → α → Option σ) (l : List α) (s? : Option σ) :
    l.foldl (fun s? a => s?.bind (f · a)) s? = s?.bind fun s => l.foldlM f s := by
  induction l generalizing s? with
  | nil => simp
  | cons a l ih =>
    rw [List.foldl_cons, ih, Option.bind_assoc]
    rfl

/-- Steps that can be swapped can be taken in any order. -/
lemma foldlM_perm {l l' : List α} (hperm : l.Perm l')
    (hswap : ∀ a ∈ l, ∀ b ∈ l, ∀ s, (f s a).bind (f · b) = (f s b).bind (f · a)) (s : σ) :
    l.foldlM f s = l'.foldlM f s := by
  have hfold := hperm.foldl_eq' (f := fun s? a => s?.bind (f · a))
    (fun a ha b hb s? => ?_) (some s)
  · rwa [foldl_bind, foldl_bind] at hfold
  · cases s? with
    | none => rfl
    | some s => exact hswap a ha b hb s

end Steps

namespace Json

/-! ## Spellings of a value -/

namespace Tree

/-- No two of these members have one name. -/
def DifferentNames (members : List Member) : Prop := (members.map Member.name?).Nodup

instance (members : List Member) : Decidable (DifferentNames members) :=
  inferInstanceAs (Decidable (members.map Member.name?).Nodup)

mutual

/-- Two ways to write one value: with other white space, and with the members of objects in another
order.  Strings and numbers may be spelled differently.  No object has two members of one name. -/
def Alike : Tree → Tree → Prop
  | .null, .null => True
  | .bool b, .bool c => b = c
  | .number x, .number y => x.value? = y.value?
  | .string l, .string m => l.value? = m.value?
  | .array items _, .array items' _ => AlikeItems items items'
  | .object members _, .object members' _ =>
    DifferentNames members ∧ ∃ ordered, ordered.Perm members' ∧ AlikeMembers members ordered
  | _, _ => False
termination_by structural t => t

/-- Elements that are alike one by one. -/
def AlikeItems : List (Spaced Tree) → List (Spaced Tree) → Prop
  | [], [] => True
  | ⟨_, t, _⟩ :: items, ⟨_, t', _⟩ :: items' => Alike t t' ∧ AlikeItems items items'
  | _, _ => False
termination_by structural items => items

/-- Members that have the same names and are alike one by one. -/
def AlikeMembers : List (Spaced Literal × Spaced Tree) → List (Spaced Literal × Spaced Tree) → Prop
  | [], [] => True
  | (name, ⟨_, t, _⟩) :: members, (name', ⟨_, t', _⟩) :: members' =>
    name.value.value? = name'.value.value? ∧ Alike t t' ∧ AlikeMembers members members'
  | _, _ => False
termination_by structural members => members

end

lemma alike_object_iff {members members' : List Member} {close close' : Space} :
    Alike (.object members close) (.object members' close') ↔
      DifferentNames members ∧
        ∃ ordered : List Member, ordered.Perm members' ∧ AlikeMembers members ordered := Iff.rfl

lemma alikeMembers_cons_iff {m m' : Member} {members members' : List Member} :
    AlikeMembers (m :: members) (m' :: members') ↔
      m.name? = m'.name? ∧ Alike m.2.value m'.2.value ∧ AlikeMembers members members' := Iff.rfl

/-! ## Objects in another order -/

/-- A member that is put into a map. -/
abbrev insert? (room : Nat) : NameMap Json → Member → Option (NameMap Json) :=
  Member.next? (joined? (fun n v p => p.insert n v) room)

lemma insert?_eq (room : Nat) (p : NameMap Json) (m : Member) :
    insert? room p m =
      m.name?.bind fun n => (m.2.value.value? room).map fun v => p.insert n v := rfl

lemma map?_object_eq_foldlM (room : Nat) (members : List Member) (close : Space) :
    (object members close).map? (room + 1) = members.foldlM (insert? room) ∅ := by
  rw [map?_object, foldlM_joined?, funext foldl_insert_empty]

/-- The value of an object is its map. -/
lemma value?_object (room : Nat) (members : List Member) (close : Space) :
    (object members close).value? (room + 1) =
      ((object members close).map? (room + 1)).map fun p => .obj p.entries := by
  rw [map?_object, value?, Option.map_map]
  rfl

lemma insert?_swap {members : List Member} (hnames : DifferentNames members) (room : Nat)
    {a b : Member} (ha : a ∈ members) (hb : b ∈ members) (p : NameMap Json) :
    (insert? room p a).bind (insert? room · b) = (insert? room p b).bind (insert? room · a) := by
  by_cases hab : a.name? = b.name?
  · rw [List.inj_on_of_nodup_map hnames ha hb hab]
  · simp only [insert?_eq]
    cases hna : a.name? with
    | none => cases b.name? <;> simp
    | some m =>
      cases hnb : b.name? with
      | none => simp
      | some n =>
        have hmn : m ≠ n := fun h => hab (by rw [hna, hnb, h])
        cases a.2.value.value? room with
        | none => simp
        | some v =>
          cases b.2.value.value? room with
          | none => simp
          | some w => simp [NameMap.insert_comm p v w hmn]

/-- The order of members with different names does not count. -/
lemma map?_object_perm {members members' : List Member} (hperm : members.Perm members')
    (hnames : DifferentNames members) (close close' : Space) (room : Nat) :
    (object members close).map? (room + 1) = (object members' close').map? (room + 1) := by
  rw [map?_object_eq_foldlM, map?_object_eq_foldlM]
  exact foldlM_perm hperm (fun a ha b hb p => insert?_swap hnames room ha hb p) ∅

/-! ## What spellings mean -/

lemma itemValues?_cons (room : Nat) (i : Spaced Tree) (items : List (Spaced Tree)) :
    itemValues? room (i :: items) = do
      let v ← i.value.value? room
      let vs ← itemValues? room items
      return v :: vs := rfl

lemma entries?_cons (room : Nat) (m : Member) (members : List Member) :
    entries? room (m :: members) = do
      let n ← m.name?
      let v ← m.2.value.value? room
      let es ← entries? room members
      return (n, v) :: es := rfl

lemma alikeItems_iff {items items' : List (Spaced Tree)} :
    AlikeItems items items' ↔ List.Forall₂ (fun i i' => Alike i.value i'.value) items items' := by
  induction items generalizing items' with
  | nil => cases items' <;> simp [AlikeItems]
  | cons i items ih => cases items' <;> simp [AlikeItems, ih]

lemma alikeMembers_iff {members members' : List Member} :
    AlikeMembers members members' ↔
      List.Forall₂ (fun m m' => m.name? = m'.name? ∧ Alike m.2.value m'.2.value)
        members members' := by
  induction members generalizing members' with
  | nil => cases members' <;> simp [AlikeMembers]
  | cons m members ih => cases members' <;> simp [AlikeMembers, ih, Member.name?, and_assoc]

lemma AlikeMembers.names_eq {members members' : List Member} (h : AlikeMembers members members') :
    members.map Member.name? = members'.map Member.name? := by
  rw [← List.forall₂_eq_eq_eq, List.forall₂_map_left_iff, List.forall₂_map_right_iff]
  exact (alikeMembers_iff.1 h).imp fun _ _ hm => hm.1

lemma AlikeItems.itemValues?_eq {items items' : List (Spaced Tree)} {room : Nat}
    (h : AlikeItems items items')
    (hvalue : ∀ i ∈ items, ∀ t', Alike i.value t' → i.value.value? room = t'.value? room) :
    itemValues? room items = itemValues? room items' := by
  rw [alikeItems_iff] at h
  induction h with
  | nil => rfl
  | cons halike _ ih =>
    rw [List.forall_mem_cons] at hvalue
    rw [itemValues?_cons, itemValues?_cons, hvalue.1 _ halike, ih hvalue.2]

lemma AlikeMembers.entries?_eq {members members' : List Member} {room : Nat}
    (h : AlikeMembers members members')
    (hvalue : ∀ m ∈ members, ∀ t', Alike m.2.value t' → m.2.value.value? room = t'.value? room) :
    entries? room members = entries? room members' := by
  rw [alikeMembers_iff] at h
  induction h with
  | nil => rfl
  | cons halike _ ih =>
    rw [List.forall_mem_cons] at hvalue
    rw [entries?_cons, entries?_cons, halike.1, hvalue.1 _ halike.2, ih hvalue.2]

/-- Two spellings of a value mean the same. -/
theorem value?_eq_of_alike {t t' : Tree} (h : Alike t t') (room : Nat) :
    t.value? room = t'.value? room := by
  induction t using Tree.induct generalizing t' room with
  | null =>
    cases t' <;> first | rfl | exact h.elim
  | bool b =>
    cases t' with
    | bool c => rw [show b = c from h]
    | null | number x | string l | array items close | object members close => exact h.elim
  | number x =>
    cases t' with
    | number y => rw [value?, value?, show x.value? = y.value? from h]
    | null | bool b | string l | array items close | object members close => exact h.elim
  | string l =>
    cases t' with
    | string m => rw [value?, value?, show l.value? = m.value? from h]
    | null | bool b | number x | array items close | object members close => exact h.elim
  | array items close ih =>
    cases t' with
    | array items' close' =>
      cases room with
      | zero => rfl
      | succ room =>
        have hitems : AlikeItems items items' := h
        rw [value?, value?, hitems.itemValues?_eq fun i hi t' ht => ih i hi ht room]
    | null | bool b | number x | string l | object members close => exact h.elim
  | object members close ih =>
    cases t' with
    | object members' close' =>
      cases room with
      | zero => rfl
      | succ room =>
        obtain ⟨hnames, ordered, hperm, halike⟩ := alike_object_iff.1 h
        have hordered : DifferentNames ordered := by
          rwa [DifferentNames, ← halike.names_eq]
        rw [value?_object, value?_object, ← map?_object_perm hperm hordered close close' room,
          map?_object, map?_object, halike.entries?_eq fun m hm t' ht => ih m hm ht room]
    | null | bool b | number x | string l | array items close => exact h.elim

end Tree
end Json

/-! ## Spellings of a document -/

namespace Schema

open Json

/-- A member that is no section: it has a name, and the name is another one. -/
def IsExtra (m : Member) : Prop := ∃ n, m.name? = some n ∧ Kind.ofSection? n = none

/-- Two documents that differ only in the order of members, in white space, and in members at the
top level that are no sections. -/
def SameDocument : Tree → Tree → Prop
  | .object members _, .object members' _ =>
    ∃ sections extra sections' extra' : List Member,
      members.Perm (sections ++ extra) ∧ members'.Perm (sections' ++ extra') ∧
      Tree.AlikeMembers sections sections' ∧ (∀ m ∈ extra, IsExtra m) ∧ ∀ m ∈ extra', IsExtra m
  | t, t' => t.Alike t'

lemma PerKind.modify_comm {α : Type} (p : PerKind α) {j k : Kind} (f g : α → α) (h : j ≠ k) :
    (p.modify j f).modify k g = (p.modify k g).modify j f := by
  cases j <;> cases k <;> first | rfl | exact absurd rfl h

/-- What is known behind a section that is new. -/
abbrev joins? (s : Sections) (k : Kind) (m? : Option (NameMap Json)) : Option Sections :=
  if (s.get k).isSome then none else m?.map fun m => s.modify k fun _ => some m

/-- A section that joins is known from then on, and what was known stays known. -/
lemma isSome_get_of_joins? {s s' : Sections} {j : Kind} {p? : Option (NameMap Json)}
    (h : joins? s j p? = some s') (k : Kind) :
    (s'.get k).isSome = ((s.get k).isSome || decide (k = j)) := by
  rw [joins?] at h
  split at h
  · cases h
  · obtain ⟨p, -, rfl⟩ := Option.map_eq_some_iff.1 h
    rw [PerKind.get_modify]
    by_cases hk : k = j <;> simp [hk]

/-- A section that is known by then cannot join. -/
lemma bind_joins?_eq_none {s : Sections} {j k : Kind} {p? : Option (NameMap Json)}
    (h : (s.get k).isSome = true ∨ k = j) (q? : Option (NameMap Json)) :
    (joins? s j p?).bind (joins? · k q?) = none := by
  rw [Option.bind_eq_none_iff]
  intro s' hs'
  exact if_pos (by rw [isSome_get_of_joins? hs']; simpa using h)

/-- A section that is given twice fails wherever the two stand, and two others do not meet. -/
lemma joins?_swap (s : Sections) (j k : Kind) (p? q? : Option (NameMap Json)) :
    (joins? s j p?).bind (joins? · k q?) = (joins? s k q?).bind (joins? · j p?) := by
  by_cases hjk : j = k
  · rw [bind_joins?_eq_none (.inr hjk.symm), bind_joins?_eq_none (.inr hjk)]
  by_cases hj : (s.get j).isSome = true
  · rw [bind_joins?_eq_none (.inl hj), joins?, if_pos hj, Option.bind_none]
  by_cases hk : (s.get k).isSome = true
  · rw [bind_joins?_eq_none (.inl hk), joins?, if_pos hk, Option.bind_none]
  cases p? <;> cases q? <;>
    simp [joins?, hj, hk, PerKind.get_modify, hjk, Ne.symm hjk, PerKind.modify_comm s _ _ hjk]

lemma named?_swap (s : Sections) (m n : String) (p? q? : Option (NameMap Json)) :
    (named? s m p?).bind (named? · n q?) = (named? s n q?).bind (named? · m p?) := by
  simp only [named?]
  cases Kind.ofSection? m with
  | none => cases Kind.ofSection? n <;> simp
  | some j =>
    cases Kind.ofSection? n with
    | none => simp
    | some k => exact joins?_swap s j k p? q?

lemma member?_swap (room : Nat) (a b : Member) (s : Sections) :
    (member? room s a).bind (member? room · b) = (member? room s b).bind (member? room · a) := by
  simp only [member?_eq]
  cases a.1.value.value? with
  | none => cases b.1.value.value? <;> simp
  | some m =>
    cases b.1.value.value? with
    | none => simp
    | some n => exact named?_swap s m n _ _

/-- What is no section leaves no trace. -/
lemma foldlM_extra {room : Nat} {extra : List Member} (h : ∀ m ∈ extra, IsExtra m) (s : Sections) :
    extra.foldlM (member? room) s = some s := by
  induction extra generalizing s with
  | nil => rfl
  | cons m extra ih =>
    obtain ⟨n, hname, hother⟩ := h m List.mem_cons_self
    have hmember : member? room s m = some s := by
      rw [member?_eq, show m.1.value.value? = some n from hname, Option.bind_some, named?, hother]
    rw [List.foldlM_cons, hmember]
    exact ih (fun m' hm' => h m' (List.mem_cons_of_mem _ hm')) s

lemma foldlM_member?_of_alike {room : Nat} {sections sections' : List Member}
    (h : Tree.AlikeMembers sections sections') (s : Sections) :
    sections.foldlM (member? room) s = sections'.foldlM (member? room) s := by
  rw [Tree.alikeMembers_iff] at h
  induction h generalizing s with
  | nil => rfl
  | @cons m m' _ _ halike _ ih =>
    have hmember : member? room s m = member? room s m' := by
      rw [member?_eq, member?_eq, Tree.map?, Tree.map?, Tree.value?_eq_of_alike halike.2 room]
      exact congrArg (Option.bind · _) halike.1
    rw [List.foldlM_cons, List.foldlM_cons, hmember]
    exact congrArg _ (funext ih)

/-- The sections of a document are what its members lead to without those that are none. -/
lemma foldlM_member?_of_perm {room : Nat} {members sections extra : List Member}
    (hperm : members.Perm (sections ++ extra)) (hextra : ∀ m ∈ extra, IsExtra m) (s : Sections) :
    members.foldlM (member? room) s = sections.foldlM (member? room) s := by
  rw [foldlM_perm hperm (fun a _ b _ s => member?_swap room a b s) s, List.foldlM_append]
  cases sections.foldlM (member? room) s with
  | none => rfl
  | some s' => exact foldlM_extra hextra s'

lemma elements?_eq_of_alike {room : Nat} {items items' : List (Spaced Tree)}
    (h : Tree.AlikeItems items items') (fields : List (Json.Field Sections)) (s : Sections) :
    Record.elements? (sectionGiven? room) fields items s =
      Record.elements? (sectionGiven? room) fields items' s := by
  rw [Tree.alikeItems_iff] at h
  induction h generalizing fields s with
  | nil => rfl
  | cons halike _ ih =>
    cases fields with
    | nil => rfl
    | cons field fields =>
      rw [Record.elements?, Record.elements?, sectionGiven?, sectionGiven?,
        Tree.value?_eq_of_alike halike room]
      exact congrArg _ (funext (ih fields))

lemma meaning?_object (members : List Member) (close : Space) :
    meaning? (.object members close) =
      (members.foldlM (member? 126) (PerKind.const none)).bind fun s =>
        (document.ofMembers s).toOption := rfl

lemma meaning?_array (items : List (Spaced Tree)) (close : Space) :
    meaning? (.array items close) =
      (Record.elements? (sectionGiven? 126) document.fields items (PerKind.const none)).bind
        fun p => (document.ofElements p.1 p.2).toOption := rfl

/-- Two spellings of a document mean the same schema. -/
theorem meaning?_eq_of_sameDocument {t t' : Tree} (h : SameDocument t t') :
    meaning? t = meaning? t' := by
  cases t with
  | object members close =>
    cases t' with
    | object members' close' =>
      obtain ⟨sections, extra, sections', extra', hperm, hperm', halike, hextra, hextra'⟩ := h
      rw [meaning?_object, meaning?_object, foldlM_member?_of_perm hperm hextra,
        foldlM_member?_of_perm hperm' hextra', foldlM_member?_of_alike halike]
    | null | bool c | number y | string m | array items' close' => exact h.elim
  | array items close =>
    cases t' with
    | array items' close' =>
      have hitems : Tree.AlikeItems items items' := h
      rw [meaning?_array, meaning?_array, elements?_eq_of_alike hitems]
    | null | bool c | number y | string m | object members' close' => exact h.elim
  | null | bool b | number x | string l =>
    cases t' with
    | null | bool c | number y | string m => rfl
    | array items' close' | object members' close' => exact h.elim

/-! ## What is written -/

/-- A text that has the three sections in their order and all names below in ascending order. -/
def IsCanonicalText (layout : Layout) (text : String) : Prop :=
  ∃ types resources functions : Json,
    text = Json.text layout
      (.obj [("types", types), ("resources", resources), ("functions", functions)]) ∧
    types.Canonical ∧ resources.Canonical ∧ functions.Canonical

lemma isCanonicalText {s : Schema} (h : s.All (Bounded 125)) (layout : Layout) :
    IsCanonicalText layout (s.text layout) :=
  ⟨_, _, _, rfl, (bounded_section h .type).canonical, (bounded_section h .resource).canonical,
    (bounded_section h .function).canonical⟩

/-- Two spellings of a document give the same schema, or the same entity that is no object.  So the
schemas that are read from them have the same texts, checksums and subsets, and what is written for
them and for their subsets is in canonical form. -/
theorem sameDocument_same_output (d d' : Spaced Tree) (s : Schema)
    (hsame : SameDocument d.value d'.value) (hread : ofDocument d.text = .ok s) :
    ofDocument d'.text = .ok s ∧ ofText d'.text = ofText d.text ∧
    (∀ a b, ofText d.text = .ok a → ofText d'.text = .ok b →
      (∀ layout, b.text layout = a.text layout) ∧ Checksum.ofSchema b = Checksum.ofSchema a ∧
      ∀ r layout, (b.subset r).map (·.text layout) = (a.subset r).map (·.text layout)) ∧
    ∀ a, ofText d.text = .ok a → ∀ layout, IsCanonicalText layout (a.text layout) ∧
      ∀ r part, a.subset r = .ok part → IsCanonicalText layout (part.text layout) := by
  have hmeaning := meaning?_eq_of_sameDocument hsame
  rw [← ofDocument_text, ← ofDocument_text, hread] at hmeaning
  have hread' : ofDocument d'.text = .ok s := toOption_eq_some_iff.1 hmeaning.symm
  have htext : ofText d'.text = ofText d.text := by
    rw [ofText, ofText, hread, hread']
  refine ⟨hread', htext, fun a b ha hb => ?_, fun a ha layout => ?_⟩
  · obtain rfl : b = a := Except.ok.inj (hb.symm.trans (htext.trans ha))
    exact ⟨fun _ => rfl, rfl, fun _ _ => rfl⟩
  · have hbounded := bounded_of_ofDocument (ofText_eq_ok_iff.1 ha).1
    refine ⟨isCanonicalText hbounded layout, fun r part hcut => ?_⟩
    exact isCanonicalText
      (hbounded.derived (fun _ _ => bounded_shortenUnder) (.subset r .self hcut)) layout

/-! ## A document and another spelling of it -/

/-- A string without escapes. -/
def plainLiteral (s : String) : Literal where
  pieces := s.toList.filterMap fun c =>
    if h : c ≠ '"' ∧ c ≠ '\\' ∧ 0x20 ≤ c.toNat then some (.plain c h) else none

/-- Something without white space around it. -/
def tight {α : Type} (a : α) : Spaced α := ⟨.empty, a, .empty⟩

/-- Something with a space in front of it. -/
def loose {α : Type} (a : α) : Spaced α := ⟨.single, a, .empty⟩

/-- A member without white space. -/
def tightMember (name : String) (t : Tree) : Member := (tight (plainLiteral name), tight t)

/-- A member with a space in front of its name and its value. -/
def looseMember (name : String) (t : Tree) : Member := (loose (plainLiteral name), loose t)

/-- The section of types with one type in it, which has two members. -/
def plainTypes : Member :=
  tightMember "types" (.object [tightMember "a" (.object
    [tightMember "x" (.bool true), tightMember "y" (.array [] .empty)] .empty)] .empty)

/-- The same section with spaces and with the members of the type in the other order. -/
def shuffledTypes : Member :=
  looseMember "types" (.object [looseMember "a" (.object
    [looseMember "y" (.array [] .empty), looseMember "x" (.bool true)] .empty)] .empty)

/-- A document with this section and two empty ones. -/
def plainDocument : Spaced Tree := tight (.object
  [plainTypes, tightMember "resources" (.object [] .empty),
    tightMember "functions" (.object [] .empty)] .empty)

/-- The same in another order, with a member that is no section. -/
def shuffledDocument : Spaced Tree := loose (.object
  [looseMember "functions" (.object [] .empty), looseMember "note" (.array [loose .null] .empty),
    shuffledTypes, looseMember "resources" (.object [] .empty)] .empty)

example : shuffledDocument.text = " \x7b \"functions\": \x7b\x7d, \"note\": [ null], " ++
    "\"types\": \x7b \"a\": \x7b \"y\": [], \"x\": true\x7d\x7d, \"resources\": \x7b\x7d\x7d" := by
  decide +kernel

lemma alike_types : plainTypes.2.value.Alike shuffledTypes.2.value := by
  refine Tree.alike_object_iff.2 ⟨by decide +kernel, _, .rfl, ?_⟩
  refine Tree.alikeMembers_cons_iff.2 ⟨by decide +kernel, ?_, trivial⟩
  refine Tree.alike_object_iff.2 ⟨by decide +kernel, _, .swap _ _ _, ?_⟩
  refine Tree.alikeMembers_cons_iff.2 ⟨by decide +kernel, rfl, ?_⟩
  exact Tree.alikeMembers_cons_iff.2 ⟨by decide +kernel, trivial, trivial⟩

/-- Two empty objects. -/
lemma alike_empty : (Tree.object [] .empty).Alike (.object [] .empty) :=
  ⟨by decide +kernel, [], .rfl, trivial⟩

lemma sameDocument_shuffledDocument : SameDocument plainDocument.value shuffledDocument.value := by
  refine ⟨[plainTypes, tightMember "resources" (.object [] .empty),
    tightMember "functions" (.object [] .empty)], [],
    [shuffledTypes, looseMember "resources" (.object [] .empty),
      looseMember "functions" (.object [] .empty)],
    [looseMember "note" (.array [loose .null] .empty)], .rfl, ?_, ?_, ?_, ?_⟩
  · exact @List.perm_append_comm _ [_, _] [_, _]
  · exact ⟨by decide +kernel, alike_types, by decide +kernel, alike_empty, by decide +kernel,
      alike_empty, trivial⟩
  · exact fun _ h => absurd h List.not_mem_nil
  · intro m hm
    obtain rfl := List.mem_singleton.1 hm
    exact ⟨"note", by decide +kernel, by decide +kernel⟩

/-- The schema of both documents. -/
def ofDocuments : Schema :=
  (∅ : Schema).insert ⟨.type, "a"⟩ (.obj [("x", .bool true), ("y", .arr [])])

/-- The second document gives what the first one gives. -/
theorem sameDocument_shuffledDocument_output :
    SameDocument plainDocument.value shuffledDocument.value ∧
    ofDocument plainDocument.text = .ok ofDocuments ∧
    ofDocument shuffledDocument.text = .ok ofDocuments ∧
    ofText shuffledDocument.text = ofText plainDocument.text := by
  have hread : ofDocument plainDocument.text = .ok ofDocuments := by
    refine toOption_eq_some_iff.1 ((ofDocument_text plainDocument).trans ?_)
    cbv
  have houtput := sameDocument_same_output plainDocument shuffledDocument ofDocuments
    sameDocument_shuffledDocument hread
  exact ⟨sameDocument_shuffledDocument, hread, houtput.1, houtput.2.1⟩

end Schema
end SchemaCut
