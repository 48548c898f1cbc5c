import Mathlib.Tactic.Lemma
import SchemaCut.Schema

/-!
# What any text gives

Whatever text a schema is read from, and however it is spelled, its definitions are canonical, they
are objects, and they are not nested deeper than the reader goes: two of the containers that it may
open are the document and the section.

The proof follows the readers.  `Ensures P x` says that `x` gives a value with `P` if it gives one,
and has one rule for each way in which readers are put together.

* `ensures_readValue` : values are canonical and no deeper than the room.
* `loaded_of_ofText` : the definitions of a schema that is read.
-/

namespace SchemaCut
namespace Json

/-! ## Depth -/

mutual

/-- The number of containers that stand inside one another. -/
def depth : Json → Nat
  | .arr items => depthItems items + 1
  | .obj members => depthMembers members + 1
  | .null | .bool _ | .num _ | .str _ => 0
termination_by structural v => v

/-- The largest depth of an element. -/
def depthItems : List Json → Nat
  | [] => 0
  | v :: vs => max (depth v) (depthItems vs)
termination_by structural vs => vs

/-- The largest depth of a member. -/
def depthMembers : List (String × Json) → Nat
  | [] => 0
  | (_, v) :: ms => max (depth v) (depthMembers ms)
termination_by structural ms => ms

end

lemma depthItems_le_iff {vs : List Json} {n : Nat} :
    depthItems vs ≤ n ↔ ∀ v ∈ vs, v.depth ≤ n := by
  induction vs with
  | nil => simp [depthItems]
  | cons v vs ih => rw [depthItems, Nat.max_le, ih, List.forall_mem_cons]

lemma depthMembers_le_iff {ms : List (String × Json)} {n : Nat} :
    depthMembers ms ≤ n ↔ ∀ m ∈ ms, m.2.depth ≤ n := by
  induction ms with
  | nil => simp [depthMembers]
  | cons m ms ih =>
    obtain ⟨name, v⟩ := m
    rw [depthMembers, Nat.max_le, ih, List.forall_mem_cons]

/-! ## Conditions on what is read -/

section Ensures

variable {α β : Type} {m n : Nat}

/-- Whatever a reader gives satisfies a condition. -/
def Ensures (P : α → Prop) (x : Except Fault (Parsed α n)) : Prop := ∀ p, x = .ok p → P p.value

lemma ensures_ok {P : α → Prop} {p : Parsed α n} (h : P p.value) : Ensures P (.ok p) := by
  rintro _ ⟨⟩
  exact h

lemma ensures_error (P : α → Prop) (f : Fault) :
    Ensures P (.error f : Except Fault (Parsed α n)) := by
  rintro _ ⟨⟩

lemma ensures_true (x : Except Fault (Parsed α n)) : Ensures (fun _ => True) x := fun _ _ => trivial

namespace Ensures

variable {P : α → Prop} {Q : β → Prop} {x : Except Fault (Parsed α n)}

lemma bind {k : Parsed α n → Except Fault (Parsed β m)} (hx : Ensures P x)
    (hk : ∀ p : Parsed α n, P p.value → Ensures Q (k p)) : Ensures Q (x >>= k) := by
  cases x with
  | error f => exact ensures_error Q f
  | ok p => exact hk p (hx p rfl)

lemma map {g : Parsed α n → Parsed β m} (hx : Ensures P x)
    (hg : ∀ p : Parsed α n, P p.value → Q (g p).value) : Ensures Q (x.map g) := by
  cases x with
  | error f => exact ensures_error Q f
  | ok p => exact ensures_ok (hg p (hx p rfl))

end Ensures

/-- Something that fails or goes on. -/
lemma ensures_check {γ : Type} {Q : β → Prop} {x : Except Fault γ}
    {k : γ → Except Fault (Parsed β m)} (hk : ∀ a, x = .ok a → Ensures Q (k a)) :
    Ensures Q (x >>= k) := by
  cases x with
  | error f => exact ensures_error Q f
  | ok a => exact hk a rfl

end Ensures

/-! ## Arrays and objects -/

section Containers

variable {α σ : Type}

lemma ensures_readMoreItems {P : α → Prop} {read : Reader α} (hread : ∀ cs, Ensures P (read cs))
    (cs : List Char) : Ensures (fun vs => ∀ v ∈ vs, P v) (readMoreItems read cs) := by
  fun_induction readMoreItems read cs with
  | case2 => exact ensures_ok fun v hv => absurd hv List.not_mem_nil
  | case7 =>
    next hvalue _ hmore _ _ _ ih =>
    exact ensures_ok (List.forall_mem_cons.2 ⟨hread _ _ hvalue, ih _ hmore⟩)
  | case1 | case3 | case4 | case5 | case6 | case8 => exact ensures_error _ _

lemma ensures_readItems {P : α → Prop} {read : Reader α} (hread : ∀ cs, Ensures P (read cs))
    (cs : List Char) : Ensures (fun vs => ∀ v ∈ vs, P v) (readItems read cs) := by
  rw [readItems]
  split
  · exact ensures_error _ _
  split
  · exact ensures_ok fun v hv => absurd hv List.not_mem_nil
  · refine (hread _).bind fun p hp => ?_
    refine (ensures_readMoreItems hread p.rest).bind fun q hq => ?_
    exact ensures_ok (List.forall_mem_cons.2 ⟨hp, hq⟩)

variable {P : σ → Prop} {step : MemberStep σ}

lemma ensures_readMember (hstep : ∀ s n cs, P s → Ensures P (step s n cs)) {s : σ} (hs : P s)
    (cs : List Char) : Ensures P (readMember step s cs) := by
  rw [readMember]
  refine (ensures_true _).bind fun p _ => ?_
  exact (hstep s p.value p.rest hs).bind fun q hq => ensures_ok hq

lemma ensures_readMoreMembers (hstep : ∀ s n cs, P s → Ensures P (step s n cs)) (n : Nat) {s : σ}
    (hs : P s) (cs : List Char) (h : cs.length ≤ n) :
    Ensures P (readMoreMembers step n s cs h) := by
  fun_induction readMoreMembers step n s cs h with
  | case2 => exact ensures_ok hs
  | case6 =>
    next hmember _ _ _ _ _ _ ih => exact ih (ensures_readMember hstep hs _ _ hmember)
  | case1 | case3 | case4 | case5 | case7 | case8 => exact ensures_error _ _

lemma ensures_readMembers (hstep : ∀ s n cs, P s → Ensures P (step s n cs)) {s : σ} (hs : P s)
    (cs : List Char) : Ensures P (readMembers step s cs) := by
  rw [readMembers]
  split
  · exact ensures_error _ _
  split
  · exact ensures_ok hs
  split
  · exact (ensures_readMember hstep hs _).bind fun p hp =>
      ensures_readMoreMembers hstep _ hp p.rest _
  · exact ensures_error _ _

end Containers

/-! ## Values -/

/-- A value that a reader with so much room can give. -/
structure Bounded (room : Nat) (v : Json) : Prop where
  canonical : v.Canonical
  depth_le : v.depth ≤ room

lemma Bounded.mono {m n : Nat} {v : Json} (h : v.Bounded m) (hmn : m ≤ n) : v.Bounded n :=
  ⟨h.canonical, Nat.le_trans h.depth_le hmn⟩

lemma bounded_arr_iff {items : List Json} {room : Nat} :
    (arr items).Bounded (room + 1) ↔ ∀ v ∈ items, v.Bounded room := by
  constructor
  · rintro ⟨hcanonical, hdepth⟩ v hv
    rw [Canonical, canonicalItems_iff] at hcanonical
    rw [depth, Nat.add_le_add_iff_right, depthItems_le_iff] at hdepth
    exact ⟨hcanonical v hv, hdepth v hv⟩
  · intro h
    refine ⟨?_, ?_⟩
    · rw [Canonical, canonicalItems_iff]
      exact fun v hv => (h v hv).canonical
    · rw [depth, Nat.add_le_add_iff_right, depthItems_le_iff]
      exact fun v hv => (h v hv).depth_le

lemma bounded_obj_iff {members : List (String × Json)} {room : Nat} :
    (obj members).Bounded (room + 1) ↔
      Entries.Ascending members ∧ ∀ m ∈ members, m.2.Bounded room := by
  constructor
  · rintro ⟨hcanonical, hdepth⟩
    rw [Canonical, canonicalMembers_iff] at hcanonical
    rw [depth, Nat.add_le_add_iff_right, depthMembers_le_iff] at hdepth
    exact ⟨hcanonical.1, fun m hm => ⟨hcanonical.2 m hm, hdepth m hm⟩⟩
  · rintro ⟨hascending, h⟩
    refine ⟨?_, ?_⟩
    · rw [Canonical, canonicalMembers_iff]
      exact ⟨hascending, fun m hm => (h m hm).canonical⟩
    · rw [depth, Nat.add_le_add_iff_right, depthMembers_le_iff]
      exact fun m hm => (h m hm).depth_le

lemma bounded_toJson (found : Found) (room : Nat) : found.toJson.Bounded room := by
  cases found <;> exact ⟨trivial, Nat.zero_le _⟩

/-- Entries whose values satisfy a condition, in ascending order. -/
structure EntriesOf (P : Json → Prop) (es : List (String × Json)) : Prop where
  ascending : Entries.Ascending es
  all : ∀ e ∈ es, P e.2

lemma EntriesOf.nil {P : Json → Prop} : EntriesOf P [] :=
  ⟨.nil, fun _ he => absurd he List.not_mem_nil⟩

lemma EntriesOf.put {P : Json → Prop} {es : List (String × Json)} (h : EntriesOf P es) (n : String)
    {v : Json} (hv : P v) : EntriesOf P (Entries.put n v es) :=
  ⟨h.ascending.put, fun e he => (Entries.mem_put he).elim (fun heq => heq ▸ hv) (h.all e)⟩

lemma ensures_entryStep {P : Json → Prop} {read : Reader Json} (hread : ∀ cs, Ensures P (read cs))
    (es : List (String × Json)) (n : String) (cs : List Char) (hes : EntriesOf P es) :
    Ensures (EntriesOf P) (entryStep read es n cs) :=
  ensures_check fun _ _ => (hread _).bind fun _ hp => ensures_ok (hes.put n hp)

/-- Values are canonical and no deeper than the room. -/
theorem ensures_readValue (room : Nat) (cs : List Char) :
    Ensures (Bounded room) (readValue room cs) := by
  induction room generalizing cs with
  | zero =>
    rw [readValue]
    split
    · exact ensures_error _ _
    split
    · exact ensures_error _ _
    split
    · exact ensures_error _ _
    · exact (ensures_true _).map fun p _ => bounded_toJson p.value 0
  | succ room ih =>
    rw [readValue]
    split
    · exact ensures_error _ _
    split
    · exact (ensures_readItems ih _).map fun p hp => bounded_arr_iff.2 hp
    split
    · exact (ensures_readMembers (ensures_entryStep ih) .nil _).map fun p hp =>
        bounded_obj_iff.2 ⟨hp.ascending, hp.all⟩
    · exact (ensures_true _).map fun p _ => bounded_toJson p.value _

lemma ensures_readMap (room : Nat) (cs : List Char) :
    Ensures (fun m => ∀ e ∈ m.entries, e.2.Bounded room) (readMap readValue (room + 1) cs) := by
  rw [readMap]
  split
  · exact ensures_error _ _
  split
  · refine (ensures_readMembers (P := fun m => ∀ e ∈ m.entries, e.2.Bounded room) ?_ ?_ _).map
      fun p hp => hp
    · intro m n cs hm
      refine ensures_check fun _ _ => (ensures_readValue room _).bind fun p hp => ensures_ok ?_
      intro e he
      rcases Entries.mem_put he with rfl | he
      · exact hp
      · exact hm e he
    · exact fun e he => absurd he List.not_mem_nil
  · exact ensures_error _ _

/-! ## Records -/

namespace Record

variable {σ α : Type} {r : Record σ α} {P : σ → Prop} {room : Nat}

lemma ensures_memberStep
    (hfields : ∀ field ∈ r.fields, ∀ s cs, P s → Ensures P (field.read room s cs)) (s : σ)
    (n : String) (cs : List Char) (hs : P s) : Ensures P (r.memberStep room s n cs) := by
  rw [memberStep]
  split
  · next field hfield =>
    split
    · exact ensures_error _ _
    · exact ensures_check fun _ _ =>
        (hfields field (List.mem_of_find?_eq_some hfield) s _ hs).bind fun p hp => ensures_ok hp
  · exact ensures_check fun _ _ => (ensures_true _).bind fun p _ => ensures_ok hs

lemma ensures_readFields {n : Nat} {fields : List (Field σ)}
    (hfields : ∀ field ∈ fields, ∀ s cs, P s → Ensures P (field.read room s cs)) (first : Bool)
    {s : σ} (hs : P s) (cs : List Char) (h : cs.length < n) :
    Ensures (fun p => P p.1) (readFields room n fields first s cs h) := by
  induction fields generalizing first s cs with
  | nil =>
    rw [readFields]
    exact ensures_check fun _ _ => ensures_ok hs
  | cons field fields ih =>
    have hfield := hfields field List.mem_cons_self
    have hmore := fun field' hf => hfields field' (List.mem_cons_of_mem field hf)
    rw [readFields]
    split
    · exact ensures_error _ _
    split
    · exact ensures_ok hs
    split
    · exact (hfield s _ hs).bind fun p hp => ih hmore false hp p.rest _
    split
    · split
      · exact ensures_error _ _
      split
      · exact ensures_error _ _
      · exact (hfield s _ hs).bind fun p hp => ih hmore false hp p.rest _
    · exact ensures_error _ _

lemma ofMembers_eq_ok {s : σ} {a : α} (h : r.ofMembers s = .ok a) : a = r.finish s := by
  rw [ofMembers] at h
  split at h
  · cases h
  · exact (Except.ok.inj h).symm

lemma ofElements_eq_ok {s : σ} {left : List (Field σ)} {a : α} (h : r.ofElements s left = .ok a) :
    a = r.finish s := by
  rw [ofElements] at h
  split at h
  · exact (Except.ok.inj h).symm
  · cases h

/-- A record is made of what its fields have led to. -/
lemma ensures_read (room : Nat)
    (hfields : ∀ field ∈ r.fields, ∀ s cs, P s → Ensures P (field.read room s cs))
    (hstart : P r.start) (cs : List Char) :
    Ensures (fun a => ∃ s, P s ∧ a = r.finish s) (r.read (room + 1) cs) := by
  rw [read]
  split
  · exact ensures_error _ _
  split
  · refine (ensures_readMembers (ensures_memberStep hfields) hstart _).bind fun p hp => ?_
    exact ensures_check fun a ha => ensures_ok ⟨p.value, hp, ofMembers_eq_ok ha⟩
  split
  · refine (ensures_readFields hfields true hstart _ _).bind fun p hp => ?_
    exact ensures_check fun a ha => ensures_ok ⟨p.value.1, hp, ofElements_eq_ok ha⟩
  · exact ensures_error _ _

end Record

end Json

/-! ## Schemas -/

/-- A definition that a schema document can hold. -/
structure Json.Loaded (definition : Json) : Prop where
  isObject : definition.isObject = true
  bounded : definition.Bounded 125

namespace Schema

open Json

/-- Every definition of a schema satisfies a condition. -/
def All (P : Json → Prop) (s : Schema) : Prop :=
  ∀ e definition, s.find? e = some definition → P definition

/-- Every value in the sections that are known satisfies a condition. -/
def SectionsOf (P : Json → Prop) (s : PerKind (Option (NameMap Json))) : Prop :=
  ∀ k m, s.get k = some m → ∀ e ∈ m.entries, P e.2

lemma ensures_sectionField {room : Nat} {field : Json.Field (PerKind (Option (NameMap Json)))}
    (hfield : field ∈ document.fields) (s : PerKind (Option (NameMap Json))) (cs : List Char)
    (hs : SectionsOf (Bounded room) s) :
    Ensures (SectionsOf (Bounded room)) (field.read (room + 1) s cs) := by
  obtain ⟨k, -, rfl⟩ := List.mem_map.1 hfield
  refine (ensures_readMap room cs).map fun p hp j m hm => ?_
  change (s.modify k fun _ => some p.value).get j = some m at hm
  rw [PerKind.get_modify] at hm
  split at hm
  · cases hm
    exact hp
  · exact hs j m hm

lemma ofDocument_eq_ok {text : String} {s : Schema} (h : ofDocument text = .ok s) :
    ∃ p, document.read maxDepth text.toList = .ok p ∧ p.value = s := by
  rw [ofDocument, readAll] at h
  cases hp : document.read maxDepth text.toList with
  | error f =>
    rw [hp] at h
    cases h
  | ok p =>
    rw [hp] at h
    simp only [bind, Except.bind] at h
    split at h
    · exact ⟨p, rfl, Except.ok.inj h⟩
    · cases h

/-- The definitions of a document that is read are canonical, and the document and the section count
for the depth of each of them. -/
lemma bounded_of_ofDocument {text : String} {s : Schema} (h : ofDocument text = .ok s) :
    s.All (Bounded 125) := by
  obtain ⟨p, hp, rfl⟩ := ofDocument_eq_ok h
  have hstart : SectionsOf (Bounded 125) document.start := by
    intro k m hm
    cases k <;> cases hm
  obtain ⟨known, hknown, hvalue⟩ := Record.ensures_read 126
    (fun _ hfield s cs hs => ensures_sectionField hfield s cs hs) hstart _ p hp
  rw [hvalue]
  intro e definition hfind
  have hentry : (e.name, definition) ∈ (((known.get e.kind).getD ∅).entries) := by
    simpa [find?, definitions, document, NameMap.find?_eq_some_iff] using hfind
  cases hm : known.get e.kind with
  | none =>
    rw [hm] at hentry
    exact absurd hentry List.not_mem_nil
  | some m =>
    rw [hm] at hentry
    exact hknown e.kind m hm _ hentry

lemma validate_eq_ok_iff {s : Schema} :
    s.validate = .ok () ↔ s.All (fun definition => definition.isObject = true) := by
  have hnone : (s.entities.find? fun d => !d.2.isObject) = none ↔
      s.All (fun definition => definition.isObject = true) := by
    simp only [List.find?_eq_none, Bool.not_eq_true', Bool.not_eq_false, All, ← mem_entities,
      Prod.forall]
  rw [← hnone, validate]
  cases s.entities.find? fun d => !d.2.isObject <;> simp

/-- A text is read if its document is and every definition in it is an object. -/
lemma ofText_eq_ok_iff {text : String} {s : Schema} :
    ofText text = .ok s ↔
      ofDocument text = .ok s ∧ s.All (fun definition => definition.isObject = true) := by
  rw [← validate_eq_ok_iff, ofText]
  cases ofDocument text with
  | error f => exact ⟨(nomatch ·), (nomatch ·.1)⟩
  | ok s' =>
    change (s'.validate >>= fun _ => .ok s') = .ok s ↔ _
    constructor
    · intro h
      cases hvalid : s'.validate with
      | error f =>
        rw [hvalid] at h
        cases h
      | ok _ =>
        rw [hvalid] at h
        obtain rfl := Except.ok.inj h
        exact ⟨rfl, hvalid⟩
    · rintro ⟨heq, hvalid⟩
      obtain rfl := Except.ok.inj heq
      rw [hvalid]
      rfl

/-- The definitions of a schema that is read are objects. -/
theorem loaded_of_ofText {text : String} {s : Schema} (h : ofText text = .ok s) : s.All Loaded := by
  obtain ⟨hdocument, hobjects⟩ := ofText_eq_ok_iff.1 h
  exact fun e definition hfind =>
    ⟨hobjects e definition hfind, bounded_of_ofDocument hdocument e definition hfind⟩

end Schema
end SchemaCut
