import SchemaCut.Proofs.EntityOrder
import SchemaCut.Proofs.Reading.Accepted
import SchemaCut.Proofs.Reading.Bounds
import SchemaCut.Proofs.SameDocument

/-!
# Names that are given more than once

A section of a document may give one name several times.  What counts is the last value of a name:
`LastGiven` finds it in the document as it is written, section by section and member by member, with
no map in between.  Reading a document gives every name the value of this tree.

Whether the definitions are objects is looked at when the document has been read.  So a value that
is none is forgiven if an object is given for its name further on, and is a failure if it stands
last.  The failure names the least entity with such a value, which need not be the first one in the
text.

* `find?_foldlM_insert?` : of several members with one name the last one counts.
* `find?_of_meaning?` : a document gives the values that are given last.
* `validate_eq_error_iff` : what is not an object is reported for the least entity.
* `ofText_verdict` : which documents are taken, what is read from them, and how the others fail.
-/

namespace SchemaCut
namespace Json

variable {room : Nat} {members : List Member} {n : String}

/-! ## The last member with a name -/

/-- The last of the members that has the name. -/
def LastOf (members : List Member) (n : String) (m : Member) : Prop :=
  ∃ before after, members = before ++ m :: after ∧ m.name? = some n ∧
    ∀ m' ∈ after, m'.name? ≠ some n

lemma lastOf_iff_find? {m : Member} :
    LastOf members n m ↔ members.reverse.find? (fun m => m.name? = some n) = some m := by
  rw [List.find?_eq_some_iff_append]
  constructor
  · rintro ⟨before, after, rfl, hm, hafter⟩
    exact ⟨by simpa using hm, after.reverse, before.reverse, by simp, by simpa using hafter⟩
  · rintro ⟨hm, after, before, heq, hafter⟩
    refine ⟨before.reverse, after.reverse, ?_, by simpa using hm, by simpa using hafter⟩
    rw [← List.reverse_inj, heq]
    simp

lemma lastOf_concat_iff {m x : Member} :
    LastOf (members ++ [m]) n x ↔
      if m.name? = some n then x = m else LastOf members n x := by
  rw [lastOf_iff_find?, List.reverse_concat, List.find?_cons]
  by_cases hm : m.name? = some n
  · simp [hm, eq_comm]
  · simp [hm, lastOf_iff_find?]

/-- Of several members with one name the last one counts. -/
lemma find?_foldlM_insert? {p : NameMap Json}
    (h : members.foldlM (Tree.insert? room) ∅ = some p) (n : String) :
    (∀ m, LastOf members n m → ∃ v, m.2.value.value? room = some v ∧ p.find? n = some v) ∧
    ((∀ m, ¬ LastOf members n m) → p.find? n = none) := by
  induction members using List.reverseRecOn generalizing p with
  | nil =>
    cases h
    refine ⟨?_, fun _ => rfl⟩
    rintro m ⟨before, after, heq, -⟩
    simp at heq
  | append_singleton members m ih =>
    rw [List.foldlM_append] at h
    obtain ⟨q, hq, h⟩ := Option.bind_eq_some_iff.1 h
    simp only [List.foldlM_cons, List.foldlM_nil, bind_pure, Tree.insert?_eq] at h
    obtain ⟨n', hn', h⟩ := Option.bind_eq_some_iff.1 h
    obtain ⟨v, hv, rfl⟩ := Option.map_eq_some_iff.1 h
    simp only [lastOf_concat_iff, hn', Option.some.injEq, NameMap.find?_insert]
    by_cases hn : n' = n
    · subst hn
      simp [hv]
    · simpa only [if_neg hn, if_neg (Ne.symm hn)] using ih hq

/-- The last value that an object gives for a name. -/
def Tree.LastMember : Tree → String → Tree → Prop
  | .object members _, n, u => ∃ m, LastOf members n m ∧ m.2.value = u
  | _, _, _ => False

/-- What a map has for a name is the last value that is given for it. -/
lemma Tree.find?_of_map? {sec : Tree} {p : NameMap Json} (h : sec.map? (room + 1) = some p)
    (n : String) :
    (∀ u, sec.LastMember n u → ∃ v, u.value? room = some v ∧ p.find? n = some v) ∧
    ((∀ u, ¬ sec.LastMember n u) → p.find? n = none) := by
  cases sec with
  | object members close =>
    rw [map?_object_eq_foldlM] at h
    obtain ⟨hgiven, hmissing⟩ := find?_foldlM_insert? h n
    refine ⟨?_, fun hnone => hmissing fun m hm => hnone _ ⟨m, hm, rfl⟩⟩
    rintro _ ⟨m, hm, rfl⟩
    exact hgiven m hm
  | array items close =>
    rw [map?_array] at h
    cases h
  | null | bool b | number x | string l =>
    rw [IsScalar.map?_eq_none (by trivial)] at h
    cases h

/-- A value that is written as an object. -/
def Tree.IsObject : Tree → Prop
  | .object _ _ => True
  | _ => False

lemma Tree.isObject_iff {u : Tree} {v : Json} (h : u.value? room = some v) :
    v.isObject = true ↔ u.IsObject := by
  cases u with
  | null | bool b =>
    cases h
    exact iff_of_false Bool.false_ne_true id
  | number x | string l =>
    obtain ⟨w, -, rfl⟩ := Option.map_eq_some_iff.1 h
    exact iff_of_false Bool.false_ne_true id
  | array items close =>
    cases room with
    | zero => cases h
    | succ room =>
      obtain ⟨vs, -, rfl⟩ := Option.map_eq_some_iff.1 h
      exact iff_of_false Bool.false_ne_true id
  | object members close =>
    cases room with
    | zero => cases h
    | succ room =>
      obtain ⟨es, -, rfl⟩ := Option.map_eq_some_iff.1 h
      exact iff_of_true rfl trivial

end Json

namespace Schema

open Json

variable {room : Nat} {members : List Member} {s : Sections}

/-! ## The sections of a document -/

/-- What a document gives as the section of a kind: the value of the member with its name, or the
element at its place. -/
def SectionOf : Tree → Kind → Tree → Prop
  | .object members _, k, sec =>
    ∃ m : Member, m ∈ members ∧ m.name? = some k.sectionName ∧ m.2.value = sec
  | .array items _, k, sec => ∃ i, items[k.rank]? = some i ∧ i.value = sec
  | _, _, _ => False

/-- The last value that a document gives for an entity. -/
def LastGiven (t : Tree) (e : Entity) (u : Tree) : Prop :=
  ∃ sec, SectionOf t e.kind sec ∧ sec.LastMember e.name u

/-- The known sections are the maps that the document gives. -/
structure Knows (room : Nat) (t : Tree) (s : Sections) : Prop where
  given : ∀ k sec, SectionOf t k sec → ∃ p, s.get k = some p ∧ sec.map? room = some p
  found : ∀ k p, s.get k = some p → ∃ sec, SectionOf t k sec ∧ sec.map? room = some p

/-- A member is a section that is new, or it changes nothing. -/
lemma member?_eq_some {m : Member} {s' : Sections} (h : member? room s m = some s') :
    (∃ k p, m.name? = some k.sectionName ∧ s.get k = none ∧ m.2.value.map? room = some p ∧
      s' = s.modify k fun _ => some p) ∨
    (∀ k : Kind, m.name? ≠ some k.sectionName) ∧ s' = s := by
  rw [member?_eq] at h
  obtain ⟨n, hn, h⟩ := Option.bind_eq_some_iff.1 h
  change m.name? = some n at hn
  rw [named?] at h
  split at h
  · next k hk =>
    split at h
    · cases h
    · next hnew =>
      obtain ⟨p, hp, rfl⟩ := Option.map_eq_some_iff.1 h
      rw [Kind.ofSection?_eq_some_iff.1 hk] at hn
      exact .inl ⟨k, p, hn, by simpa using hnew, hp, rfl⟩
  · next hk =>
    cases h
    refine .inr ⟨fun k hname => ?_, rfl⟩
    obtain rfl := Option.some.inj (hn.symm.trans hname)
    rw [Kind.ofSection?_sectionName] at hk
    cases hk

lemma sectionOf_concat_iff {m : Member} {close : Space} {k : Kind} {sec : Tree} :
    SectionOf (.object (members ++ [m]) close) k sec ↔
      SectionOf (.object members close) k sec ∨ m.name? = some k.sectionName ∧ m.2.value = sec := by
  simp only [SectionOf, List.mem_append, List.mem_singleton, or_and_right, exists_or,
    exists_eq_left]

lemma knows_members (close : Space) (h : members.foldlM (member? room) (.const none) = some s) :
    Knows room (.object members close) s := by
  induction members using List.reverseRecOn generalizing s with
  | nil =>
    cases h
    refine ⟨?_, fun k p hp => ?_⟩
    · rintro k sec ⟨m, hm, -⟩
      cases hm
    · rw [PerKind.get_const] at hp
      cases hp
  | append_singleton members m ih =>
    rw [List.foldlM_append] at h
    obtain ⟨s₁, hs₁, h⟩ := Option.bind_eq_some_iff.1 h
    simp only [List.foldlM_cons, List.foldlM_nil, bind_pure] at h
    obtain ⟨hgiven, hfound⟩ := ih hs₁
    obtain ⟨k, p, hname, hnew, hp, rfl⟩ | ⟨hother, rfl⟩ := member?_eq_some h
    · refine ⟨fun j sec hsec => ?_, fun j q hq => ?_⟩
      · rcases sectionOf_concat_iff.1 hsec with hsec | ⟨hname', rfl⟩
        · obtain ⟨q, hq, hmap⟩ := hgiven j sec hsec
          have hjk : j ≠ k := by
            rintro rfl
            rw [hnew] at hq
            cases hq
          exact ⟨q, by rw [PerKind.get_modify_of_ne _ _ hjk, hq], hmap⟩
        · obtain rfl := Kind.sectionName_injective (Option.some.inj (hname.symm.trans hname'))
          exact ⟨p, PerKind.get_modify_self _ _ _, hp⟩
      · rw [PerKind.get_modify] at hq
        split at hq
        · next hjk =>
          cases hq
          exact ⟨_, sectionOf_concat_iff.2 (.inr ⟨hjk ▸ hname, rfl⟩), hp⟩
        · obtain ⟨sec, hsec, hmap⟩ := hfound j q hq
          exact ⟨sec, sectionOf_concat_iff.2 (.inl hsec), hmap⟩
    · refine ⟨fun j sec hsec => ?_, fun j q hq => ?_⟩
      · rcases sectionOf_concat_iff.1 hsec with hsec | ⟨hname, -⟩
        · exact hgiven j sec hsec
        · exact absurd hname (hother j)
      · obtain ⟨sec, hsec, hmap⟩ := hfound j q hq
        exact ⟨sec, sectionOf_concat_iff.2 (.inl hsec), hmap⟩

/-- The elements of an array are the sections of the kinds, one by one. -/
lemma get_of_elements? {kinds : List Kind} (hkinds : kinds.Nodup) {items : List (Spaced Tree)}
    {s s' : Sections} {left : List (Json.Field Sections)}
    (h : Record.elements? (sectionGiven? room) (kinds.map sectionField) items s = some (s', left)) :
    (∀ k, k ∉ kinds → s'.get k = s.get k) ∧
    ∀ (i : Nat) (k : Kind), kinds[i]? = some k →
      (∀ item : Spaced Tree, items[i]? = some item →
        ∃ p, s'.get k = some p ∧ item.value.map? room = some p) ∧
      (items[i]? = none → s'.get k = s.get k) := by
  induction kinds generalizing items s with
  | nil =>
    cases items with
    | nil =>
      cases h
      exact ⟨fun _ _ => rfl, fun _ _ hi => nomatch hi⟩
    | cons item items => cases h
  | cons k kinds ih =>
    obtain ⟨hk, hkinds⟩ := List.nodup_cons.1 hkinds
    cases items with
    | nil =>
      cases h
      exact ⟨fun _ _ => rfl, fun i j _ => ⟨fun _ hitem => (nomatch hitem), fun _ => rfl⟩⟩
    | cons item items =>
      obtain ⟨s₁, hs₁, h⟩ := Option.bind_eq_some_iff.1 h
      rw [sectionGiven?_sectionField] at hs₁
      obtain ⟨p, hp, rfl⟩ := Option.map_eq_some_iff.1 hs₁
      obtain ⟨hother, hkind⟩ := ih hkinds h
      refine ⟨fun j hj => ?_, fun i j hi => ?_⟩
      · obtain ⟨hjk, hj⟩ := not_or.1 (mt List.mem_cons.2 hj)
        rw [hother j hj, PerKind.get_modify_of_ne _ _ hjk]
      · cases i with
        | zero =>
          obtain rfl := Option.some.inj hi
          refine ⟨fun item' hitem => ?_, fun hnone => nomatch hnone⟩
          obtain rfl := Option.some.inj hitem
          exact ⟨p, by rw [hother k hk, PerKind.get_modify_self], hp⟩
        | succ i =>
          have hjk : j ≠ k := by
            rintro rfl
            exact hk (List.mem_of_getElem? hi)
          obtain ⟨hsome, hnone⟩ := hkind i j hi
          rw [PerKind.get_modify_of_ne _ _ hjk] at hnone
          exact ⟨hsome, hnone⟩

lemma knows_elements {items : List (Spaced Tree)} (close : Space)
    {left : List (Json.Field Sections)}
    (h : Record.elements? (sectionGiven? room) document.fields items (.const none) =
      some (s, left)) :
    Knows room (.array items close) s := by
  obtain ⟨-, hkind⟩ := get_of_elements? (by decide : Kind.all.Nodup) h
  have hrank : ∀ k : Kind, Kind.all[k.rank]? = some k := by
    intro k
    cases k <;> rfl
  refine ⟨?_, fun k p hp => ?_⟩
  · rintro k _ ⟨item, hitem, rfl⟩
    exact (hkind k.rank k (hrank k)).1 item hitem
  · obtain ⟨hsome, hnone⟩ := hkind k.rank k (hrank k)
    cases hitem : items[k.rank]? with
    | none =>
      rw [hnone hitem, PerKind.get_const] at hp
      cases hp
    | some item =>
      obtain ⟨q, hq, hmap⟩ := hsome item hitem
      obtain rfl := Option.some.inj (hp.symm.trans hq)
      exact ⟨item.value, ⟨item, hitem, rfl⟩, hmap⟩

/-- The schema that a document means has the maps of its sections. -/
lemma exists_knows_of_meaning? {t : Tree} {s : Schema} (h : meaning? t = some s) :
    ∃ known, Knows 126 t known ∧ s = document.finish known := by
  cases t with
  | object members close =>
    rw [meaning?_object] at h
    obtain ⟨known, hknown, h⟩ := Option.bind_eq_some_iff.1 h
    exact ⟨known, knows_members close hknown,
      Record.ofMembers_eq_ok (toOption_eq_some_iff.1 h)⟩
  | array items close =>
    rw [meaning?_array] at h
    obtain ⟨⟨known, left⟩, hknown, h⟩ := Option.bind_eq_some_iff.1 h
    exact ⟨known, knows_elements close hknown,
      Record.ofElements_eq_ok (toOption_eq_some_iff.1 h)⟩
  | null | bool b | number x | string l => cases h

/-! ## What a document gives -/

/-- A document gives every entity the last value that stands for it, and no other entities. -/
theorem find?_of_meaning? {t : Tree} {s : Schema} (h : meaning? t = some s) (e : Entity) :
    (∀ u, LastGiven t e u → ∃ v, u.value? 125 = some v ∧ s.find? e = some v) ∧
    ((∀ u, ¬ LastGiven t e u) → s.find? e = none) := by
  obtain ⟨known, hknown, rfl⟩ := exists_knows_of_meaning? h
  have hfind : (document.finish known).find? e = (known.get e.kind).bind (·.find? e.name) := by
    rw [find?, definitions, document, PerKind.get_map]
    cases known.get e.kind with
    | none => rfl
    | some p => rfl
  rw [hfind]
  constructor
  · rintro u ⟨sec, hsec, hlast⟩
    obtain ⟨p, hp, hmap⟩ := hknown.given e.kind sec hsec
    rw [hp]
    exact (Tree.find?_of_map? hmap e.name).1 u hlast
  · intro hnone
    cases hp : known.get e.kind with
    | none => rfl
    | some p =>
      obtain ⟨sec, hsec, hmap⟩ := hknown.found e.kind p hp
      exact (Tree.find?_of_map? hmap e.name).2 fun u hlast => hnone u ⟨sec, hsec, hlast⟩

/-! ## Definitions that are no objects -/

/-- The definition of the entity is no object. -/
def Offends (s : Schema) (e : Entity) : Prop := ∃ v, s.find? e = some v ∧ v.isObject = false

/-- The first definition in the list that is no object is that of the least entity. -/
lemma isFirst_of_find? {s : Schema} {d : Entity × Json}
    (h : s.entities.find? (fun d => !d.2.isObject) = some d) : d.1.IsFirst s.Offends := by
  obtain ⟨hd, before, after, heq, hbefore⟩ := List.find?_eq_some_iff_append.1 h
  have hmem : d ∈ s.entities := List.mem_of_find?_eq_some h
  refine ⟨⟨d.2, mem_entities.1 hmem, by simpa using hd⟩, ?_⟩
  rintro x ⟨v, hx, hv⟩
  have hpairwise := s.pairwise_entities
  have hxv : (x, v) ∈ before ++ d :: after := heq ▸ mem_entities.2 hx
  rw [heq, List.pairwise_append, List.pairwise_cons] at hpairwise
  rcases List.mem_append.1 hxv with hxv | hxv
  · have hobject := hbefore _ hxv
    simp [hv] at hobject
  · rcases List.mem_cons.1 hxv with rfl | hxv
    · exact .inl rfl
    · exact .inr (hpairwise.2.1.1 _ hxv)

/-- A schema in which a definition is no object is refused for the least entity with such a
definition. -/
lemma validate_eq_error_iff {s : Schema} {f : Failure} :
    s.validate = .error f ↔ ∃ e, f = .notAnObject e ∧ e.IsFirst s.Offends := by
  rw [validate]
  cases hfind : s.entities.find? fun d => !d.2.isObject with
  | none =>
    simp only [reduceCtorEq, false_iff]
    rintro ⟨e, -, ⟨⟨v, hv, hobject⟩, -⟩⟩
    have hall := List.find?_eq_none.1 hfind _ (mem_entities.2 hv)
    simp [hobject] at hall
  | some d =>
    have hfirst := isFirst_of_find? hfind
    constructor
    · rintro ⟨⟩
      exact ⟨d.1, rfl, hfirst⟩
    · rintro ⟨e, rfl, he⟩
      obtain rfl := he.unique hfirst
      rfl

/-- What is read from a document is refused for its definitions only. -/
lemma ofText_eq_error_iff {text : String} {s : Schema} (h : ofDocument text = .ok s)
    {f : Failure} : ofText text = .error f ↔ ∃ e, f = .notAnObject e ∧ e.IsFirst s.Offends := by
  rw [← validate_eq_error_iff, ofText, h]
  change (s.validate >>= fun _ => .ok s) = .error f ↔ _
  cases s.validate with
  | error g =>
    exact ⟨fun h => congrArg _ (Except.error.inj h), fun h => congrArg _ (Except.error.inj h)⟩
  | ok _ => exact iff_of_false (by rintro ⟨⟩) (by rintro ⟨⟩)

/-! ## Texts -/

/-- A text that is read as a document is the text of a tree. -/
lemma exists_text_of_ofDocument {text : String} {s : Schema} (h : ofDocument text = .ok s) :
    ∃ d : Spaced Tree, d.text = text := by
  refine exists_text_of_readAll (Record.stops_record (fun room field hfield s cs => ?_) maxDepth) h
  obtain ⟨k, -, rfl⟩ := List.mem_map.1 hfield
  exact (stops_readMap stops_readValue room cs).map (fun _ => rfl) fun _ h => h

/-- The last value that is given for the entity is no object. -/
def LastOffends (t : Tree) (e : Entity) : Prop := ∃ u, LastGiven t e u ∧ ¬ u.IsObject

section Given

variable {t : Tree} {s : Schema}

lemma exists_lastGiven (h : meaning? t = some s) {e : Entity} {v : Json} (hv : s.find? e = some v) :
    ∃ u, LastGiven t e u ∧ u.value? 125 = some v := by
  by_contra hnone
  have hmissing : ∀ u, ¬ LastGiven t e u := by
    intro u hu
    obtain ⟨w, hw, hfind⟩ := (find?_of_meaning? h e).1 u hu
    obtain rfl := Option.some.inj (hv.symm.trans hfind)
    exact hnone ⟨u, hu, hw⟩
  rw [(find?_of_meaning? h e).2 hmissing] at hv
  cases hv

lemma offends_iff (h : meaning? t = some s) {e : Entity} : s.Offends e ↔ LastOffends t e := by
  constructor
  · rintro ⟨v, hv, hobject⟩
    obtain ⟨u, hu, hvalue⟩ := exists_lastGiven h hv
    refine ⟨u, hu, fun hu => ?_⟩
    rw [(Tree.isObject_iff hvalue).2 hu] at hobject
    cases hobject
  · rintro ⟨u, hu, hobject⟩
    obtain ⟨v, hvalue, hv⟩ := (find?_of_meaning? h e).1 u hu
    exact ⟨v, hv, Bool.eq_false_iff.2 (mt (Tree.isObject_iff hvalue).1 hobject)⟩

end Given

/-- A text that is read as a document is taken if the last value that it gives for each name of each
section is an object, and for no other reason.  The schema has these values, and no other names.  A
text that is not taken fails with the least entity whose last value is no object, whatever the order
in the text. -/
theorem ofText_verdict (text : String) (s : Schema) (hread : ofDocument text = .ok s) :
    (∃ d : Spaced Tree, d.text = text) ∧
    ∀ d : Spaced Tree, d.text = text →
      (∀ e u, LastGiven d.value e u → ∃ v, u.value? 125 = some v ∧ s.find? e = some v) ∧
      (∀ e, (∀ u, ¬ LastGiven d.value e u) → s.find? e = none) ∧
      ((∃ loaded, ofText text = .ok loaded) ↔ ∀ e u, LastGiven d.value e u → u.IsObject) ∧
      (∀ loaded, ofText text = .ok loaded → loaded = s) ∧
      ∀ f, ofText text = .error f ↔
        ∃ e, f = .notAnObject e ∧ e.IsFirst (LastOffends d.value) := by
  refine ⟨exists_text_of_ofDocument hread, ?_⟩
  rintro d rfl
  have hmeaning : meaning? d.value = some s := by
    rw [← ofDocument_text, hread]
    rfl
  have hloaded : ∀ loaded, ofText d.text = .ok loaded → loaded = s := by
    intro loaded h
    exact Except.ok.inj ((ofText_eq_ok_iff.1 h).1.symm.trans hread)
  have hoffends : s.Offends = LastOffends d.value := funext fun e => propext (offends_iff hmeaning)
  refine ⟨fun e => (find?_of_meaning? hmeaning e).1, fun e => (find?_of_meaning? hmeaning e).2,
    ?_, hloaded, fun f => ?_⟩
  · constructor
    · rintro ⟨loaded, h⟩ e u hu
      obtain rfl := hloaded loaded h
      obtain ⟨v, hvalue, hv⟩ := (find?_of_meaning? hmeaning e).1 u hu
      exact (Tree.isObject_iff hvalue).1 ((ofText_eq_ok_iff.1 h).2 e v hv)
    · intro hobjects
      refine ⟨s, ofText_eq_ok_iff.2 ⟨hread, fun e v hv => ?_⟩⟩
      obtain ⟨u, hu, hvalue⟩ := exists_lastGiven hmeaning hv
      exact (Tree.isObject_iff hvalue).2 (hobjects e u hu)
  · rw [← hoffends]
    exact ofText_eq_error_iff hread

/-! ## A document with several offenders -/

/-- Gives the sections in another order than they are written in, and two names twice. -/
def repeatingDocument : Spaced Tree := tight (.object
  [tightMember "functions" (.object [tightMember "f" .null] .empty),
    tightMember "resources" (.object
      [tightMember "b" (.bool true), tightMember "a" (.array [] .empty),
        tightMember "a" (.object [] .empty)] .empty),
    tightMember "types" (.object
      [tightMember "t" .null, tightMember "t" (.object [] .empty)] .empty)] .empty)

example : repeatingDocument.text = "\x7b\"functions\":\x7b\"f\":null\x7d," ++
    "\"resources\":\x7b\"b\":true,\"a\":[],\"a\":\x7b\x7d\x7d," ++
    "\"types\":\x7b\"t\":null,\"t\":\x7b\x7d\x7d\x7d" := by
  decide +kernel

/-- What is read from it. -/
def repeating : Schema :=
  ((((∅ : Schema).insert ⟨.type, "t"⟩ (.obj [])).insert ⟨.resource, "a"⟩ (.obj [])).insert
    ⟨.resource, "b"⟩ (.bool true)).insert ⟨.function, "f"⟩ .null

/-- The values that are followed by objects are forgiven, and of the other two it is the resource
that is reported, although the function comes before it in the text. -/
theorem repeatingDocument_verdict :
    ofDocument repeatingDocument.text = .ok repeating ∧
    ofText repeatingDocument.text = .error (.notAnObject ⟨.resource, "b"⟩) ∧
    Entity.IsFirst (LastOffends repeatingDocument.value) ⟨.resource, "b"⟩ := by
  have hread : ofDocument repeatingDocument.text = .ok repeating := by
    refine toOption_eq_some_iff.1 ((ofDocument_text repeatingDocument).trans ?_)
    cbv
  have hverdict := ofText_verdict repeatingDocument.text repeating hread
  have herror : ofText repeatingDocument.text = .error (.notAnObject ⟨.resource, "b"⟩) := by
    rw [ofText, hread]
    cbv
  obtain ⟨e, he, hfirst⟩ := ((hverdict.2 _ rfl).2.2.2.2 _).1 herror
  obtain rfl : ⟨.resource, "b"⟩ = e := Failure.notAnObject.inj he
  exact ⟨hread, herror, hfirst⟩

end Schema
end SchemaCut
