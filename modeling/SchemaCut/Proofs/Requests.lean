import SchemaCut.Documents
import SchemaCut.Proofs.Reading.Fields
import SchemaCut.Proofs.Reading.Words
import SchemaCut.Proofs.Reading.Written
import SchemaCut.Proofs.SameDocument

/-!
# Requests and sets as documents

A request, its shortening options and a set of entities are each written as one object, and read
from many.  Which members an object must have to stand for one of them is said without a word about
the reading: `Tree.given` is what stands under a name, wherever in the object, and a member that has
a default may be missing where the default is meant (`Tree.GivenOr`).  Members of other names are
free, and so are white space and the spelling of every string.

What is written is one of these objects, so the round trip is an instance of reading them; a lemma
for each of the three reads its object field by field.

* `ShortenOptions.Listed`, `Request.Listed`, `EntitySet.Listed` : the objects.
* `Request.Listed.ofText_eq`, `EntitySet.Listed.ofText_eq` : what is read from them.
* `Request.exists_listed`, `EntitySet.exists_listed` : what is written is one of them.
* `documents_round_trip` : what follows for both.
-/

namespace SchemaCut
namespace Json

open Record (Slot only?)

/-! ## What stands under a name -/

namespace Tree

/-- A tree that means a value; it has no more room than a list of texts needs. -/
def Means (v : Json) (t : Tree) : Prop := t.value? 1 = some v

/-- One value stands under a name. -/
def Given (members : List Member) (n : String) (P : Tree → Prop) : Prop :=
  ∃ t, given members n = [t] ∧ P t

/-- One value stands under a name, or none where the default is meant. -/
def GivenOr (members : List Member) (n : String) (P : Tree → Prop) (isDefault : Prop) : Prop :=
  Given members n P ∨ given members n = [] ∧ isDefault

section Given

variable {members : List Member} {n : String} {P : Tree → Prop} {β : Type}
  {value? : Tree → Option β} {b standard : β}

lemma Given.only?_eq (h : Given members n P) (hP : ∀ t, P t → value? t = some b) :
    only? value? (given members n) = some (some b) := by
  obtain ⟨t, hgiven, ht⟩ := h
  rw [hgiven, only?, hP t ht]
  rfl

/-- With the default for nothing a member that may be missing gives what is meant. -/
lemma GivenOr.exists_only? (h : GivenOr members n P (b = standard))
    (hP : ∀ t, P t → value? t = some b) :
    ∃ b?, only? value? (given members n) = some b? ∧ b?.getD standard = b := by
  obtain h | ⟨hnone, heq⟩ := h
  · exact ⟨some b, h.only?_eq hP, rfl⟩
  · exact ⟨none, by rw [hnone]; rfl, heq.symm⟩

end Given

variable {t : Tree}

lemma exists_string_of_value? {room : Nat} {s : String} (h : t.value? room = some (.str s)) :
    ∃ l, t = .string l ∧ l.value? = some s := by
  cases t <;> cases room <;> simp_all [value?]

lemma text?_of_value? {room : Nat} {s : String} (h : t.value? room = some (.str s)) :
    t.text? = some s := by
  obtain ⟨l, rfl, hl⟩ := exists_string_of_value? h
  exact hl

/-- A word is chosen however it is spelled. -/
lemma chosen?_of_means {α : Type} {choice : List (String × α)} {word : String} {a : α}
    (room : Nat) (hword : choice.lookup word = some a) (h : Means (.str word) t) :
    t.chosen? choice room = some a := by
  obtain ⟨l, rfl, hl⟩ := exists_string_of_value? h
  rw [chosen?, hl]
  exact hword

lemma bool?_of_means {b : Bool} (h : Means (.bool b) t) : t.bool? = some b := by
  cases t <;> simp_all [Means, value?, bool?]

lemma count?_of_means {n : Nat} (h : Means (.num (.int n)) t) : t.count? = some n := by
  have hnumber : ∃ x, t = .number x ∧ x.value? = some (.int n) := by
    cases t <;> simp_all [Means, value?]
  obtain ⟨x, rfl, hx⟩ := hnumber
  simp [count?, hx, Number.count?]

/-- The list of texts that a tree means to a reader that may open `room` containers. -/
abbrev texts? (room : Nat) (t : Tree) : Option (List String) := t.list? (fun _ => text?) room

lemma mapM_text?_of_itemValues? {items : List (Spaced Tree)} {ss : List String}
    (h : itemValues? 0 items = some (ss.map .str)) : items.mapM (·.value.text?) = some ss := by
  induction items generalizing ss with
  | nil => cases ss with
    | nil => rfl
    | cons s ss => cases h
  | cons i items ih =>
    obtain ⟨before, t, after⟩ := i
    simp only [itemValues?, bind, Option.bind_eq_some_iff] at h
    obtain ⟨v, hv, vs, hvs, heq⟩ := h
    cases ss with
    | nil => cases heq
    | cons s ss =>
      obtain ⟨rfl, rfl⟩ := List.cons.inj (Option.some.inj heq)
      rw [List.mapM_cons, text?_of_value? hv, ih hvs]
      rfl

lemma texts?_of_means {ss : List String} (room : Nat) (h : Means (.ofStrings ss) t) :
    t.texts? (room + 1) = some ss := by
  have harray : ∃ items close, t = .array items close ∧
      itemValues? 0 items = some (ss.map .str) := by
    cases t <;> simp_all [Means, value?, ofStrings]
  obtain ⟨items, close, rfl, hitems⟩ := harray
  exact mapM_text?_of_itemValues? hitems

end Tree

lemma takes_readStrings (room : Nat) (t : Tree) (w : Space) (rest : List Char) :
    Takes (readStrings room (w.chars ++ t.textBefore rest)) rest (t.texts? room) :=
  takes_readList (fun _ t w _ htail => takes_readText t w htail) t room w rest

/-! ## What stands under a name of written members -/

namespace Lists

variable {R : String × Json → Tree → Prop} {es : List (String × Json)} {members : List Member}

lemma named (h : Lists R es members) : ∀ m ∈ members, ∃ n, m.name? = some n := by
  induction h with
  | nil => exact fun _ hm => absurd hm List.not_mem_nil
  | @cons e m es members hname _ _ ih => exact List.forall_mem_cons.2 ⟨⟨e.1, hname⟩, ih⟩

lemma given_eq_nil (h : Lists R es members) {n : String} (hn : ∀ e ∈ es, e.1 ≠ n) :
    Tree.given members n = [] := by
  induction h with
  | nil => rfl
  | @cons e m es members hname _ _ ih =>
    rw [List.forall_mem_cons] at hn
    rw [Tree.given_cons, if_neg (by rw [hname]; exact fun h => hn.1 (Option.some.inj h)), ih hn.2]

/-- An entry whose name no other entry has is all that stands under the name. -/
lemma given (h : Lists R es members) {e : String × Json} (he : e ∈ es)
    (hnodup : (es.map Prod.fst).Nodup) : Tree.Given members e.1 (R e) := by
  induction h with
  | nil => exact absurd he List.not_mem_nil
  | @cons e' m es members hname hvalue hmore ih =>
    obtain ⟨hnotMem, hnodup⟩ := List.nodup_cons.1 hnodup
    obtain rfl | he := List.mem_cons.1 he
    · refine ⟨m.2.value, ?_, hvalue⟩
      have hother : ∀ e' ∈ es, e'.1 ≠ e.1 := fun e' he' heq =>
        hnotMem (by rw [← heq]; exact List.mem_map_of_mem he')
      rw [Tree.given_cons, if_pos hname, hmore.given_eq_nil hother]
    · obtain ⟨t, hgiven, ht⟩ := ih he hnodup
      refine ⟨t, ?_, ht⟩
      rw [Tree.given_cons, if_neg, hgiven]
      rw [hname]
      exact fun heq => hnotMem (Option.some.inj heq ▸ List.mem_map_of_mem he)

end Lists

/-! ## What is written for a text or for a list of texts -/

lemma exists_means {v : Json} (hbounded : v.Bounded 1) (hintegral : v.Integral) (layout : Layout)
    (depth : Nat) : ∃ t, HasText layout depth v t ∧ Tree.Means v t :=
  (exists_tree hbounded hintegral layout depth).imp fun _ ht => ⟨ht.text, ht.value⟩

lemma exists_means_str (layout : Layout) (depth : Nat) (s : String) :
    ∃ t, HasText layout depth (.str s) t ∧ Tree.Means (.str s) t := by
  have hbounded : (Json.str s).Bounded 1 := ⟨trivial, Nat.zero_le 1⟩
  exact exists_means hbounded (fun _ h => absurd h List.not_mem_nil) layout depth

lemma exists_means_ofStrings (layout : Layout) (depth : Nat) (ss : List String) :
    ∃ t, HasText layout depth (.ofStrings ss) t ∧ Tree.Means (.ofStrings ss) t := by
  refine exists_means ?_ ?_ layout depth
  · rw [ofStrings, bounded_arr_iff, List.forall_mem_map]
    exact fun s _ => ⟨trivial, Nat.le_refl 0⟩
  · rw [ofStrings, integral_arr_iff, List.forall_mem_map]
    exact fun s _ n h => absurd h List.not_mem_nil

end Json

open Json
open Record (Slot alone? only? collect?)

/-! ## Shortening options -/

namespace ShortenOptions

/-- An object of shortening options: each of the three members is there, or it is missing and the
options have its default. -/
structure Listed (o : ShortenOptions) (members : List Member) : Prop where
  named : ∀ m ∈ members, ∃ n, m.name? = some n
  maxLength : Tree.GivenOr members "max_length" (Tree.Means (.num (.int o.maxLength)))
    (o.maxLength = 99)
  fill : Tree.GivenOr members "fill" (Tree.Means (.str o.fill)) (o.fill = "<<shortened>>")
  keys : Tree.GivenOr members "keys" (Tree.Means (.ofStrings o.keys)) (o.keys = ["description"])

lemma slot_maxLength : Slot maxLengthField (fun _ => Tree.count?)
    fun d n => { d with maxLength := some n } :=
  .of_read (fun _ t w _ htail => takes_readCount t w htail) fun _ _ => rfl

lemma slot_fill : Slot fillField (fun _ => Tree.text?) fun d s => { d with fill := some s } :=
  .of_read (fun _ t w _ htail => takes_readText t w htail) fun _ _ => rfl

lemma slot_keys : Slot keysField Tree.texts? fun d ks => { d with keys := some ks } :=
  .of_read (fun room t w tail _ => takes_readStrings room t w tail) fun _ _ => rfl

lemma apart_fields (room : Nat) : document.fields.Pairwise (Record.Apart (alone? room)) := by
  simp [document, slot_maxLength.apart slot_fill room, slot_maxLength.apart slot_keys room,
    slot_fill.apart slot_keys room]

/-- An object of the options is read as the options. -/
lemma Listed.value?_object {o : ShortenOptions} {members : List Member} (h : o.Listed members)
    (close : Space) (room : Nat) :
    document.value? alone? (room + 2) (.object members close) = some o := by
  obtain ⟨n?, hn, hmaxLength⟩ := h.maxLength.exists_only? fun t => Tree.count?_of_means
  obtain ⟨s?, hs, hfill⟩ := h.fill.exists_only? fun t => Tree.text?_of_value?
  obtain ⟨ks?, hks, hkeys⟩ := h.keys.exists_only? fun t => Tree.texts?_of_means room
  have hread : collect? (alone? (room + 1)) document.fields (Tree.given members) {} =
      some { maxLength := n?, fill := s?, keys := ks? } :=
    calc collect? (alone? (room + 1)) document.fields (Tree.given members) {}
        = collect? (alone? (room + 1)) [fillField, keysField] (Tree.given members)
            { maxLength := n? } :=
          slot_maxLength.collect?_cons (room + 1) rfl hn (by cases n? <;> rfl) _
      _ = collect? (alone? (room + 1)) [keysField] (Tree.given members)
            { maxLength := n?, fill := s? } :=
          slot_fill.collect?_cons (room + 1) rfl hs (by cases s? <;> rfl) _
      _ = some { maxLength := n?, fill := s?, keys := ks? } :=
          slot_keys.collect?_cons (room + 1) rfl hks (by cases ks? <;> rfl) _
  rw [Record.value?_object (apart_fields (room + 1)) h.named hread close]
  change some (Draft.finish _) = _
  rw [Draft.finish, hmaxLength, hfill, hkeys]

lemma takes_read (t : Tree) (room : Nat) (w : Space) (rest : List Char) :
    Takes (document.read room (w.chars ++ t.textBefore rest)) rest
      (document.value? alone? room t) := by
  refine Record.takes_record (fun room f hf t => ?_) t room w rest
  simp only [document, List.mem_cons, List.not_mem_nil, or_false] at hf
  obtain rfl | rfl | rfl := hf
  · exact slot_maxLength.fieldTakes room t
  · exact slot_fill.fieldTakes room t
  · exact slot_keys.fieldTakes room t

/-- What is written for options is an object of them. -/
lemma exists_listed {o : ShortenOptions} (hlength : o.maxLength < 2 ^ 64) (layout : Layout)
    (depth : Nat) :
    ∃ members close, HasText layout depth o.toJson (.object members close) ∧ o.Listed members := by
  have hwritten : ∀ e ∈ [("max_length", Json.num (.int o.maxLength)), ("fill", .str o.fill),
      ("keys", .ofStrings o.keys)], ∃ t, HasText layout (depth + 1) e.2 t ∧ Tree.Means e.2 t := by
    have hbounded : (Json.num (.int o.maxLength)).Bounded 1 := ⟨trivial, Nat.zero_le 1⟩
    have hintegral : (Json.num (.int o.maxLength)).Integral := by
      simp only [Integral, numbers, List.mem_singleton, forall_eq, Number.Integral]
      exact ⟨by omega, Int.ofNat_lt.2 hlength⟩
    simp only [List.forall_mem_cons]
    exact ⟨exists_means hbounded hintegral layout _, exists_means_str layout _ o.fill,
      exists_means_ofStrings layout _ o.keys, fun _ h => absurd h List.not_mem_nil⟩
  obtain ⟨members, close, htext, hlists⟩ := exists_object layout depth hwritten
  refine ⟨members, close, htext, hlists.named, .inl ?_, .inl ?_, .inl ?_⟩
  · exact hlists.given (e := ("max_length", .num (.int o.maxLength))) (by simp) (by simp)
  · exact hlists.given (e := ("fill", .str o.fill)) (by simp) (by simp)
  · exact hlists.given (e := ("keys", .ofStrings o.keys)) (by simp) (by simp)

end ShortenOptions

/-! ## Requests -/

namespace Request

/-- A tree of shortening options, or null if there are none. -/
def ShortensBy (o? : Option ShortenOptions) (t : Tree) : Prop :=
  match o? with
  | none => t = .null
  | some o => ∃ members close, t = .object members close ∧ o.Listed members

/-- An object of a request: name and kind are there, and each of the other two members is there, or
it is missing and the request has its default. -/
structure Listed (r : Request) (members : List Member) : Prop where
  named : ∀ m ∈ members, ∃ n, m.name? = some n
  name : Tree.Given members "name" (Tree.Means (.str r.root.name))
  kind : Tree.Given members "kind" (Tree.Means r.root.kind.toJson)
  fullParents : Tree.GivenOr members "load_full_parents" (Tree.Means (.bool r.fullParents))
    (r.fullParents = false)
  shorten : Tree.GivenOr members "shorten" (ShortensBy r.shorten) (r.shorten = none)

lemma slot_name : Slot nameField (fun _ => Tree.text?) fun d s => { d with name := some s } :=
  .of_read (fun _ t w _ htail => takes_readText t w htail) fun _ _ => rfl

lemma slot_kind : Slot kindField (fun room t => t.chosen? Kind.choice room)
    fun d k => { d with kind := some k } :=
  .of_read (fun room t w tail _ => takes_readChoice t room w tail) fun _ _ => rfl

lemma slot_fullParents : Slot fullParentsField (fun _ => Tree.bool?)
    fun d b => { d with fullParents := some b } :=
  .of_read (fun _ t w _ htail => takes_readBool t w htail) fun _ _ => rfl

lemma slot_shorten : Slot shortenField
    (fun room t => t.optional? (ShortenOptions.document.value? alone? room t))
    fun d o => { d with shorten := some o } :=
  .of_read (fun room t w tail _ => takes_readOptional (ShortenOptions.takes_read t room w tail))
    fun _ _ => rfl

lemma apart_fields (room : Nat) : document.fields.Pairwise (Record.Apart (alone? room)) := by
  simp [document, slot_name.apart slot_kind room, slot_name.apart slot_fullParents room,
    slot_name.apart slot_shorten room, slot_kind.apart slot_fullParents room,
    slot_kind.apart slot_shorten room, slot_fullParents.apart slot_shorten room]

lemma optional?_of_shortensBy {o? : Option ShortenOptions} {t : Tree} (h : ShortensBy o? t)
    (room : Nat) :
    t.optional? (ShortenOptions.document.value? alone? (room + 2) t) = some o? := by
  cases o? with
  | none =>
    obtain rfl : t = .null := h
    rfl
  | some o =>
    obtain ⟨members, close, rfl, hlisted⟩ := h
    rw [hlisted.value?_object close room]
    rfl

/-- An object of a request is read as the request. -/
lemma Listed.value?_object {r : Request} {members : List Member} (h : r.Listed members)
    (close : Space) (room : Nat) :
    document.value? alone? (room + 3) (.object members close) = some r := by
  have hname := h.name.only?_eq fun t => Tree.text?_of_value?
  have hword : Kind.choice.lookup r.root.kind.word = some r.root.kind := by
    cases r.root.kind <;> rfl
  have hkind := h.kind.only?_eq fun t => Tree.chosen?_of_means (room + 2) hword
  obtain ⟨b?, hb, hfullParents⟩ := h.fullParents.exists_only? fun t => Tree.bool?_of_means
  obtain ⟨o?, ho, hshorten⟩ := h.shorten.exists_only? fun t ht => optional?_of_shortensBy ht room
  have hread : collect? (alone? (room + 2)) document.fields (Tree.given members) {} =
      some { name := r.root.name, kind := r.root.kind, fullParents := b?, shorten := o? } :=
    calc collect? (alone? (room + 2)) document.fields (Tree.given members) {}
        = collect? (alone? (room + 2)) [kindField, fullParentsField, shortenField]
            (Tree.given members) { name := r.root.name } :=
          slot_name.collect?_cons (room + 2) rfl hname rfl _
      _ = collect? (alone? (room + 2)) [fullParentsField, shortenField] (Tree.given members)
            { name := r.root.name, kind := r.root.kind } :=
          slot_kind.collect?_cons (room + 2) rfl hkind rfl _
      _ = collect? (alone? (room + 2)) [shortenField] (Tree.given members)
            { name := r.root.name, kind := r.root.kind, fullParents := b? } :=
          slot_fullParents.collect?_cons (room + 2) rfl hb (by cases b? <;> rfl) _
      _ = some { name := r.root.name, kind := r.root.kind, fullParents := b?, shorten := o? } :=
          slot_shorten.collect?_cons (room + 2) rfl ho (by cases o? <;> rfl) _
  rw [Record.value?_object (apart_fields (room + 2)) h.named hread close]
  change some (Draft.finish _) = _
  rw [Draft.finish, hfullParents, hshorten]
  rfl

lemma takes_read (t : Tree) (room : Nat) (w : Space) (rest : List Char) :
    Takes (document.read room (w.chars ++ t.textBefore rest)) rest
      (document.value? alone? room t) := by
  refine Record.takes_record (fun room f hf t => ?_) t room w rest
  simp only [document, List.mem_cons, List.not_mem_nil, or_false] at hf
  obtain rfl | rfl | rfl | rfl := hf
  · exact slot_name.fieldTakes room t
  · exact slot_kind.fieldTakes room t
  · exact slot_fullParents.fieldTakes room t
  · exact slot_shorten.fieldTakes room t

/-- Any text with an object of a request in it is read as the request. -/
lemma Listed.ofText_eq {r : Request} {members : List Member} (h : r.Listed members)
    (before close after : Space) :
    ofText (Spaced.text ⟨before, .object members close, after⟩) = .ok r := by
  have hread := readAll_text ⟨before, .object members close, after⟩
    (takes_read (.object members close) maxDepth before after.chars)
  exact toOption_eq_some_iff.1 (hread.trans (h.value?_object close 124))

/-- A tree for a member of a request: the options are the one member that is an object. -/
def MemberOf (r : Request) (e : String × Json) (t : Tree) : Prop :=
  match e.2 with
  | .obj _ => ShortensBy r.shorten t
  | v => Tree.Means v t

lemma exists_memberOf {r : Request} (hlength : ∀ o, r.shorten = some o → o.maxLength < 2 ^ 64)
    (layout : Layout) {entries : List (String × Json)} (hentries : r.toJson = .obj entries) :
    ∀ e ∈ entries, ∃ t, HasText layout 1 e.2 t ∧ r.MemberOf e t := by
  have hbounded : (Json.bool r.fullParents).Bounded 1 := ⟨trivial, Nat.zero_le 1⟩
  have hbool := exists_means hbounded (fun _ h => absurd h List.not_mem_nil) layout 1
  rw [toJson, Json.obj.injEq] at hentries
  subst hentries
  refine List.forall_mem_append.2 ⟨?_, ?_⟩
  · simp only [List.forall_mem_cons]
    exact ⟨exists_means_str layout 1 r.root.name, exists_means_str layout 1 r.root.kind.word, hbool,
      fun _ h => absurd h List.not_mem_nil⟩
  · cases hshorten : r.shorten with
    | none => exact fun _ h => absurd h List.not_mem_nil
    | some o =>
      obtain ⟨members, close, htext, hlisted⟩ :=
        ShortenOptions.exists_listed (hlength o hshorten) layout 1
      refine List.forall_mem_singleton.2 ⟨_, htext, ?_⟩
      change ShortensBy r.shorten _
      rw [hshorten]
      exact ⟨members, close, rfl, hlisted⟩

/-- What is written for a request is an object of it. -/
lemma exists_listed {r : Request} (hlength : ∀ o, r.shorten = some o → o.maxLength < 2 ^ 64)
    (layout : Layout) :
    ∃ members close, HasText layout 0 r.toJson (.object members close) ∧ r.Listed members := by
  obtain ⟨members, close, htext, hlists⟩ :=
    exists_object layout 0 (exists_memberOf hlength layout rfl)
  refine ⟨members, close, htext, hlists.named, ?_, ?_, .inl ?_, ?_⟩
  · exact hlists.given (e := ("name", .str r.root.name)) (by simp) (by cases r.shorten <;> simp)
  · exact hlists.given (e := ("kind", r.root.kind.toJson)) (by simp) (by cases r.shorten <;> simp)
  · exact hlists.given (e := ("load_full_parents", .bool r.fullParents)) (by simp)
      (by cases r.shorten <;> simp)
  · cases hshorten : r.shorten with
    | none => exact .inr ⟨hlists.given_eq_nil (by simp [hshorten]), rfl⟩
    | some o =>
      rw [← hshorten]
      exact .inl (hlists.given (e := ("shorten", o.toJson)) (by simp [hshorten])
        (by simp [hshorten]))

lemma ofText_text {r : Request} (hlength : ∀ o, r.shorten = some o → o.maxLength < 2 ^ 64)
    (layout : Layout) : ofText (r.toJson.text layout) = .ok r := by
  obtain ⟨members, close, htext, hlisted⟩ := exists_listed hlength layout
  rw [← text_eq_of_hasText htext]
  exact hlisted.ofText_eq .empty close .empty

end Request

/-! ## Sets -/

namespace EntitySet

/-- An object of a set: the names of each kind are listed, in any order and with any repeats. -/
structure Listed (E : EntitySet) (members : List Member) : Prop where
  named : ∀ m ∈ members, ∃ n, m.name? = some n
  names : ∀ k : Kind, Tree.Given members k.sectionName fun t =>
    ∃ ns, Tree.Means (.ofStrings ns) t ∧ ∀ n, n ∈ ns ↔ n ∈ E.names k

lemma slot_section (k : Kind) : Slot (sectionField k) Tree.texts?
    fun s names => s.modify k fun _ => some (NameSet.ofList names) :=
  .of_read (fun room t w tail _ => takes_readStrings room t w tail) fun s _ => by
    simp

lemma apart_fields (room : Nat) : document.fields.Pairwise (Record.Apart (alone? room)) := by
  simp [document, Kind.all, (slot_section .type).apart (slot_section .resource) room,
    (slot_section .type).apart (slot_section .function) room,
    (slot_section .resource).apart (slot_section .function) room]

/-- An object of a set is read as the set. -/
lemma Listed.value?_object {E : EntitySet} {members : List Member} (h : E.Listed members)
    (close : Space) (room : Nat) :
    document.value? alone? (room + 2) (.object members close) = some E := by
  have hnames : ∀ k : Kind, ∃ ns, only? (Tree.texts? (room + 1))
      (Tree.given members (sectionField k).name) = some (some ns) ∧
        NameSet.ofList ns = E.names k := fun k => by
    obtain ⟨t, hgiven, ns, hmeans, hmem⟩ := h.names k
    refine ⟨ns, ?_, NameSet.ext_mem fun n => NameSet.mem_ofList.trans (hmem n)⟩
    exact Tree.Given.only?_eq ⟨t, hgiven, hmeans⟩ fun u => Tree.texts?_of_means room
  obtain ⟨types, htypes, htype⟩ := hnames .type
  obtain ⟨resources, hresources, hresource⟩ := hnames .resource
  obtain ⟨functions, hfunctions, hfunction⟩ := hnames .function
  have hread : collect? (alone? (room + 1)) document.fields (Tree.given members) (.const none) =
      some ⟨some (.ofList types), some (.ofList resources), some (.ofList functions)⟩ :=
    calc collect? (alone? (room + 1)) document.fields (Tree.given members) (.const none)
        = collect? (alone? (room + 1)) [sectionField .resource, sectionField .function]
            (Tree.given members) ⟨some (.ofList types), none, none⟩ :=
          (slot_section .type).collect?_cons (room + 1) rfl htypes rfl _
      _ = collect? (alone? (room + 1)) [sectionField .function] (Tree.given members)
            ⟨some (.ofList types), some (.ofList resources), none⟩ :=
          (slot_section .resource).collect?_cons (room + 1) rfl hresources rfl _
      _ = some ⟨some (.ofList types), some (.ofList resources), some (.ofList functions)⟩ :=
          (slot_section .function).collect?_cons (room + 1) rfl hfunctions rfl _
  rw [Record.value?_object (apart_fields (room + 1)) h.named hread close, htype, hresource,
    hfunction]
  rfl

lemma takes_read (t : Tree) (room : Nat) (w : Space) (rest : List Char) :
    Takes (document.read room (w.chars ++ t.textBefore rest)) rest
      (document.value? alone? room t) := by
  refine Record.takes_record (fun room f hf t => ?_) t room w rest
  obtain ⟨k, -, rfl⟩ := List.mem_map.1 hf
  exact (slot_section k).fieldTakes room t

/-- Any text with an object of a set in it is read as the set. -/
lemma Listed.ofText_eq {E : EntitySet} {members : List Member} (h : E.Listed members)
    (before close after : Space) :
    ofText (Spaced.text ⟨before, .object members close, after⟩) = .ok E := by
  have hread := readAll_text ⟨before, .object members close, after⟩
    (takes_read (.object members close) maxDepth before after.chars)
  exact toOption_eq_some_iff.1 (hread.trans (h.value?_object close 125))

/-- What is written for a set is an object of it. -/
lemma exists_listed (E : EntitySet) (layout : Layout) :
    ∃ members close, HasText layout 0 E.toJson (.object members close) ∧ E.Listed members := by
  have hwritten : ∀ e ∈ Kind.all.map fun k => (k.sectionName, Json.ofStrings (E.names k).toList),
      ∃ t, HasText layout 1 e.2 t ∧ Tree.Means e.2 t := by
    rw [List.forall_mem_map]
    exact fun k _ => exists_means_ofStrings layout 1 (E.names k).toList
  obtain ⟨members, close, htext, hlists⟩ := exists_object layout 0 hwritten
  refine ⟨members, close, htext, hlists.named, fun k => ?_⟩
  obtain ⟨t, hgiven, hmeans⟩ := hlists.given
    (List.mem_map_of_mem (f := fun k => (k.sectionName, Json.ofStrings (E.names k).toList))
      (Kind.mem_all k)) (by simp [Kind.all]; decide)
  exact ⟨t, hgiven, (E.names k).toList, hmeans, fun n => NameSet.mem_toList⟩

lemma ofText_text (E : EntitySet) (layout : Layout) : ofText (E.toJson.text layout) = .ok E := by
  obtain ⟨members, close, htext, hlisted⟩ := E.exists_listed layout
  rw [← text_eq_of_hasText htext]
  exact hlisted.ofText_eq .empty close .empty

end EntitySet

/-! ## Documents and what they stand for -/

/-- What is written for a request is read as the request, whatever the layout, and so is every
object that lists its members: in any order, among others, and with those left out whose default is
meant.  The same holds of sets, whose names may be listed in any order and more than once. -/
theorem documents_round_trip :
    (∀ r : Request, (∀ o, r.shorten = some o → o.maxLength < 2 ^ 64) → ∀ layout,
      Request.ofText (r.toJson.text layout) = .ok r) ∧
    (∀ (r : Request) (members : List Member) (before close after : Space), r.Listed members →
      Request.ofText (Spaced.text ⟨before, .object members close, after⟩) = .ok r) ∧
    (∀ (E : EntitySet) layout, EntitySet.ofText (E.toJson.text layout) = .ok E) ∧
    ∀ (E : EntitySet) (members : List Member) (before close after : Space), E.Listed members →
      EntitySet.ofText (Spaced.text ⟨before, .object members close, after⟩) = .ok E :=
  ⟨fun _ hlength layout => Request.ofText_text hlength layout,
    fun _ _ before close after h => h.ofText_eq before close after,
    fun E layout => E.ofText_text layout,
    fun _ _ before close after h => h.ofText_eq before close after⟩

open Schema (tight tightMember looseMember plainLiteral)

/-- A request that has a default in several places. -/
def sparseRequest : Request where
  root := ⟨.resource, "é"⟩
  shorten := some { maxLength := 10, keys := ["a", "b"] }

/-- The options of this request without the marker and with a member that is none of theirs. -/
def sparseOptions : List Member :=
  [looseMember "keys" (.array [tight (.string (plainLiteral "a")),
      tight (.string (plainLiteral "b"))] .empty),
    tightMember "note" .null, tightMember "max_length" (.number (.ofSign false 10))]

/-- The members of this request in another order, without one of them and with one more. -/
def sparseMembers : List Member :=
  [tightMember "shorten" (.object sparseOptions .empty), looseMember "note" (.array [] .empty),
    tightMember "kind" (.string (plainLiteral "resource")),
    tightMember "name" (.string (plainLiteral "é"))]

example : Spaced.text ⟨.empty, .object sparseMembers .empty, .single⟩ =
    "\x7b\"shorten\":\x7b \"keys\": [\"a\",\"b\"],\"note\":null,\"max_length\":10\x7d," ++
      " \"note\": [],\"kind\":\"resource\",\"name\":\"é\"\x7d " := by
  decide +kernel

lemma sparseOptions_listed :
    ({ maxLength := 10, keys := ["a", "b"] } : ShortenOptions).Listed sparseOptions where
  named := by
    simp only [sparseOptions, List.forall_mem_cons]
    exact ⟨⟨"keys", by decide +kernel⟩, ⟨"note", by decide +kernel⟩,
      ⟨"max_length", by decide +kernel⟩, fun _ h => absurd h List.not_mem_nil⟩
  maxLength := .inl ⟨_, by rfl, by rfl⟩
  fill := .inr ⟨by rfl, rfl⟩
  keys := .inl ⟨_, by rfl, by rfl⟩

lemma sparseMembers_listed : sparseRequest.Listed sparseMembers where
  named := by
    simp only [sparseMembers, List.forall_mem_cons]
    exact ⟨⟨"shorten", by decide +kernel⟩, ⟨"note", by decide +kernel⟩,
      ⟨"kind", by decide +kernel⟩, ⟨"name", by decide +kernel⟩,
      fun _ h => absurd h List.not_mem_nil⟩
  name := ⟨_, by rfl, by rfl⟩
  kind := ⟨_, by rfl, by rfl⟩
  fullParents := .inr ⟨by rfl, rfl⟩
  shorten := .inl ⟨_, by rfl, sparseOptions, .empty, rfl, sparseOptions_listed⟩

/-- A set with one name in two kinds, and none in the third. -/
def sparseSet : EntitySet := .ofList [⟨.function, "a"⟩, ⟨.type, "a"⟩, ⟨.type, "b"⟩]

/-- The members of this set in another order, with one name listed twice. -/
def repeatedMembers : List Member :=
  [tightMember "functions" (.array [tight (.string (plainLiteral "a"))] .empty),
    looseMember "resources" (.array [] .empty),
    tightMember "types" (.array [tight (.string (plainLiteral "b")),
      tight (.string (plainLiteral "a")), tight (.string (plainLiteral "b"))] .empty)]

lemma repeatedMembers_listed : sparseSet.Listed repeatedMembers where
  named := by
    simp only [repeatedMembers, List.forall_mem_cons]
    exact ⟨⟨"functions", by decide +kernel⟩, ⟨"resources", by decide +kernel⟩,
      ⟨"types", by decide +kernel⟩, fun _ h => absurd h List.not_mem_nil⟩
  names k := by
    cases k with
    | type =>
      refine ⟨_, by rfl, ["b", "a", "b"], by rfl, fun n => ?_⟩
      change n ∈ ["b", "a", "b"] ↔ n ∈ ["a", "b"]
      grind
    | resource => exact ⟨_, by rfl, [], by rfl, fun n => Iff.rfl⟩
    | function => exact ⟨_, by rfl, ["a"], by rfl, fun n => Iff.rfl⟩

/-- A request is read from its own text and from an object with its members shuffled, and a set from
an object that repeats a name. -/
theorem documents_round_trip_sparse :
    (∀ o, sparseRequest.shorten = some o → o.maxLength < 2 ^ 64) ∧
    Request.ofText (sparseRequest.toJson.text .compact) = .ok sparseRequest ∧
    sparseRequest.Listed sparseMembers ∧
    Request.ofText (Spaced.text ⟨.empty, .object sparseMembers .empty, .single⟩) =
      .ok sparseRequest ∧
    sparseSet.Listed repeatedMembers ∧
    EntitySet.ofText (Spaced.text ⟨.single, .object repeatedMembers .empty, .empty⟩) =
      .ok sparseSet := by
  have hlength : ∀ o, sparseRequest.shorten = some o → o.maxLength < 2 ^ 64 := by
    rintro o ⟨⟩
    decide
  obtain ⟨hwritten, hrequest, -, hset⟩ := documents_round_trip
  exact ⟨hlength, hwritten sparseRequest hlength .compact, sparseMembers_listed,
    hrequest sparseRequest sparseMembers .empty .empty .single sparseMembers_listed,
    repeatedMembers_listed,
    hset sparseSet repeatedMembers .single .empty .empty repeatedMembers_listed⟩

end SchemaCut
