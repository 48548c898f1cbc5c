import SchemaCut.Proofs.Reading.Records

/-!
# Records with their members in any order

Reading an object carries what is known from member to member, so the order of the members is the
order of the reading.  For a record it does not count: fields that are kept beside one another
(`Record.Apart`) can be read in any order, so an object can be read field by field instead, each
with the values that stand under its name (`Tree.given`).  Members whose names are no fields are not
looked at at all.

* `Record.foldlM_members` : reading member by member is collecting field by field.
* `Record.Slot` : a field that keeps one value, which is all it collects.
* `Record.value?_object` : what an object means as a record, from what its fields collect.
-/

namespace SchemaCut
namespace Json

/-- The values of the members with a given name, in the order in which they stand. -/
def Tree.given (members : List Member) (n : String) : List Tree :=
  members.filterMap fun m => if m.name? = some n then some m.2.value else none

lemma Tree.given_cons (m : Member) (members : List Member) (n : String) :
    given (m :: members) n =
      if m.name? = some n then m.2.value :: given members n else given members n := by
  rw [given, List.filterMap_cons]
  by_cases h : m.name? = some n
  · rw [if_pos h, if_pos h]
    rfl
  · rw [if_neg h, if_neg h]
    rfl

namespace Record

variable {σ α : Type} {meaning : Field σ → σ → Tree → Option σ}

/-- What is known behind a value of a field that is read if it is new. -/
def once? (meaning : Field σ → σ → Tree → Option σ) (field : Field σ) (s : σ) (t : Tree) :
    Option σ :=
  if field.given s then none else meaning field s t

/-- Two fields that are kept beside one another: it does not count which one is read first. -/
structure Apart (meaning : Field σ → σ → Tree → Option σ) (f g : Field σ) : Prop where
  name : f.name ≠ g.name
  swap : ∀ s t u, (once? meaning f s t).bind (once? meaning g · u) =
    (once? meaning g s u).bind (once? meaning f · t)

/-- What is known when the values of the fields are read field by field. -/
def collect? (meaning : Field σ → σ → Tree → Option σ) (fields : List (Field σ))
    (given : String → List Tree) (s : σ) : Option σ :=
  fields.foldlM (fun s f => (given f.name).foldlM (once? meaning f) s) s

lemma collect?_cons (f : Field σ) (fields : List (Field σ)) (given : String → List Tree) (s : σ) :
    collect? meaning (f :: fields) given s =
      ((given f.name).foldlM (once? meaning f) s).bind (collect? meaning fields given) := rfl

lemma collect?_append (fields fields' : List (Field σ)) (given : String → List Tree) (s : σ) :
    collect? meaning (fields ++ fields') given s =
      (collect? meaning fields given s).bind (collect? meaning fields' given) :=
  List.foldlM_append

lemma collect?_congr {fields : List (Field σ)} {given given' : String → List Tree}
    (h : ∀ f ∈ fields, given f.name = given' f.name) (s : σ) :
    collect? meaning fields given s = collect? meaning fields given' s := by
  induction fields generalizing s with
  | nil => rfl
  | cons f fields ih =>
    rw [List.forall_mem_cons] at h
    rw [collect?_cons, collect?_cons, h.1]
    exact congrArg _ (funext (ih h.2))

lemma collect?_nil (fields : List (Field σ)) (s : σ) :
    collect? meaning fields (fun _ => []) s = some s := by
  induction fields generalizing s with
  | nil => rfl
  | cons f fields ih => exact ih s

/-- A step that can be swapped with each of many can be taken before or after all of them. -/
lemma foldlM_swap {β : Type} {f : σ → Option σ} {k : σ → β → Option σ} {l : List β}
    (h : ∀ b ∈ l, ∀ s, (f s).bind (k · b) = (k s b).bind f) (s : σ) :
    (f s).bind (l.foldlM k) = (l.foldlM k s).bind f := by
  induction l generalizing s with
  | nil => simp
  | cons b l ih =>
    rw [List.forall_mem_cons] at h
    calc (f s).bind ((b :: l).foldlM k)
        = ((f s).bind (k · b)).bind (l.foldlM k) := by
          rw [Option.bind_assoc]
          rfl
      _ = (k s b).bind fun s' => (f s').bind (l.foldlM k) := by rw [h.1, Option.bind_assoc]
      _ = (k s b).bind fun s' => (l.foldlM k s').bind f :=
          congrArg _ (funext (ih h.2))
      _ = ((b :: l).foldlM k s).bind f := by
          rw [← Option.bind_assoc]
          rfl

/-- The value of a field can be read in front of all fields that it is apart from. -/
lemma bind_collect? {f : Field σ} {fields : List (Field σ)} {given : String → List Tree}
    (h : ∀ g ∈ fields, Apart meaning g f) (t : Tree) (s : σ) :
    (once? meaning f s t).bind (collect? meaning fields given) =
      (collect? meaning fields given s).bind (once? meaning f · t) :=
  foldlM_swap (f := (once? meaning f · t)) (fun g hg s' =>
    foldlM_swap (f := (once? meaning f · t)) (fun u _ s'' => ((h g hg).swap s'' u t).symm) s') s

variable {r : Record σ α}

/-- Reading an object member by member is collecting the values of its fields field by field. -/
theorem foldlM_members (hapart : r.fields.Pairwise (Apart meaning)) {members : List Member}
    (hnamed : ∀ m ∈ members, ∃ n, m.name? = some n) (s : σ) :
    members.foldlM (Member.next? (r.member? meaning)) s =
      collect? meaning r.fields (Tree.given members) s := by
  induction members generalizing s with
  | nil => exact (collect?_nil r.fields s).symm
  | cons m members ih =>
    rw [List.forall_mem_cons] at hnamed
    obtain ⟨⟨n, hname⟩, hnamed⟩ := hnamed
    have hnext : m.next? (r.member? meaning) s = r.member? meaning s n m.2.value := by
      rw [Member.next?, show m.1.value.value? = some n from hname]
      rfl
    have hsame : ∀ f : Field σ, f.name ≠ n →
        Tree.given (m :: members) f.name = Tree.given members f.name := fun f hf => by
      rw [Tree.given_cons, if_neg]
      rw [hname]
      exact fun h => hf (Option.some.inj h).symm
    rw [List.foldlM_cons, hnext, funext (ih hnamed), member?]
    cases hfield : r.fields.find? (·.name = n) with
    | none =>
      -- no field has this name, so the member stands for none of them
      refine collect?_congr (fun f hf => ?_) s
      exact (hsame f fun h => List.find?_eq_none.1 hfield f hf (by simpa using h)).symm
    | some f =>
      -- the value moves behind the fields in front of its own
      obtain ⟨hf, before, after, heq, hbefore⟩ := List.find?_eq_some_iff_append.1 hfield
      have hf : f.name = n := by simpa using hf
      rw [heq, List.pairwise_append, List.pairwise_cons] at hapart
      obtain ⟨-, ⟨hafter, -⟩, hcross⟩ := hapart
      have hcons : ∀ s', (once? meaning f s' m.2.value).bind
          (collect? meaning (f :: after) (Tree.given members)) =
            collect? meaning (f :: after) (Tree.given (m :: members)) s' := fun s' => by
        have hrest : collect? meaning after (Tree.given (m :: members)) =
            collect? meaning after (Tree.given members) :=
          funext (collect?_congr fun g hg => hsame g fun h => (hafter g hg).name (hf.trans h.symm))
        rw [collect?_cons, Tree.given_cons, if_pos (by rw [hname, hf]), List.foldlM_cons, hrest]
        exact (Option.bind_assoc _ _ _).symm
      calc (once? meaning f s m.2.value).bind (collect? meaning r.fields (Tree.given members))
          = ((once? meaning f s m.2.value).bind (collect? meaning before (Tree.given members))).bind
              (collect? meaning (f :: after) (Tree.given members)) := by
            rw [heq, Option.bind_assoc]
            exact congrArg _ (funext (collect?_append before (f :: after) _))
        _ = (collect? meaning before (Tree.given members) s).bind fun s' =>
              (once? meaning f s' m.2.value).bind
                (collect? meaning (f :: after) (Tree.given members)) := by
            rw [bind_collect? fun g hg => hcross g hg f List.mem_cons_self, Option.bind_assoc]
        _ = (collect? meaning before (Tree.given (m :: members)) s).bind
              (collect? meaning (f :: after) (Tree.given (m :: members))) := by
            rw [funext hcons, collect?_congr fun g hg => (hsame g fun h =>
              (hcross g hg f List.mem_cons_self).name (h.trans hf.symm)).symm]
        _ = collect? meaning r.fields (Tree.given (m :: members)) s := by
            rw [heq, collect?_append]

/-! ## Fields that keep one value -/

/-- What is known behind a value of a field, when the text of the value stands alone. -/
def alone? (room : Nat) (f : Field σ) (s : σ) (t : Tree) : Option σ :=
  (f.read room s (t.textBefore [])).toOption.map (·.value)

/-- A field that keeps one value: `value?` is what a tree means to it, and `put` adds this to what
is known.  Behind it the field is given. -/
structure Slot {β : Type} (f : Field σ) (value? : Nat → Tree → Option β) (put : σ → β → σ) :
    Prop where
  takes : ∀ room s t (w : Space) tail, Delimited tail →
    Takes (f.read room s (w.chars ++ t.textBefore tail)) tail ((value? room t).map (put s))
  given_put : ∀ s b, f.given (put s b) = true

/-- What stands under a name, if that is nothing or one value. -/
def only? {β : Type} (value? : Tree → Option β) :
    List Tree → Option (Option β)
  | [] => some none
  | [t] => (value? t).map some
  | _ :: _ :: _ => none

namespace Slot

variable {β γ : Type} {f g : Field σ} {value? : Nat → Tree → Option β} {put : σ → β → σ}
  {value?' : Nat → Tree → Option γ} {put' : σ → γ → σ}

/-- A field made for keeping a value is read by the reader it is made of. -/
lemma of_read {name : String} {required : Bool} {given : σ → Bool} {read : Nat → Reader β}
    (hread : ∀ room t (w : Space) tail, Delimited tail →
      Takes (read room (w.chars ++ t.textBefore tail)) tail (value? room t))
    (hgiven : ∀ s b, given (put s b) = true) :
    Slot (.slot name required given put read) value? put where
  takes room _ t w tail htail := (hread room t w tail htail).map (fun _ => rfl) fun _ => rfl
  given_put := hgiven

lemma alone?_eq (h : Slot f value? put) (room : Nat) (s : σ) (t : Tree) :
    alone? room f s t = (value? room t).map (put s) := by
  have hread := h.takes room s t .empty [] (by simp [Delimited])
  change Takes (f.read room s (t.textBefore [])) _ _ at hread
  rw [alone?]
  obtain ⟨e, hnone, hread⟩ | ⟨a, hshort, hsome, hread⟩ := hread.error_or_ok
  · rw [hnone, hread]
    rfl
  · rw [hsome, hread]
    rfl

lemma fieldTakes (h : Slot f value? put) (room : Nat) (t : Tree) :
    FieldTakes room (alone? room) t f := by
  intro s w tail htail
  rw [h.alone?_eq]
  exact h.takes room s t w tail htail

/-- Two fields are kept beside one another if what one of them adds does not touch the other. -/
lemma apart (hf : Slot f value? put) (hg : Slot g value?' put') (room : Nat)
    (hname : f.name ≠ g.name := by decide)
    (hgiven : ∀ s b, g.given (put s b) = g.given s := by intros; rfl)
    (hgiven' : ∀ s c, f.given (put' s c) = f.given s := by intros; rfl)
    (hput : ∀ s b c, put' (put s b) c = put (put' s c) b := by intros; rfl) :
    Apart (alone? room) f g where
  name := hname
  swap _ t u := by
    simp only [once?, hf.alone?_eq, hg.alone?_eq]
    cases hfs : f.given _ <;> cases hgs : g.given _ <;> cases value? room t <;>
      cases value?' room u <;> simp [hfs, hgs, hgiven, hgiven', hput]

/-- A field collects nothing, or the one value that is given for it. -/
lemma foldlM_once? (h : Slot f value? put) (room : Nat) {s : σ} (hs : f.given s = false)
    (ts : List Tree) :
    ts.foldlM (once? (alone? room) f) s =
      (only? (value? room) ts).map fun b? => b?.elim s (put s) := by
  have hfirst : ∀ t, once? (alone? room) f s t = (value? room t).map (put s) := fun t => by
    rw [once?, hs, h.alone?_eq]
    rfl
  match ts with
  | [] => rfl
  | [t] =>
    rw [List.foldlM_cons, hfirst, only?, Option.map_map]
    cases value? room t <;> rfl
  | t :: u :: ts =>
    rw [List.foldlM_cons, hfirst, only?]
    cases value? room t with
    | none => rfl
    | some b =>
      -- the field is given by now
      simp [once?, h.given_put]

/-- One field is done: it keeps what stands under its name, and the others follow. -/
lemma collect?_cons (h : Slot f value? put) (room : Nat) {s s' : σ} {given : String → List Tree}
    {b? : Option β} (hs : f.given s = false)
    (hb : only? (value? room) (given f.name) = some b?) (hs' : b?.elim s (put s) = s')
    (fields : List (Field σ)) :
    collect? (alone? room) (f :: fields) given s = collect? (alone? room) fields given s' := by
  rw [Record.collect?_cons, h.foldlM_once? room hs, hb, Option.map_some, hs']
  rfl

end Slot

/-- What an object means as a record is what its fields collect from it. -/
lemma value?_object {r : Record σ α} {room : Nat}
    (hapart : r.fields.Pairwise (Apart (alone? room))) {members : List Member}
    (hnamed : ∀ m ∈ members, ∃ n, m.name? = some n) {s : σ}
    (hs : collect? (alone? room) r.fields (Tree.given members) r.start = some s) (close : Space) :
    r.value? alone? (room + 1) (.object members close) = (r.ofMembers s).toOption := by
  rw [value?, foldlM_members hapart hnamed, hs]
  rfl

end Record
end Json
end SchemaCut
