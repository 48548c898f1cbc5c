import SchemaCut.Json.Reader
import SchemaCut.Proofs.Reading.Tree

/-!
# Reading values

Arrays and objects are read part by part with a reader for the parts.  If the reader takes each
part, the container is taken too: an array gives the list of what its elements give, an object the
state that its members lead to one after the other.

* `takes_readItems`, `takes_readMembers` : the two containers, whatever their parts are read with.
* `takes_readValue` : reading a written value gives what it means.
-/

namespace SchemaCut
namespace Json

/-! ## Arrays -/

section Arrays

variable {α : Type} {read : Reader α} {value? : Tree → Option α}

lemma takes_readMoreItems (items : List (Spaced Tree)) (close : Space) (rest : List Char)
    (hread : ∀ i ∈ items, ∀ tail, Delimited tail →
      Takes (read (i.value.textBefore tail)) tail (value? i.value)) (after : Space) :
    Takes (readMoreItems read
        (after.chars ++ Tree.itemsBefore items (close.chars ++ ']' :: rest))) rest
      (items.mapM fun i => value? i.value) := by
  induction items generalizing after with
  | nil =>
    obtain ⟨h, hskip⟩ := skipSpace_append_append after close (c := ']') rfl rest
    rw [Tree.itemsBefore, readMoreItems, hskip]
    exact takes_ok [] h
  | cons i items ih =>
    obtain ⟨before, t, after'⟩ := i
    have hvalue := hread ⟨before, t, after'⟩ List.mem_cons_self _
      (Tree.delimited_items after' items close rest)
    have hmore := ih (fun j hj => hread j (List.mem_cons_of_mem _ hj)) after'
    obtain ⟨c, cs, htext, hspace, hclose⟩ := t.exists_textBefore_eq_cons
      (after'.chars ++ Tree.itemsBefore items (close.chars ++ ']' :: rest))
    rw [htext] at hvalue
    rw [Tree.itemsBefore, htext]
    obtain ⟨h₁, hcomma⟩ := skipSpace_append after (c := ',') rfl
      (before.chars ++ c :: cs)
    obtain ⟨h₂, hskip⟩ := skipSpace_append before hspace cs
    rw [readMoreItems, hcomma]
    simp only [if_neg (by decide : ',' ≠ ']'), if_true, hskip, if_neg hclose, List.mapM_cons]
    obtain ⟨f, hnone, hfails⟩ | ⟨v, h₃, hsome, hreads⟩ := hvalue.error_or_ok
    · rw [hnone, hfails]
      exact takes_error f rest
    · rw [hsome, hreads]
      obtain ⟨f, hnone', hfails⟩ | ⟨vs, h₄, hsome', hreads'⟩ := hmore.error_or_ok
      · simp only [hnone', hfails]
        exact takes_error f rest
      · simp only [hsome', hreads']
        exact takes_ok (v :: vs) _

/-- An array is read element by element from behind its opening bracket. -/
lemma takes_readItems (items : List (Spaced Tree)) (close : Space) (rest : List Char)
    (hread : ∀ i ∈ items, ∀ tail, Delimited tail →
      Takes (read (i.value.textBefore tail)) tail (value? i.value)) :
    Takes (readItems read (Tree.itemsInside items close rest)) rest
      (items.mapM fun i => value? i.value) := by
  cases items with
  | nil =>
    obtain ⟨h, hskip⟩ := skipSpace_append close (c := ']') rfl rest
    rw [Tree.itemsInside, readItems, hskip]
    exact takes_ok [] h
  | cons i items =>
    obtain ⟨before, t, after⟩ := i
    have hvalue := hread ⟨before, t, after⟩ List.mem_cons_self _
      (Tree.delimited_items after items close rest)
    have hmore := takes_readMoreItems items close rest
      (fun j hj => hread j (List.mem_cons_of_mem _ hj)) after
    obtain ⟨c, cs, htext, hspace, hclose⟩ := t.exists_textBefore_eq_cons
      (after.chars ++ Tree.itemsBefore items (close.chars ++ ']' :: rest))
    rw [htext] at hvalue
    obtain ⟨h, hskip⟩ := skipSpace_append before hspace cs
    rw [Tree.itemsInside, htext, readItems, hskip]
    simp only [if_neg hclose, List.mapM_cons]
    refine hvalue.bind fun v h _ => ?_
    refine hmore.bind fun vs h' _ => ?_
    exact takes_ok (v :: vs) _

end Arrays

/-! ## Objects -/

section Objects

variable {σ : Type} {step : MemberStep σ} {after? : σ → String → Tree → Option σ}

/-- The state behind a member, if its name can be read. -/
def Member.next? (after? : σ → String → Tree → Option σ) (s : σ) (m : Member) : Option σ := do
  let n ← m.1.value.value?
  after? s n m.2.value

/-- A step takes the value of a member and makes of the state what `after?` says. -/
def StepTakes (step : MemberStep σ) (after? : σ → String → Tree → Option σ) (m : Member) : Prop :=
  ∀ s n tail, Delimited tail →
    Takes (step s n (m.1.after.chars ++ ':' :: (m.2.before.chars ++ m.2.value.textBefore tail)))
      tail (after? s n m.2.value)

lemma takes_readMember {m : Member} (hstep : StepTakes step after? m) (s : σ) {tail : List Char}
    (htail : Delimited tail) :
    Takes (readMember step s (m.inside tail)) tail (m.next? after? s) := by
  rw [Member.inside, readMember]
  refine (takes_readString m.1.value _).bind fun n h _ => ?_
  have hvalue := (hstep s n tail htail).bind (b := some)
    (k := fun q => pure (Parsed.before ⟨n, _, h⟩ q)) fun s' h' _ => takes_ok s' _
  rwa [Option.bind_fun_some] at hvalue

/-- The further members of an object are read from behind the value in front of them. -/
lemma takes_readMoreMembers (members : List Member) (close : Space) (rest : List Char)
    (hstep : ∀ m ∈ members, StepTakes step after? m) (s : σ) (after : Space) {n : Nat}
    {cs : List Char}
    (hcs : cs = after.chars ++ Tree.membersBefore members (close.chars ++ '}' :: rest))
    (h : cs.length ≤ n) :
    Takes (readMoreMembers step n s cs h) rest (members.foldlM (Member.next? after?) s) := by
  induction members generalizing s after cs with
  | nil =>
    obtain ⟨h', hskip⟩ := skipSpace_append_append after close (c := '}') rfl rest
    rw [Tree.membersBefore] at hcs
    subst hcs
    rw [readMoreMembers, hskip]
    exact takes_ok s _
  | cons m members ih =>
    have hvalue := takes_readMember (hstep m List.mem_cons_self) s
      (Tree.delimited_members m.2.after members close rest)
    obtain ⟨h₁, hcomma⟩ := skipSpace_append after (c := ',') rfl
      (m.1.before.chars ++ '"' :: m.inside (m.2.after.chars ++
        Tree.membersBefore members (close.chars ++ '}' :: rest)))
    obtain ⟨h₂, hskip⟩ := skipSpace_append m.1.before (c := '"') rfl
      (m.inside (m.2.after.chars ++ Tree.membersBefore members (close.chars ++ '}' :: rest)))
    rw [membersBefore_cons] at hcs
    subst hcs
    rw [readMoreMembers, hcomma]
    simp only [if_neg (by decide : ',' ≠ '}'), if_true, hskip, if_neg (by decide : '"' ≠ '}')]
    rw [List.foldlM_cons]
    obtain ⟨f, hnone, hfails⟩ | ⟨s', h₃, hsome, hreads⟩ := hvalue.error_or_ok
    · rw [hnone, hfails]
      exact takes_error f rest
    · rw [hsome, hreads]
      exact ih (fun m' hm' => hstep m' (List.mem_cons_of_mem _ hm')) s' m.2.after rfl _

/-- An object is read member by member from behind its opening brace. -/
lemma takes_readMembers (members : List Member) (close : Space) (rest : List Char)
    (hstep : ∀ m ∈ members, StepTakes step after? m) (s : σ) :
    Takes (readMembers step s (Tree.membersInside members close rest)) rest
      (members.foldlM (Member.next? after?) s) := by
  cases members with
  | nil =>
    obtain ⟨h, hskip⟩ := skipSpace_append close (c := '}') rfl rest
    rw [Tree.membersInside, readMembers, hskip]
    exact takes_ok s _
  | cons m members =>
    have hvalue := takes_readMember (hstep m List.mem_cons_self) s
      (Tree.delimited_members m.2.after members close rest)
    obtain ⟨h, hskip⟩ := skipSpace_append m.1.before (c := '"') rfl
      (m.inside (m.2.after.chars ++ Tree.membersBefore members (close.chars ++ '}' :: rest)))
    rw [membersInside_cons, readMembers, hskip]
    simp only [if_neg (by decide : '"' ≠ '}'), if_true, List.foldlM_cons]
    refine hvalue.bind fun s' h' _ => ?_
    exact takes_readMoreMembers members close rest
      (fun m' hm' => hstep m' (List.mem_cons_of_mem _ hm')) s' m.2.after rfl _

end Objects

/-! ## Values -/

/-- A reader that goes on behind the colon of a member. -/
lemma takes_behindColon {α β : Type} {read : Reader α} {a? : Option α} {cs tail : List Char}
    (hread : Takes (read cs) tail a?) (after : Space) (g : α → β) :
    Takes (do
      let ⟨ds, h⟩ ← takeColon (after.chars ++ ':' :: cs)
      let p ← read ds
      return (p.map g).widen h) tail (a?.map g) := by
  obtain ⟨h, hcolon⟩ := takeColon_append after cs
  rw [hcolon]
  change Takes (read cs >>= fun p => pure ((p.map g).widen h)) tail _
  have hvalue := hread.bind (b := fun a => some (g a))
    (k := fun p => pure ((p.map g).widen h)) fun a h' _ => takes_ok (g a) _
  rwa [Option.map_eq_bind]

/-- How the value of a member joins what is known before it. -/
def joined? {σ : Type} (add : String → Json → σ → σ) (room : Nat) (s : σ) (n : String) (t : Tree) :
    Option σ :=
  (t.value? room).map fun v => add n v s

lemma takes_entryStep {room : Nat} {m : Member}
    (hread : ∀ tail, Delimited tail →
      Takes (readValue room (m.2.before.chars ++ m.2.value.textBefore tail)) tail
        (m.2.value.value? room)) :
    StepTakes (entryStep (readValue room)) (joined? Entries.put room) m :=
  fun es n tail htail => takes_behindColon (hread tail htail) m.1.after fun a =>
    Entries.put n a es

/-- Reading the members one by one joins all of them. -/
lemma foldlM_joined? {σ : Type} (add : String → Json → σ → σ) (room : Nat) (members : List Member)
    (s : σ) :
    members.foldlM (Member.next? (joined? add room)) s =
      (Tree.entries? room members).map fun es => es.foldl (fun s e => add e.1 e.2 s) s := by
  induction members generalizing s with
  | nil => rfl
  | cons m members ih =>
    obtain ⟨name, before, t, after⟩ := m
    rw [List.foldlM_cons, Tree.entries?, Member.next?]
    simp only [joined?]
    cases name.value.value? with
    | none => rfl
    | some n =>
      cases t.value? room with
      | none => rfl
      | some v =>
        simp only [bind, Option.bind, Option.map, ih]
        cases Tree.entries? room members <;> rfl

lemma takeWord_append (word rest : List Char) :
    ∃ h, takeWord word (word ++ rest) = .ok ⟨rest, h⟩ := by
  induction word with
  | nil => exact ⟨Nat.le_refl _, rfl⟩
  | cons c word ih =>
    obtain ⟨h, hword⟩ := ih
    rw [List.cons_append]
    exact ⟨by simp; omega, by rw [takeWord, if_pos rfl, hword]; rfl⟩

lemma takes_word {α : Type} (a : α) (word rest : List Char) :
    Takes (do
      let r ← takeWord word (word ++ rest)
      return Parsed.ofRest a r) rest (some a) := by
  obtain ⟨h, hword⟩ := takeWord_append word rest
  rw [hword]
  exact takes_ok a _

lemma takes_readScalar {t : Tree} (ht : t.IsScalar) {rest : List Char} (hrest : Delimited rest) :
    Takes (readScalar (t.textBefore rest)) rest t.scalar? := by
  match t, ht with
  | .null, _ => exact takes_word Found.null ['u', 'l', 'l'] rest
  | .bool true, _ => exact takes_word (Found.boolean true) ['r', 'u', 'e'] rest
  | .bool false, _ => exact takes_word (Found.boolean false) ['a', 'l', 's', 'e'] rest
  | .string l, _ =>
    exact (takes_readString l rest).map (fun _ => rfl) fun _ => rfl
  | .number x, _ =>
    obtain ⟨c, cs, htext, hc⟩ := x.exists_text_eq_cons
    have hnumber := takes_readNumber x hrest
    rw [htext, List.cons_append] at hnumber
    obtain ⟨hn, ht, hf, hquote⟩ := Tree.ne_letters_of_startsNumber hc
    rw [Tree.textBefore, htext, List.cons_append, readScalar, if_neg hn, if_neg ht, if_neg hf,
      if_neg hquote, if_pos hc]
    exact hnumber.map (fun _ => rfl) fun _ => rfl

lemma takes_readValue_scalar {t : Tree} (ht : t.IsScalar) (room : Nat) (w : Space)
    {rest : List Char} (hrest : Delimited rest) :
    Takes (readValue room (w.chars ++ t.textBefore rest)) rest (t.value? room) := by
  obtain ⟨c, cs, htext, hspace, harray, hobject⟩ := ht.exists_textBefore_eq_cons rest
  obtain ⟨h, hskip⟩ := skipSpace_append w hspace cs
  have hscalar := takes_readScalar ht hrest
  rw [htext] at hscalar
  rw [htext, readValue, hskip, ht.value?_eq]
  simp only [if_neg harray, if_neg hobject]
  exact hscalar.map (fun _ => rfl) fun _ => rfl

/-- Reading a written value gives what it means. -/
theorem takes_readValue (t : Tree) (room : Nat) (w : Space) {rest : List Char}
    (hrest : Delimited rest) :
    Takes (readValue room (w.chars ++ t.textBefore rest)) rest (t.value? room) := by
  induction t using Tree.induct generalizing room w rest with
  | null | bool b | number x | string l => exact takes_readValue_scalar (by trivial) room w hrest
  | array items close ih =>
    obtain ⟨h, hskip⟩ := skipSpace_append w (c := '[') rfl
      (Tree.itemsInside items close rest)
    rw [Tree.textBefore_array, readValue, hskip]
    cases room with
    | zero => exact takes_error _ rest
    | succ room =>
      simp only [if_true, Tree.value?, Tree.itemValues?_eq_mapM]
      have hitems := takes_readItems items close rest fun i hi tail htail =>
        ih i hi room .empty htail
      exact hitems.map (fun _ => rfl) fun _ => rfl
  | object members close ih =>
    obtain ⟨h, hskip⟩ := skipSpace_append w (c := '{') rfl
      (Tree.membersInside members close rest)
    rw [Tree.textBefore_object, readValue, hskip]
    cases room with
    | zero => exact takes_error _ rest
    | succ room =>
      simp only [if_true, Tree.value?, if_neg (by decide : '{' ≠ '[')]
      have hmembers := takes_readMembers members close rest
        (fun m hm => takes_entryStep fun tail htail => ih m hm room m.2.before htail) []
      rw [foldlM_joined?] at hmembers
      have hvalue := hmembers.map (b := obj)
        (g := fun p => (p.map obj).behind.widen h) (fun _ => rfl) fun _ => rfl
      rw [Option.map_map] at hvalue
      exact hvalue

end Json
end SchemaCut
