import SchemaCut.Proofs.Reading.Records
import SchemaCut.Proofs.Reading.Stops

/-!
# What readers accept

Wherever a reader stops, the characters that it has gone past are those of a tree, perhaps with
white space in front of it.  So a text that is read to its end is the text of a tree, and what it
means can be read off the tree.

Each kind of part has its condition on the text and the rest behind the part: `IsTree`, `IsValue`,
`IsMember`, and `IsMoreItems` and `IsMoreMembers` for what stands behind a part.  A value that is
passed over leaves a list of open brackets, so there the condition is on what still has to be closed
(`Closes`).

* `stops_readValue`, `stops_skip` : a value in front of the rest.
* `stops_record` : the same for a record, if the values of its fields are read so.
* `exists_text_of_readAll` : a text that is read to its end is the text of a tree.
-/

namespace SchemaCut
namespace Json

variable {α β : Type} {cs ds rest : List Char}

/-! ## Values without parts -/

/-- The text is a value in front of the rest. -/
def IsTree (cs rest : List Char) : Prop := ∃ t : Tree, cs = t.textBefore rest

lemma stops_word (a : α) (word cs : List Char) :
    Stops (fun rest => cs = word ++ rest) (do
      let r ← takeWord word cs
      return Parsed.ofRest a r) :=
  stops_check fun _ hr => stops_ok (eq_append_of_takeWord hr)

lemma isTree_null (h : cs = ['u', 'l', 'l'] ++ rest) : IsTree ('n' :: cs) rest :=
  ⟨.null, by rw [h]; rfl⟩

lemma isTree_true (h : cs = ['r', 'u', 'e'] ++ rest) : IsTree ('t' :: cs) rest :=
  ⟨.bool true, by rw [h]; rfl⟩

lemma isTree_false (h : cs = ['a', 'l', 's', 'e'] ++ rest) : IsTree ('f' :: cs) rest :=
  ⟨.bool false, by rw [h]; rfl⟩

lemma isTree_string (h : IsInside cs rest) : IsTree ('"' :: cs) rest := by
  obtain ⟨l, rfl⟩ := h
  exact ⟨.string l, rfl⟩

lemma isTree_number (h : ∃ x : Figure, cs = x.text ++ rest) : IsTree cs rest := by
  obtain ⟨x, rfl⟩ := h
  exact ⟨.number x, rfl⟩

lemma stops_readScalar (cs : List Char) : Stops (IsTree cs) (readScalar cs) := by
  rw [readScalar.eq_def]
  split
  · exact stops_error _ _
  · next c cs =>
    split
    · next hc =>
      subst hc
      exact (stops_word _ ['u', 'l', 'l'] cs).mono fun _ => isTree_null
    split
    · next hc =>
      subst hc
      exact (stops_word _ ['r', 'u', 'e'] cs).mono fun _ => isTree_true
    split
    · next hc =>
      subst hc
      exact (stops_word _ ['a', 'l', 's', 'e'] cs).mono fun _ => isTree_false
    split
    · next hc =>
      subst hc
      exact (stops_readString cs).map (fun _ => rfl) fun _ => isTree_string
    split
    · exact (stops_readNumber (c :: cs)).map (fun _ => rfl) fun _ => isTree_number
    · exact stops_error _ _

lemma stops_skipScalar (cs : List Char) : Stops (IsTree cs) (skipScalar cs) := by
  rw [skipScalar.eq_def]
  split
  · exact stops_error _ _
  · next c cs =>
    split
    · next hc =>
      subst hc
      exact (stops_word () ['u', 'l', 'l'] cs).mono fun _ => isTree_null
    split
    · next hc =>
      subst hc
      exact (stops_word () ['r', 'u', 'e'] cs).mono fun _ => isTree_true
    split
    · next hc =>
      subst hc
      exact (stops_word () ['a', 'l', 's', 'e'] cs).mono fun _ => isTree_false
    split
    · next hc =>
      subst hc
      exact (stops_skipString cs).map (fun _ => rfl) fun _ => isTree_string
    split
    · exact (stops_skipNumber (c :: cs)).mono fun _ => isTree_number
    · exact stops_error _ _

/-! ## Parts of containers -/

/-- The text is a value in front of the rest, perhaps behind white space. -/
def IsValue (cs rest : List Char) : Prop :=
  ∃ (w : Space) (t : Tree), cs = w.chars ++ t.textBefore rest

lemma IsTree.space (h : IsTree cs rest) (w : Space) : IsValue (w.chars ++ cs) rest := by
  obtain ⟨t, rfl⟩ := h
  exact ⟨w, t, rfl⟩

lemma IsValue.space (h : IsValue cs rest) (w : Space) : IsValue (w.chars ++ cs) rest := by
  obtain ⟨v, t, rfl⟩ := h
  exact ⟨w.append v, t, (List.append_assoc _ _ _).symm⟩

/-- What stands behind an element of an array: further elements and the closing bracket. -/
def IsMoreItems (cs rest : List Char) : Prop :=
  ∃ (after : Space) (items : List (Spaced Tree)) (close : Space),
    cs = after.chars ++ Tree.itemsBefore items (close.chars ++ ']' :: rest)

lemma isMoreItems_close (w : Space) (rest : List Char) :
    IsMoreItems (w.chars ++ ']' :: rest) rest :=
  ⟨w, [], .empty, rfl⟩

lemma IsMoreItems.cons (hmore : IsMoreItems ds rest) (hvalue : IsValue cs ds) (w : Space) :
    IsMoreItems (w.chars ++ ',' :: cs) rest := by
  obtain ⟨after, items, close, rfl⟩ := hmore
  obtain ⟨before, t, rfl⟩ := hvalue
  exact ⟨w, ⟨before, t, after⟩ :: items, close, rfl⟩

/-- What stands behind the opening bracket of an array. -/
def IsItems (cs rest : List Char) : Prop :=
  ∃ (items : List (Spaced Tree)) (close : Space), cs = Tree.itemsInside items close rest

lemma isItems_close (w : Space) (rest : List Char) : IsItems (w.chars ++ ']' :: rest) rest :=
  ⟨[], w, rfl⟩

lemma IsMoreItems.first (hmore : IsMoreItems ds rest) (hvalue : IsValue cs ds) :
    IsItems cs rest := by
  obtain ⟨after, items, close, rfl⟩ := hmore
  obtain ⟨before, t, rfl⟩ := hvalue
  exact ⟨⟨before, t, after⟩ :: items, close, rfl⟩

lemma IsItems.array (h : IsItems cs rest) : IsTree ('[' :: cs) rest := by
  obtain ⟨items, close, rfl⟩ := h
  exact ⟨.array items close, (Tree.textBefore_array items close rest).symm⟩

/-- What stands behind the name of a member: the colon and the value. -/
def IsNamed (cs rest : List Char) : Prop :=
  ∃ (w : Space) (ds : List Char), cs = w.chars ++ ':' :: ds ∧ IsValue ds rest

/-- The text is a member in front of the rest, perhaps behind white space. -/
def IsMember (cs rest : List Char) : Prop :=
  ∃ (name : Spaced Literal) (before : Space) (t : Tree),
    cs = name.before.chars ++ name.value.textBefore (name.after.chars ++
      ':' :: (before.chars ++ t.textBefore rest))

lemma IsNamed.member (h : IsNamed ds rest) (hname : IsInside cs ds) :
    IsMember ('"' :: cs) rest := by
  obtain ⟨after, _, rfl, before, t, rfl⟩ := h
  obtain ⟨l, rfl⟩ := hname
  exact ⟨⟨.empty, l, after⟩, before, t, rfl⟩

lemma IsMember.space (h : IsMember cs rest) (w : Space) : IsMember (w.chars ++ cs) rest := by
  obtain ⟨name, before, t, rfl⟩ := h
  exact ⟨⟨w.append name.before, name.value, name.after⟩, before, t,
    (List.append_assoc _ _ _).symm⟩

/-- What stands behind a member of an object: further members and the closing brace. -/
def IsMoreMembers (cs rest : List Char) : Prop :=
  ∃ (after : Space) (members : List Member) (close : Space),
    cs = after.chars ++ Tree.membersBefore members (close.chars ++ '}' :: rest)

lemma isMoreMembers_close (w : Space) (rest : List Char) :
    IsMoreMembers (w.chars ++ '}' :: rest) rest :=
  ⟨w, [], .empty, rfl⟩

lemma IsMoreMembers.cons (hmore : IsMoreMembers ds rest) (hmember : IsMember cs ds) (w : Space) :
    IsMoreMembers (w.chars ++ ',' :: cs) rest := by
  obtain ⟨after, members, close, rfl⟩ := hmore
  obtain ⟨name, before, t, rfl⟩ := hmember
  exact ⟨w, (name, ⟨before, t, after⟩) :: members, close, rfl⟩

/-- What stands behind the opening brace of an object. -/
def IsMembers (cs rest : List Char) : Prop :=
  ∃ (members : List Member) (close : Space), cs = Tree.membersInside members close rest

lemma isMembers_close (w : Space) (rest : List Char) : IsMembers (w.chars ++ '}' :: rest) rest :=
  ⟨[], w, rfl⟩

lemma IsMoreMembers.first (hmore : IsMoreMembers ds rest) (hmember : IsMember cs ds) :
    IsMembers cs rest := by
  obtain ⟨after, members, close, rfl⟩ := hmore
  obtain ⟨name, before, t, rfl⟩ := hmember
  exact ⟨(name, ⟨before, t, after⟩) :: members, close, rfl⟩

lemma IsMembers.object (h : IsMembers cs rest) : IsTree ('{' :: cs) rest := by
  obtain ⟨members, close, rfl⟩ := h
  exact ⟨.object members close, (Tree.textBefore_object members close rest).symm⟩

/-! ## Arrays and objects -/

section Containers

variable {σ : Type}

lemma stops_readMoreItems {read : Reader α} (hread : ∀ cs, Stops (IsValue cs) (read cs))
    (cs : List Char) : Stops (IsMoreItems cs) (readMoreItems read cs) := by
  fun_induction readMoreItems read cs with
  | case2 cs ds _ hskip =>
    obtain ⟨w, rfl⟩ := exists_space hskip
    exact stops_ok (isMoreItems_close w ds)
  | case7 =>
    next hcomma _ p hvalue q hmore _ hskip _ ih =>
    obtain ⟨w, rfl⟩ := exists_space hskip
    obtain ⟨before, rfl⟩ := exists_space hcomma
    exact stops_ok ((ih q hmore).cons ((hread _ p hvalue).space before) w)
  | case1 | case3 | case4 | case5 | case6 | case8 => exact stops_error _ _

lemma stops_readItems {read : Reader α} (hread : ∀ cs, Stops (IsValue cs) (read cs))
    (cs : List Char) : Stops (IsItems cs) (readItems read cs) := by
  rw [readItems]
  split
  · exact stops_error _ _
  · next c ds _ hskip =>
    obtain ⟨w, rfl⟩ := exists_space hskip
    split
    · next hc =>
      subst hc
      exact stops_ok (isItems_close w ds)
    · refine (hread (c :: ds)).bind fun p hp => ?_
      refine (stops_readMoreItems hread p.rest).bind fun q hq => ?_
      exact stops_ok (hq.first (hp.space w))

variable {step : MemberStep σ}

lemma stops_readMember (hstep : ∀ s n cs, Stops (IsNamed cs) (step s n cs)) (s : σ)
    (cs : List Char) : Stops (IsMember ('"' :: cs)) (readMember step s cs) :=
  (stops_readString cs).bind fun p hp =>
    (hstep s p.value p.rest).bind fun _ hq => stops_ok (hq.member hp)

lemma stops_readMoreMembers (hstep : ∀ s n cs, Stops (IsNamed cs) (step s n cs)) (n : Nat) (s : σ)
    (cs : List Char) (h : cs.length ≤ n) :
    Stops (IsMoreMembers cs) (readMoreMembers step n s cs h) := by
  fun_induction readMoreMembers step n s cs h with
  | case2 s cs _ ds _ hskip =>
    obtain ⟨w, rfl⟩ := exists_space hskip
    exact stops_ok (isMoreMembers_close w ds)
  | case6 =>
    next p hmember _ hskip _ _ hcomma _ ih =>
    obtain ⟨w, rfl⟩ := exists_space hskip
    obtain ⟨before, rfl⟩ := exists_space hcomma
    have hvalue := stops_readMember hstep _ _ p hmember
    exact ih.mono fun rest hmore => hmore.cons (hvalue.space before) w
  | case1 | case3 | case4 | case5 | case7 | case8 => exact stops_error _ _

lemma stops_readMembers (hstep : ∀ s n cs, Stops (IsNamed cs) (step s n cs)) (s : σ)
    (cs : List Char) : Stops (IsMembers cs) (readMembers step s cs) := by
  rw [readMembers]
  split
  · exact stops_error _ _
  · next c ds _ hskip =>
    obtain ⟨w, rfl⟩ := exists_space hskip
    split
    · next hc =>
      subst hc
      exact stops_ok (isMembers_close w ds)
    split
    · next hc =>
      subst hc
      refine (stops_readMember hstep s ds).bind fun p hp => ?_
      exact (stops_readMoreMembers hstep _ p.value p.rest _).mono fun rest hmore =>
        hmore.first (hp.space w)
    · exact stops_error _ _

end Containers

/-! ## Values -/

/-- A step that reads the value of a member and does something with it. -/
lemma stops_behindColon {read : Reader α} (hread : ∀ cs, Stops (IsValue cs) (read cs)) (g : α → β)
    (cs : List Char) :
    Stops (IsNamed cs) (do
      let ⟨ds, h⟩ ← takeColon cs
      let p ← read ds
      return (p.map g).widen h) :=
  stops_check fun r hr => by
    obtain ⟨w, hcs⟩ := exists_colon hr
    exact (hread r.1).bind fun p hp => stops_ok ⟨w, r.1, hcs, hp⟩

theorem stops_readValue (room : Nat) (cs : List Char) :
    Stops (IsValue cs) (readValue room cs) := by
  induction room using Nat.strongRecOn generalizing cs with
  | ind room ih =>
    rw [readValue.eq_def]
    split
    · exact stops_error _ _
    · next c ds _ hskip =>
      obtain ⟨w, rfl⟩ := exists_space hskip
      split
      · next hc =>
        subst hc
        split
        · exact stops_error _ _
        · next room =>
          exact (stops_readItems (ih room (Nat.lt_succ_self room)) ds).map (fun _ => rfl)
            fun rest h => h.array.space w
      split
      · next hc =>
        subst hc
        split
        · exact stops_error _ _
        · next room =>
          have hstep := fun s n => stops_behindColon (ih room (Nat.lt_succ_self room))
            (Entries.put n · s)
          exact (stops_readMembers hstep [] ds).map (fun _ => rfl) fun rest h => h.object.space w
      · exact (stops_readScalar (c :: ds)).map (fun _ => rfl) fun rest h => h.space w

/-! ## Passing over -/

namespace Bracket

/-- What stands behind a value in a container: its further parts and the closing bracket. -/
def IsMore : Bracket → List Char → List Char → Prop
  | .array => IsMoreItems
  | .object => IsMoreMembers

/-- A part of a container in front of the rest, perhaps behind white space. -/
def IsPart : Bracket → List Char → List Char → Prop
  | .array => IsValue
  | .object => IsMember

variable {b : Bracket}

lemma isMore_close (b : Bracket) (w : Space) (rest : List Char) :
    b.IsMore (w.chars ++ b.close :: rest) rest := by
  cases b with
  | array => exact isMoreItems_close w rest
  | object => exact isMoreMembers_close w rest

lemma IsMore.cons (hmore : b.IsMore ds rest) (hpart : b.IsPart cs ds) (w : Space) :
    b.IsMore (w.chars ++ ',' :: cs) rest := by
  cases b with
  | array => exact IsMoreItems.cons hmore hpart w
  | object => exact IsMoreMembers.cons hmore hpart w

lemma IsPart.space (h : b.IsPart cs rest) (w : Space) : b.IsPart (w.chars ++ cs) rest := by
  cases b with
  | array => exact IsValue.space h w
  | object => exact IsMember.space h w

lemma eq_of_opened? {c : Char} (hc : opened? c = some b) :
    b = .array ∧ c = '[' ∨ b = .object ∧ c = '{' := by
  rw [opened?] at hc
  split at hc
  · next h => exact .inl ⟨(Option.some.inj hc).symm, h⟩
  split at hc
  · next h => exact .inr ⟨(Option.some.inj hc).symm, h⟩
  · cases hc

lemma isTree_empty {c : Char} (hc : opened? c = some b) (w : Space) (rest : List Char) :
    IsTree (c :: (w.chars ++ b.close :: rest)) rest := by
  obtain ⟨rfl, rfl⟩ | ⟨rfl, rfl⟩ := eq_of_opened? hc
  · exact (isItems_close w rest).array
  · exact (isMembers_close w rest).object

lemma IsMore.tree (hmore : b.IsMore ds rest) (hpart : b.IsPart cs ds) {c : Char}
    (hc : opened? c = some b) : IsTree (c :: cs) rest := by
  obtain ⟨rfl, rfl⟩ | ⟨rfl, rfl⟩ := eq_of_opened? hc
  · exact (IsMoreItems.first hmore hpart).array
  · exact (IsMoreMembers.first hmore hpart).object

end Bracket

lemma isPart_of_skipName {b : Bracket} {r : Rest cs.length} (h : skipName b cs = .ok r)
    (hvalue : IsValue r.1 rest) : b.IsPart cs rest := by
  cases b with
  | array =>
    cases h
    exact hvalue
  | object =>
    rw [skipName] at h
    split at h
    · cases h
    · next c ds _ hskip =>
      obtain ⟨w, rfl⟩ := exists_space hskip
      split at h
      · next hc =>
        subst hc
        obtain ⟨p, hname, h⟩ := exists_of_bind h
        obtain ⟨r', hcolon, h⟩ := exists_of_bind h
        cases h
        obtain ⟨w', hrest⟩ := exists_colon hcolon
        have hnamed : IsNamed p.rest rest := ⟨w', r'.1, hrest, hvalue⟩
        exact (hnamed.member (stops_skipString ds p hname)).space w
      · cases h

/-- What closes all open brackets in front of the rest. -/
def Closes : List Bracket → List Char → List Char → Prop
  | [], cs, rest => cs = rest
  | b :: outer, cs, rest => ∃ ds, b.IsMore cs ds ∧ Closes outer ds rest

mutual

/-- A value, and then what closes the brackets that are open around it. -/
lemma stops_skipValue (n : Nat) (stack : List Bracket) (cs : List Char) (h : cs.length ≤ n) :
    Stops (fun rest => ∃ ds, IsValue cs ds ∧ Closes stack ds rest) (skipValue n stack cs h) := by
  rw [skipValue]
  split
  · exact stops_error _ _
  · next c ds hds hskip =>
    obtain ⟨w, hcs⟩ := exists_space hskip
    split
    · next b hb =>
      split
      · exact stops_error _ _
      · next d es hes hinside =>
        obtain ⟨w', hds'⟩ := exists_space hinside
        split
        · next hclose =>
          have hshort : es.length < cs.length := Nat.lt_of_lt_of_le hes (Nat.le_of_succ_le hds)
          refine (stops_skipMore n stack es _).mono fun rest hmore => ⟨es, ?_, hmore⟩
          rw [hcs, hds', hclose]
          exact (Bracket.isTree_empty hb w' es).space w
        · split
          · exact stops_error _ _
          · next fs hfs hname =>
            have hshort : fs.length < cs.length :=
              Nat.lt_of_le_of_lt (Nat.le_trans hfs hes) hds
            refine (stops_skipValue n (b :: stack) fs _).mono ?_
            rintro rest ⟨gs, hvalue, hs, hmore, hcloses⟩
            refine ⟨hs, ?_, hcloses⟩
            have hpart := (isPart_of_skipName hname hvalue).space w'
            rw [hcs, hds']
            exact (hmore.tree hpart hb).space w
    · split
      · exact stops_error _ _
      · next p hscalar =>
        have hshort : p.rest.length < cs.length := Nat.lt_of_lt_of_le p.shorter hds
        refine (stops_skipMore n stack p.rest _).mono fun rest hmore => ⟨p.rest, ?_, hmore⟩
        rw [hcs]
        exact (stops_skipScalar (c :: ds) p hscalar).space w
termination_by cs.length

/-- What closes the brackets that are open. -/
lemma stops_skipMore (n : Nat) (stack : List Bracket) (cs : List Char) (h : cs.length < n) :
    Stops (Closes stack cs) (skipMore n stack cs h) := by
  cases stack with
  | nil =>
    rw [skipMore]
    exact stops_ok rfl
  | cons b outer =>
    rw [skipMore]
    split
    · exact stops_error _ _
    · next c ds hds hskip =>
      obtain ⟨w, hcs⟩ := exists_space hskip
      split
      · next hc =>
        split
        · exact stops_error _ _
        · next es hes hname =>
          have hshort : es.length < cs.length := Nat.lt_of_le_of_lt hes hds
          refine (stops_skipValue n (b :: outer) es _).mono ?_
          rintro rest ⟨fs, hvalue, gs, hmore, hcloses⟩
          refine ⟨gs, ?_, hcloses⟩
          rw [hcs, hc]
          exact hmore.cons (isPart_of_skipName hname hvalue) w
      split
      · next hc =>
        have hshort : ds.length < cs.length := hds
        refine (stops_skipMore n outer ds _).mono fun rest hcloses => ⟨ds, ?_, hcloses⟩
        rw [hcs, hc]
        exact Bracket.isMore_close b w ds
      · exact stops_error _ _
termination_by cs.length

end

theorem stops_skip (cs : List Char) : Stops (IsValue cs) (skip cs) := by
  refine (stops_skipValue cs.length [] cs (length_le_self cs)).mono ?_
  rintro rest ⟨_, hvalue, rfl⟩
  exact hvalue

/-! ## Maps and records -/

lemma stops_readMap {read : Nat → Reader α} (hread : ∀ room cs, Stops (IsValue cs) (read room cs))
    (room : Nat) (cs : List Char) : Stops (IsValue cs) (readMap read room cs) := by
  rw [readMap]
  split
  · exact stops_error _ _
  · next c ds _ hskip =>
    obtain ⟨w, rfl⟩ := exists_space hskip
    split
    · next hc =>
      subst hc
      split
      · exact stops_error _ _
      · next room =>
        have hstep := fun (s : NameMap α) n => stops_behindColon (hread room)
          (NameMap.insert s n)
        exact (stops_readMembers hstep ∅ ds).map (fun _ => rfl) fun rest h => h.object.space w
    · exact stops_error _ _

namespace Record

variable {σ : Type} {r : Record σ α} {room : Nat}

lemma stops_memberStep
    (hfields : ∀ field ∈ r.fields, ∀ s cs, Stops (IsValue cs) (field.read room s cs)) (s : σ)
    (n : String) (cs : List Char) : Stops (IsNamed cs) (r.memberStep room s n cs) := by
  rw [memberStep]
  split
  · next field hfield =>
    split
    · exact stops_error _ _
    · exact stops_behindColon (hfields field (List.mem_of_find?_eq_some hfield) s) id cs
  · exact stops_behindColon stops_skip (fun _ => s) cs

lemma exists_arrayEnd {q : Rest cs.length} (h : readArrayEnd cs = .ok q) :
    ∃ w : Space, cs = w.chars ++ ']' :: q.1 := by
  rw [readArrayEnd] at h
  split at h
  · cases h
  · next c ds _ hskip =>
    obtain ⟨w, rfl⟩ := exists_space hskip
    split at h
    · next hc =>
      subst hc
      cases h
      exact ⟨w, rfl⟩
    · split at h
      · cases h
      · cases h

/-- What stands behind the opening bracket of an array, or behind one of its elements. -/
def IsElements (first : Bool) : List Char → List Char → Prop :=
  if first then IsItems else IsMoreItems

lemma isElements_close (first : Bool) {w : Space} (hcs : cs = w.chars ++ ']' :: rest) :
    IsElements first cs rest := by
  subst hcs
  cases first with
  | true => exact isItems_close w rest
  | false => exact isMoreItems_close w rest

lemma stops_readFields {n : Nat} {fields : List (Field σ)}
    (hfields : ∀ field ∈ fields, ∀ s cs, Stops (IsValue cs) (field.read room s cs)) (first : Bool)
    (s : σ) (cs : List Char) (h : cs.length < n) :
    Stops (IsElements first cs) (readFields room n fields first s cs h) := by
  induction fields generalizing first s cs with
  | nil =>
    rw [readFields]
    refine stops_check fun q hq => stops_ok ?_
    obtain ⟨w, hcs⟩ := exists_arrayEnd hq
    exact isElements_close first hcs
  | cons field fields ih =>
    have hfield := hfields field List.mem_cons_self s
    have hmore := fun s cs h =>
      ih (fun field' hf => hfields field' (List.mem_cons_of_mem field hf)) false s cs h
    rw [readFields]
    split
    · exact stops_error _ _
    · next c ds _ hskip =>
      obtain ⟨w, rfl⟩ := exists_space hskip
      split
      · next hc =>
        subst hc
        exact stops_ok (isElements_close first rfl)
      split
      · next hfirst =>
        subst hfirst
        refine (hfield (c :: ds)).bind fun p hp => ?_
        exact (hmore p.value p.rest _).mono fun rest h => h.first (hp.space w)
      split
      · next hfirst hc =>
        subst hc
        obtain rfl : first = false := by simpa using hfirst
        split
        · exact stops_error _ _
        · next d es _ hcomma =>
          obtain ⟨before, rfl⟩ := exists_space hcomma
          split
          · exact stops_error _ _
          · refine (hfield (d :: es)).bind fun p hp => ?_
            exact (hmore p.value p.rest _).mono fun rest h => h.cons (hp.space before) w
      · exact stops_error _ _

/-- A record is a value, if the values of its fields are. -/
theorem stops_record
    (hfields : ∀ room, ∀ field ∈ r.fields, ∀ s cs, Stops (IsValue cs) (field.read room s cs))
    (room : Nat) (cs : List Char) : Stops (IsValue cs) (r.read room cs) := by
  rw [read.eq_def]
  split
  · exact stops_error _ _
  · next c ds _ hskip =>
    obtain ⟨w, rfl⟩ := exists_space hskip
    split
    · next hc =>
      subst hc
      split
      · exact stops_error _ _
      · next room =>
        refine (stops_readMembers (stops_memberStep (hfields room)) r.start ds).bind fun p hp => ?_
        exact stops_check fun _ _ => stops_ok (hp.object.space w)
    split
    · next hc =>
      subst hc
      split
      · exact stops_error _ _
      · next room =>
        refine (stops_readFields (hfields room) true r.start ds _).bind fun p hp => ?_
        exact stops_check fun _ _ => stops_ok ((IsItems.array hp).space w)
    · exact stops_error _ _

end Record

/-! ## Texts -/

/-- A text that is read to its end is the text of a tree between white space. -/
theorem exists_text_of_readAll {read : Nat → Reader α}
    (hread : ∀ cs, Stops (IsValue cs) (read maxDepth cs)) {text : String} {a : α}
    (h : readAll read text = .ok a) : ∃ d : Spaced Tree, d.text = text := by
  obtain ⟨p, hp, h⟩ := exists_of_bind h
  obtain ⟨before, t, hvalue⟩ := hread text.toList p hp
  split at h
  · next hend =>
    obtain ⟨after, hafter⟩ := exists_space (Subtype.ext hend : skipSpace p.rest = ⟨[], by simp⟩)
    rw [List.append_nil] at hafter
    refine ⟨⟨before, t, after⟩, ?_⟩
    rw [Spaced.text, ← hafter, ← hvalue, String.ofList_toList]
  · cases h

end Json
end SchemaCut
