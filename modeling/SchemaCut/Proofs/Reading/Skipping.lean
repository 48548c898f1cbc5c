import SchemaCut.Proofs.Reading.Values

/-!
# Passing over values

A value that is passed over is not nested in the reader: the brackets that it opens are put on a
list, and the reader goes on until the list is empty.  So what a value does is stated for any list
of open brackets.  The reader comes out behind the value with the list that it went in with
(`Skips`), however the value is nested and whatever it means.

* `takes_skip` : every written value can be passed over.
-/

namespace SchemaCut
namespace Json

/-- Passing over a value is going on behind it. -/
def Skips (t : Tree) : Prop :=
  ∀ (n : Nat) (stack : List Bracket) (w : Space) (rest : List Char), Delimited rest →
    ∀ cs, cs = w.chars ++ t.textBefore rest → ∀ h,
      ∃ h', skipValue n stack cs h = skipMore n stack rest h'

/-! ## Values without parts -/

lemma takes_skipScalar {t : Tree} (ht : t.IsScalar) {rest : List Char} (hrest : Delimited rest) :
    Takes (skipScalar (t.textBefore rest)) rest (some ()) := by
  match t, ht with
  | .null, _ => exact takes_word () ['u', 'l', 'l'] rest
  | .bool true, _ => exact takes_word () ['r', 'u', 'e'] rest
  | .bool false, _ => exact takes_word () ['a', 'l', 's', 'e'] rest
  | .string l, _ =>
    exact (takes_skipString l rest).map (b := id) (fun _ => rfl) fun _ => rfl
  | .number x, _ =>
    obtain ⟨c, cs, htext, hc⟩ := x.exists_text_eq_cons
    have hnumber := takes_skipNumber x hrest
    obtain ⟨hn, ht, hf, hquote⟩ := Tree.ne_letters_of_startsNumber hc
    rw [htext, List.cons_append] at hnumber
    rw [Tree.textBefore, htext, List.cons_append, skipScalar]
    simp only [if_neg hn, if_neg ht, if_neg hf, if_neg hquote, if_pos hc]
    exact hnumber

lemma skips_scalar {t : Tree} (ht : t.IsScalar) : Skips t := by
  intro n stack w rest hrest cs hcs h
  obtain ⟨c, ds, htext, hspace, -⟩ := t.exists_textBefore_eq_cons rest
  obtain ⟨h₁, hskip⟩ := skipSpace_append w hspace ds
  have hscalar := takes_skipScalar ht hrest
  rw [htext] at hcs hscalar
  obtain ⟨h₂, hscalar⟩ := hscalar
  subst hcs
  refine ⟨by simp only [List.length_append] at h; omega, ?_⟩
  rw [skipValue, hskip]
  simp only [ht.opened?_eq_none htext, hscalar]

/-! ## Arrays and objects -/

lemma Bracket.isSpace_of_opened? {b : Bracket} {c : Char} (hc : opened? c = some b) :
    isSpace c = false := by
  rw [opened?] at hc
  split at hc
  · next h => subst h; rfl
  split at hc
  · next h => subst h; rfl
  · cases hc

section Containers

variable {n : Nat} {stack : List Bracket} {rest cs : List Char}

/-- A container that holds nothing. -/
lemma skipValue_empty {b : Bracket} {c : Char} (hc : Bracket.opened? c = some b)
    {inside : List Char} {h₁ : (b.close :: rest).length ≤ inside.length}
    (hinside : skipSpace inside = ⟨b.close :: rest, h₁⟩) (w : Space)
    (hcs : cs = w.chars ++ c :: inside) (h : cs.length ≤ n) :
    ∃ h', skipValue n stack cs h = skipMore n stack rest h' := by
  have hspace : isSpace c = false := Bracket.isSpace_of_opened? hc
  obtain ⟨h₂, hskip⟩ := skipSpace_append w hspace inside
  subst hcs
  refine ⟨by simp at h h₁; omega, ?_⟩
  rw [skipValue, hskip]
  simp only [hc, hinside, if_true]

/-- A container that holds something is put on the list. -/
lemma skipValue_opens {b : Bracket} {c : Char} (hc : Bracket.opened? c = some b)
    {inside ds fs : List Char} {d : Char} {h₁ : (d :: ds).length ≤ inside.length}
    (hinside : skipSpace inside = ⟨d :: ds, h₁⟩) (hd : d ≠ b.close)
    {h₂ : fs.length ≤ (d :: ds).length} (hname : skipName b (d :: ds) = .ok ⟨fs, h₂⟩) (w : Space)
    (hcs : cs = w.chars ++ c :: inside) (h : cs.length ≤ n) :
    ∃ h', skipValue n stack cs h = skipValue n (b :: stack) fs h' := by
  have hspace : isSpace c = false := Bracket.isSpace_of_opened? hc
  obtain ⟨h₃, hskip⟩ := skipSpace_append w hspace inside
  subst hcs
  refine ⟨by simp at h h₁ h₂; omega, ?_⟩
  rw [skipValue, hskip]
  simp only [hc, hinside, if_neg hd, hname]

/-- The bracket that closes a container takes it from the list. -/
lemma skipMore_close (b : Bracket) (after close : Space)
    (hcs : cs = after.chars ++ (close.chars ++ b.close :: rest)) (h : cs.length < n) :
    ∃ h', skipMore n (b :: stack) cs h = skipMore n stack rest h' := by
  have hspace : isSpace b.close = false := by cases b <;> rfl
  have hcomma : b.close ≠ ',' := by cases b <;> decide
  obtain ⟨h₁, hskip⟩ := skipSpace_append_append after close hspace rest
  subst hcs
  refine ⟨by simp at h; omega, ?_⟩
  rw [skipMore, hskip]
  simp only [if_neg hcomma, if_true]

lemma skipMore_items {items : List (Spaced Tree)} (hitems : ∀ i ∈ items, Skips i.value)
    (close after : Space)
    (hcs : cs = after.chars ++ Tree.itemsBefore items (close.chars ++ ']' :: rest))
    (h : cs.length < n) :
    ∃ h', skipMore n (.array :: stack) cs h = skipMore n stack rest h' := by
  induction items generalizing after cs with
  | nil =>
    rw [Tree.itemsBefore] at hcs
    exact skipMore_close .array after close hcs h
  | cons i items ih =>
    obtain ⟨before, t, after'⟩ := i
    obtain ⟨h₁, hskip⟩ := skipSpace_append after (c := ',') rfl (before.chars ++
      t.textBefore (after'.chars ++ Tree.itemsBefore items (close.chars ++ ']' :: rest)))
    rw [Tree.itemsBefore] at hcs
    subst hcs
    obtain ⟨h₂, hvalue⟩ := hitems ⟨before, t, after'⟩ List.mem_cons_self n (.array :: stack) before
      _ (Tree.delimited_items after' items close rest) _ rfl
      (by simp at h ⊢; omega)
    obtain ⟨h₃, hmore⟩ := ih (fun j hj => hitems j (List.mem_cons_of_mem _ hj)) after' rfl h₂
    refine ⟨h₃, ?_⟩
    rw [← hmore, ← hvalue, skipMore, hskip]
    simp only [if_true, skipName, Rest.all]

lemma skips_array {items : List (Spaced Tree)} (hitems : ∀ i ∈ items, Skips i.value)
    (close : Space) : Skips (.array items close) := by
  intro n stack w rest hrest cs hcs h
  rw [Tree.textBefore_array] at hcs
  cases items with
  | nil =>
    obtain ⟨h₁, hclose⟩ := skipSpace_append close (c := ']') rfl rest
    exact skipValue_empty (b := .array) rfl hclose w hcs h
  | cons i items =>
    obtain ⟨before, t, after⟩ := i
    obtain ⟨c, ds, htext, hspace, hc⟩ := t.exists_textBefore_eq_cons
      (after.chars ++ Tree.itemsBefore items (close.chars ++ ']' :: rest))
    obtain ⟨h₁, hfirst⟩ := skipSpace_append before hspace ds
    rw [Tree.itemsInside, htext] at hcs
    obtain ⟨h₂, hopen⟩ := skipValue_opens (b := .array) rfl hfirst hc rfl w hcs h
    obtain ⟨h₃, hvalue⟩ := hitems ⟨before, t, after⟩ List.mem_cons_self n (.array :: stack) .empty _
      (Tree.delimited_items after items close rest) (c :: ds) htext.symm h₂
    obtain ⟨h₄, hmore⟩ := skipMore_items (fun j hj => hitems j (List.mem_cons_of_mem _ hj))
      close after rfl h₃
    exact ⟨h₄, hopen.trans (hvalue.trans hmore)⟩

/-- The name of a member is passed over together with its colon. -/
lemma skipName_object (w : Space) (m : Member) (tail : List Char) :
    ∃ h, skipName .object (w.chars ++ '"' :: m.inside tail) =
      .ok ⟨m.2.before.chars ++ m.2.value.textBefore tail, h⟩ := by
  rw [Member.inside]
  obtain ⟨h₁, hskip⟩ := skipSpace_append w (c := '"') rfl
    (Literal.innerText m.1.value.pieces ++
      '"' :: (m.1.after.chars ++ ':' :: (m.2.before.chars ++ m.2.value.textBefore tail)))
  obtain ⟨h₂, hname⟩ := takes_skipString m.1.value
    (m.1.after.chars ++ ':' :: (m.2.before.chars ++ m.2.value.textBefore tail))
  obtain ⟨h₃, hcolon⟩ := takeColon_append m.1.after (m.2.before.chars ++ m.2.value.textBefore tail)
  refine ⟨by simp; omega, ?_⟩
  rw [skipName, hskip]
  simp only [if_true, hname, bind, Except.bind, hcolon]
  rfl

lemma skipMore_members {members : List Member} (hmembers : ∀ m ∈ members, Skips m.2.value)
    (close after : Space)
    (hcs : cs = after.chars ++ Tree.membersBefore members (close.chars ++ '}' :: rest))
    (h : cs.length < n) :
    ∃ h', skipMore n (.object :: stack) cs h = skipMore n stack rest h' := by
  induction members generalizing after cs with
  | nil =>
    rw [Tree.membersBefore] at hcs
    exact skipMore_close .object after close hcs h
  | cons m members ih =>
    obtain ⟨h₁, hskip⟩ := skipSpace_append after (c := ',') rfl (m.1.before.chars ++
      '"' :: m.inside (m.2.after.chars ++ Tree.membersBefore members (close.chars ++ '}' :: rest)))
    obtain ⟨h₂, hname⟩ := skipName_object m.1.before m
      (m.2.after.chars ++ Tree.membersBefore members (close.chars ++ '}' :: rest))
    rw [membersBefore_cons] at hcs
    subst hcs
    obtain ⟨h₃, hvalue⟩ := hmembers m List.mem_cons_self n (.object :: stack) m.2.before
      _ (Tree.delimited_members m.2.after members close rest) _ rfl
      (by simp at h h₂ ⊢; omega)
    obtain ⟨h₄, hmore⟩ := ih (fun m' hm' => hmembers m' (List.mem_cons_of_mem _ hm')) m.2.after
      rfl h₃
    refine ⟨h₄, ?_⟩
    rw [← hmore, ← hvalue, skipMore, hskip]
    simp only [if_true, hname]

lemma skips_object {members : List Member} (hmembers : ∀ m ∈ members, Skips m.2.value)
    (close : Space) : Skips (.object members close) := by
  intro n stack w rest hrest cs hcs h
  rw [Tree.textBefore_object] at hcs
  cases members with
  | nil =>
    obtain ⟨h₁, hclose⟩ := skipSpace_append close (c := '}') rfl rest
    exact skipValue_empty (b := .object) rfl hclose w hcs h
  | cons m members =>
    obtain ⟨h₁, hfirst⟩ := skipSpace_append m.1.before (c := '"') rfl
      (m.inside (m.2.after.chars ++ Tree.membersBefore members (close.chars ++ '}' :: rest)))
    obtain ⟨h₂, hname⟩ := skipName_object .empty m
      (m.2.after.chars ++ Tree.membersBefore members (close.chars ++ '}' :: rest))
    obtain ⟨h₃, hopen⟩ := skipValue_opens (b := .object) rfl hfirst (by decide) hname w hcs h
    obtain ⟨h₄, hvalue⟩ := hmembers m List.mem_cons_self n (.object :: stack) m.2.before _
      (Tree.delimited_members m.2.after members close rest) _ rfl h₃
    obtain ⟨h₅, hmore⟩ := skipMore_members
      (fun m' hm' => hmembers m' (List.mem_cons_of_mem _ hm')) close m.2.after rfl h₄
    exact ⟨h₅, hopen.trans (hvalue.trans hmore)⟩

end Containers

theorem skips (t : Tree) : Skips t := by
  induction t using Tree.induct with
  | null | bool b | number x | string l => exact skips_scalar (by trivial)
  | array items close ih => exact skips_array ih close
  | object members close ih => exact skips_object ih close

/-- Every written value can be passed over, whatever it means and however deep it is nested. -/
theorem takes_skip (t : Tree) (w : Space) {rest : List Char} (hrest : Delimited rest) :
    Takes (skip (w.chars ++ t.textBefore rest)) rest (some ()) := by
  obtain ⟨h, hskip⟩ := skips t _ [] w rest hrest _ rfl
    (length_le_self (w.chars ++ t.textBefore rest))
  rw [skip, hskip, skipMore]
  exact takes_ok () h

end Json
end SchemaCut
