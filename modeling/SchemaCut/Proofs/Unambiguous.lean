import Mathlib
import SchemaCut.Checksum
import SchemaCut.Proofs.RoundTrip

/-!
# No two schemas have one text

What is written for a value can be told apart from what stands behind it, and from what is written
for any other value.  This does not go through the reader, which opens a limited number of
containers: it holds of values of any depth, and of objects whose members are in any order.

`Unmistakable` says it of one value in front of texts that do not prolong a number.  Strings and
numbers are read off the text.  The first character tells a value's form (`Form`), and containers
are compared part by part: their parts stand behind commas, the bracket that closes them stands
where a comma would be, and all of this at the same depth in both texts.

Nothing is lost behind the text either.  A text can be read off its bytes, and the words of a digest
off their hexadecimal digits, of which each word has eight.  So a checksum stands for one digest.

* `unmistakable_write` : the text of a value is that of no other value.
* `ofBytes_eq_iff` : checksums agree where the digests do, word by word.
* `text_determines_schema` : schemas with one text are equal, so different schemas with one checksum
  are a collision of the digest.
-/

namespace SchemaCut
namespace Json

/-! ## Strings and numbers -/

/-- A reader takes one value from a text. -/
lemma Takes.unique {α : Type} {n : Nat} {x : Except Fault (Parsed α n)} {r s : List Char} {a b : α}
    (ha : Takes x r (some a)) (hb : Takes x s (some b)) : a = b ∧ r = s := by
  obtain ⟨_, ha⟩ := ha
  obtain ⟨_, hb⟩ := hb
  rw [ha] at hb
  cases hb
  exact ⟨rfl, rfl⟩

lemma takes_stringText (s : String) (rest : List Char) :
    Takes (readString (s.toList.flatMap escapeChar ++ '"' :: rest)) rest (some s) := by
  obtain ⟨ps, htext, hvalue⟩ := exists_pieces s.toList
  have h := takes_readString ⟨ps⟩ rest
  rwa [htext, Literal.value?, hvalue, Option.map_some, String.ofList_toList] at h

lemma stringText_append_inj {s t : String} {r r' : List Char}
    (h : stringText s ++ r = stringText t ++ r') : s = t ∧ r = r' := by
  have hinside : s.toList.flatMap escapeChar ++ '"' :: r =
      t.toList.flatMap escapeChar ++ '"' :: r' := by
    simpa [stringText] using h
  have hs := takes_stringText s r
  rw [hinside] at hs
  exact hs.unique (takes_stringText t r')

lemma numberText_append_inj {m n : Number} (hm : m.Integral) (hn : n.Integral) {r s : List Char}
    (hr : Delimited r) (hs : Delimited s) (h : numberText m ++ r = numberText n ++ s) :
    m = n ∧ r = s := by
  obtain ⟨x, hx, hxm⟩ := exists_figure hm
  obtain ⟨y, hy, hyn⟩ := exists_figure hn
  have hread := takes_readNumber x hr
  rw [hx, h, hxm] at hread
  have hread' := takes_readNumber y hs
  rw [hy, hyn] at hread'
  exact hread.unique hread'

/-! ## Containers -/

section Containers

variable {α : Type} {good : α → Prop} {text : α → List Char}

/-- In front of what does not prolong a number the text of `a` is that of no other good value, and
the text behind it starts at the same place. -/
def Unmistakable (good : α → Prop) (text : α → List Char) (a : α) : Prop :=
  ∀ b, good b → ∀ r s, Delimited r → Delimited s → text a ++ r = text b ++ s → a = b ∧ r = s

/-- The further parts of a container, each behind a comma. -/
def furtherText (layout : Layout) (depth : Nat) (text : α → List Char) (xs : List α) : List Char :=
  xs.flatMap fun x => ',' :: (layout.newline (depth + 1) ++ text x)

/-- The text of a container from behind its opening bracket. -/
def insideText (layout : Layout) (depth : Nat) (closing : Char) (text : α → List Char)
    (xs : List α) : List Char :=
  match xs with
  | [] => [closing]
  | x :: xs => layout.newline (depth + 1) ++ text x ++ furtherText layout depth text xs ++
      layout.newline depth ++ [closing]

variable {layout : Layout} {depth : Nat} {closing : Char}

/-- The bracket that closes a container stands where no comma is. -/
lemma closing_ne_comma (hclosing : closing = ']' ∨ closing = '}') (r s : List Char) :
    layout.newline depth ++ closing :: r ≠ ',' :: s := by
  cases layout with
  | pretty =>
    intro h
    simp [Layout.newline] at h
  | compact => rcases hclosing with rfl | rfl <;> simp [Layout.newline]

/-- Behind a part there is a comma, a line break or a closing bracket. -/
lemma delimited_furtherText (hclosing : closing = ']' ∨ closing = '}') (xs : List α)
    (r : List Char) :
    Delimited (furtherText layout depth text xs ++ (layout.newline depth ++ closing :: r)) := by
  cases xs with
  | cons x xs => exact delimited_cons rfl _
  | nil =>
    refine delimited_space (lineStart layout depth) (delimited_cons ?_ r)
    rcases hclosing with rfl | rfl <;> rfl

lemma furtherText_append_inj (hclosing : closing = ']' ∨ closing = '}') {xs ys : List α}
    (hxs : ∀ x ∈ xs, Unmistakable good text x) (hys : ∀ y ∈ ys, good y) {r s : List Char}
    (h : furtherText layout depth text xs ++ (layout.newline depth ++ closing :: r) =
      furtherText layout depth text ys ++ (layout.newline depth ++ closing :: s)) :
    xs = ys ∧ r = s := by
  induction xs generalizing ys with
  | nil =>
    cases ys with
    | nil => exact ⟨rfl, by simpa [furtherText] using h⟩
    | cons y ys => exact absurd h (closing_ne_comma hclosing _ _)
  | cons x xs ih =>
    cases ys with
    | nil => exact absurd h.symm (closing_ne_comma hclosing _ _)
    | cons y ys =>
      have hparts : text x ++ (furtherText layout depth text xs ++
            (layout.newline depth ++ closing :: r)) =
          text y ++ (furtherText layout depth text ys ++
            (layout.newline depth ++ closing :: s)) := by
        simpa [furtherText] using h
      obtain ⟨rfl, hrest⟩ := hxs x List.mem_cons_self y (hys y List.mem_cons_self) _ _
        (delimited_furtherText hclosing xs r) (delimited_furtherText hclosing ys s) hparts
      obtain ⟨rfl, hr⟩ := ih (fun x hx => hxs x (List.mem_cons_of_mem _ hx))
        (fun y hy => hys y (List.mem_cons_of_mem _ hy)) hrest
      exact ⟨rfl, hr⟩

/-- A container without parts closes where another one has its first part. -/
lemma closing_ne_part (hclosing : closing = ']' ∨ closing = '}') {y : α}
    (hstart : ∀ r s, text y ++ r ≠ closing :: s) (r s : List Char) :
    closing :: r ≠ layout.newline depth ++ (text y ++ s) := by
  cases layout with
  | pretty => rcases hclosing with rfl | rfl <;> simp [Layout.newline]
  | compact =>
    intro h
    exact hstart s r h.symm

lemma insideText_append_inj (hclosing : closing = ']' ∨ closing = '}')
    (hstart : ∀ y, good y → ∀ r s, text y ++ r ≠ closing :: s) {xs ys : List α}
    (hxs : ∀ x ∈ xs, good x ∧ Unmistakable good text x) (hys : ∀ y ∈ ys, good y)
    {r s : List Char}
    (h : insideText layout depth closing text xs ++ r =
      insideText layout depth closing text ys ++ s) : xs = ys ∧ r = s := by
  cases xs with
  | nil =>
    cases ys with
    | nil => exact ⟨rfl, by simpa [insideText] using h⟩
    | cons y ys =>
      simp only [insideText, List.append_assoc, List.cons_append, List.nil_append] at h
      exact absurd h (closing_ne_part hclosing (hstart y (hys y List.mem_cons_self)) _ _)
  | cons x xs =>
    cases ys with
    | nil =>
      simp only [insideText, List.append_assoc, List.cons_append, List.nil_append] at h
      have hx := (hxs x List.mem_cons_self).1
      exact absurd h.symm (closing_ne_part hclosing (hstart x hx) _ _)
    | cons y ys =>
      have hfurther : furtherText layout depth text (x :: xs) ++
            (layout.newline depth ++ closing :: r) =
          furtherText layout depth text (y :: ys) ++
            (layout.newline depth ++ closing :: s) := by
        simpa [insideText, furtherText] using h
      exact furtherText_append_inj hclosing (fun x hx => (hxs x hx).2) hys hfurther

end Containers

/-! ## Values -/

/-- The text of a member. -/
def memberText (layout : Layout) (depth : Nat) (m : String × Json) : List Char :=
  stringText m.1 ++ layout.colon ++ write layout depth m.2

lemma writeItems_eq (layout : Layout) (depth : Nat) (vs : List Json) :
    writeItems layout depth vs = furtherText layout depth (write layout (depth + 1)) vs := by
  induction vs with
  | nil => rfl
  | cons v vs ih => simp [writeItems, ih, furtherText]

lemma writeMembers_eq (layout : Layout) (depth : Nat) (ms : List (String × Json)) :
    writeMembers layout depth ms = furtherText layout depth (memberText layout (depth + 1)) ms := by
  induction ms with
  | nil => rfl
  | cons m ms ih => simp [writeMembers, ih, furtherText, memberText]

lemma write_arr (layout : Layout) (depth : Nat) (vs : List Json) :
    write layout depth (arr vs) =
      '[' :: insideText layout depth ']' (write layout (depth + 1)) vs := by
  cases vs with
  | nil => rfl
  | cons v vs => simp [write, writeItems_eq, insideText]

lemma write_obj (layout : Layout) (depth : Nat) (ms : List (String × Json)) :
    write layout depth (obj ms) =
      '{' :: insideText layout depth '}' (memberText layout (depth + 1)) ms := by
  cases ms with
  | nil => rfl
  | cons m ms => simp [write, writeMembers_eq, insideText, memberText]

/-- The forms of value that the first character of a text tells apart. -/
inductive Form where
  | null
  | false
  | true
  | number
  | string
  | array
  | object

/-- The form of a value. -/
def form : Json → Form
  | .null => .null
  | .bool Bool.false => .false
  | .bool Bool.true => .true
  | .num _ => .number
  | .str _ => .string
  | .arr _ => .array
  | .obj _ => .object

/-- The form of a value whose text starts with the character. -/
def Form.ofStart (c : Char) : Form :=
  if c = 'n' then .null
  else if c = 'f' then .false
  else if c = 't' then .true
  else if c = '"' then .string
  else if c = '[' then .array
  else if c = '{' then .object
  else .number

lemma exists_write_eq_cons (layout : Layout) (depth : Nat) {v : Json} (hv : v.Integral) :
    ∃ c cs, write layout depth v = c :: cs ∧ Form.ofStart c = v.form ∧ c ≠ ']' := by
  cases v with
  | null => exact ⟨'n', _, rfl, rfl, by decide⟩
  | bool b => cases b <;> exact ⟨_, _, rfl, rfl, by decide⟩
  | str s => exact ⟨'"', _, rfl, rfl, by decide⟩
  | arr vs => exact ⟨'[', _, write_arr layout depth vs, rfl, by decide⟩
  | obj ms => exact ⟨'{', _, write_obj layout depth ms, rfl, by decide⟩
  | num n =>
    obtain ⟨x, htext, -⟩ := exists_figure (hv n (by simp [numbers]))
    obtain ⟨c, cs, hcons, hstart⟩ := x.exists_text_eq_cons
    obtain ⟨hn, ht, hf, hquote⟩ := Tree.ne_letters_of_startsNumber hstart
    have hbracket := Tree.ne_of_startsNumber hstart (d := '[') (by decide)
    have hbrace := Tree.ne_of_startsNumber hstart (d := '{') (by decide)
    refine ⟨c, cs, by rw [write, ← htext, hcons], ?_, Tree.ne_of_startsNumber hstart (by decide)⟩
    simp [Form.ofStart, form, hn, ht, hf, hquote, hbracket, hbrace]

lemma write_append_ne {layout : Layout} {depth : Nat} {v : Json} (hv : v.Integral)
    (r s : List Char) : write layout depth v ++ r ≠ ']' :: s := by
  obtain ⟨c, cs, hc, -, hne⟩ := exists_write_eq_cons layout depth hv
  intro h
  rw [hc] at h
  exact hne (List.cons.inj h).1

lemma form_eq_of_write {layout : Layout} {depth : Nat} {v w : Json} (hv : v.Integral)
    (hw : w.Integral) {r s : List Char}
    (h : write layout depth v ++ r = write layout depth w ++ s) : v.form = w.form := by
  obtain ⟨c, cs, hc, hform, -⟩ := exists_write_eq_cons layout depth hv
  obtain ⟨d, ds, hd, hform', -⟩ := exists_write_eq_cons layout depth hw
  rw [hc, hd, List.cons_append, List.cons_append] at h
  rw [← hform, ← hform', (List.cons.inj h).1]

/-- Two values of one form, which are the same value if the form leaves no choice. -/
inductive SameForm : Json → Json → Prop
  | null : SameForm .null .null
  | bool (b : Bool) : SameForm (.bool b) (.bool b)
  | num (m n : Number) : SameForm (.num m) (.num n)
  | str (s t : String) : SameForm (.str s) (.str t)
  | arr (vs ws : List Json) : SameForm (.arr vs) (.arr ws)
  | obj (ms ns : List (String × Json)) : SameForm (.obj ms) (.obj ns)

lemma sameForm_of_form_eq {v w : Json} (h : v.form = w.form) : SameForm v w := by
  match v, w, h with
  | .null, .null, _ => exact .null
  | .bool Bool.false, .bool Bool.false, _ => exact .bool _
  | .bool Bool.true, .bool Bool.true, _ => exact .bool _
  | .num m, .num n, _ => exact .num m n
  | .str s, .str t, _ => exact .str s t
  | .arr vs, .arr ws, _ => exact .arr vs ws
  | .obj ms, .obj ns, _ => exact .obj ms ns

lemma memberText_append_inj {layout : Layout} {depth : Nat} {m n : String × Json}
    (hm : Unmistakable Integral (write layout depth) m.2) (hn : n.2.Integral) {r s : List Char}
    (hr : Delimited r) (hs : Delimited s)
    (h : memberText layout depth m ++ r = memberText layout depth n ++ s) : m = n ∧ r = s := by
  simp only [memberText, List.append_assoc] at h
  obtain ⟨hname, hvalue⟩ := stringText_append_inj h
  obtain ⟨hvalue, hrest⟩ := hm n.2 hn r s hr hs (List.append_cancel_left hvalue)
  exact ⟨Prod.ext hname hvalue, hrest⟩

/-- In front of what does not prolong a number the text of a value is that of no other value. -/
theorem unmistakable_write (layout : Layout) (depth : Nat) {v : Json} (hv : v.Integral) :
    Unmistakable Integral (write layout depth) v := by
  induction v using Json.induct generalizing depth with
  | null | bool b =>
    intro w hw r s hr hs h
    cases sameForm_of_form_eq (form_eq_of_write hv hw h)
    exact ⟨rfl, List.append_cancel_left h⟩
  | num m =>
    intro w hw r s hr hs h
    cases sameForm_of_form_eq (form_eq_of_write hv hw h) with
    | num _ n =>
      have hm := hv m (by simp [numbers])
      have hn := hw n (by simp [numbers])
      obtain ⟨rfl, hrest⟩ := numberText_append_inj hm hn hr hs h
      exact ⟨rfl, hrest⟩
  | str s =>
    intro w hw r r' hr hr' h
    cases sameForm_of_form_eq (form_eq_of_write hv hw h) with
    | str _ t =>
      obtain ⟨rfl, hrest⟩ := stringText_append_inj h
      exact ⟨rfl, hrest⟩
  | arr vs ih =>
    intro w hw r s hr hs h
    cases sameForm_of_form_eq (form_eq_of_write hv hw h) with
    | arr _ ws =>
      rw [integral_arr_iff] at hv hw
      rw [write_arr, write_arr] at h
      obtain ⟨rfl, hrest⟩ := insideText_append_inj (.inl rfl) (fun y hy => write_append_ne hy)
        (fun v hmem => ⟨hv v hmem, ih v hmem (depth + 1) (hv v hmem)⟩) hw (List.cons.inj h).2
      exact ⟨rfl, hrest⟩
  | obj ms ih =>
    intro w hw r s hr hs h
    cases sameForm_of_form_eq (form_eq_of_write hv hw h) with
    | obj _ ns =>
      rw [integral_obj_iff] at hv hw
      rw [write_obj, write_obj] at h
      have hstart : ∀ m : String × Json, m.2.Integral → ∀ r s,
          memberText layout (depth + 1) m ++ r ≠ '}' :: s := by
        intro m _ r s heq
        exact absurd (List.cons.inj heq).1 (by decide)
      have hparts : ∀ m ∈ ms, m.2.Integral ∧
          Unmistakable (fun n => n.2.Integral) (memberText layout (depth + 1)) m := by
        intro m hmem
        refine ⟨hv m hmem, fun n hn r s hr hs heq => ?_⟩
        exact memberText_append_inj (ih m hmem (depth + 1) (hv m hmem)) hn hr hs heq
      obtain ⟨rfl, hrest⟩ := insideText_append_inj (.inr rfl) hstart hparts hw (List.cons.inj h).2
      exact ⟨rfl, hrest⟩

lemma text_inj {layout : Layout} {v w : Json} (hv : v.Integral) (hw : w.Integral)
    (h : v.text layout = w.text layout) : v = w := by
  have hwrite : write layout 0 v ++ [] = write layout 0 w ++ [] := by
    rw [text, text, String.ofList_inj] at h
    rw [h]
  have hend : Delimited [] := fun c hc => by cases hc
  exact (unmistakable_write layout 0 hv w hw [] [] hend hend hwrite).1

end Json

/-! ## Bytes of a text -/

namespace Checksum

lemma toList_loop_eq (bytes : ByteArray) (i : Nat) (done : List UInt8) :
    ByteArray.toList.loop bytes i done = done.reverse ++ bytes.data.toList.drop i := by
  fun_induction ByteArray.toList.loop bytes i done with
  | case1 i done h ih =>
    have hi : i < bytes.data.toList.length := by simpa using h
    rw [ih, List.drop_eq_getElem_cons hi]
    simp [ByteArray.get!, h]
  | case2 i done h =>
    rw [List.drop_eq_nil_of_le (by simpa using Nat.le_of_not_lt h)]
    simp

/-- Different texts have different bytes. -/
lemma toUTF8_toList_inj {s t : String} (h : s.toUTF8.toList = t.toUTF8.toList) : s = t := by
  have hlist : ∀ bytes : ByteArray, bytes.toList = bytes.data.toList := by
    intro bytes
    rw [ByteArray.toList, toList_loop_eq]
    rfl
  rw [hlist, hlist, Array.toList_inj] at h
  exact String.toByteArray_inj.1 (ByteArray.ext h)

/-! ## Digests -/

/-- A number below a power of 16 is determined by so many of its digits. -/
lemma eq_of_digits {n v w : ℕ} (hv : v < Nat.pow 16 n) (hw : w < Nat.pow 16 n)
    (h : ∀ i < n, v / Nat.pow 16 i % 16 = w / Nat.pow 16 i % 16) : v = w := by
  induction n generalizing v w with
  | zero => exact (Nat.lt_one_iff.1 hv).trans (Nat.lt_one_iff.1 hw).symm
  | succ n ih =>
    have hpow : ∀ i, Nat.pow 16 (i + 1) = 16 * Nat.pow 16 i := fun i => Nat.pow_succ'
    have hlast : v % 16 = w % 16 := by simpa using h 0 n.succ_pos
    have hrest : v / 16 = w / 16 := by
      rw [hpow] at hv hw
      refine ih (Nat.div_lt_of_lt_mul hv) (Nat.div_lt_of_lt_mul hw) fun i hi => ?_
      rw [Nat.div_div_eq_div_mul, Nat.div_div_eq_div_mul, ← hpow]
      exact h (i + 1) (Nat.succ_lt_succ hi)
    rw [← Nat.div_add_mod v 16, ← Nat.div_add_mod w 16, hlast, hrest]

lemma digitChar_inj : ∀ d < 16, ∀ e < 16, Nat.digitChar d = Nat.digitChar e → d = e := by
  decide

lemma length_wordText (w : UInt32) : (wordText w).length = 8 := by
  simp [wordText]

lemma flatMap_wordText_ne_nil (w : UInt32) (ws : List UInt32) :
    (w :: ws).flatMap wordText ≠ [] := by
  intro h
  have hlength := congrArg List.length h
  rw [List.flatMap_cons, List.length_append, length_wordText, List.length_nil] at hlength
  omega

/-- A word can be read off its text. -/
lemma wordText_inj {v w : UInt32} (h : wordText v = wordText w) : v = w := by
  have hbound : ∀ u : UInt32, u.toNat < Nat.pow 16 8 := fun u => u.toNat_lt
  rw [wordText, wordText, List.reverse_inj, List.map_inj_left] at h
  refine UInt32.toNat_inj.1 (eq_of_digits (hbound v) (hbound w) fun i hi => ?_)
  exact digitChar_inj _ (Nat.mod_lt _ (by decide)) _ (Nat.mod_lt _ (by decide))
    (h i (List.mem_range.2 hi))

/-- All words have texts of one length, so they can be read off their texts put together. -/
lemma flatMap_wordText_inj {vs ws : List UInt32} (h : vs.flatMap wordText = ws.flatMap wordText) :
    vs = ws := by
  induction vs generalizing ws with
  | nil =>
    cases ws with
    | nil => rfl
    | cons w ws => exact absurd h.symm (flatMap_wordText_ne_nil w ws)
  | cons v vs ih =>
    cases ws with
    | nil => exact absurd h (flatMap_wordText_ne_nil v vs)
    | cons w ws =>
      rw [List.flatMap_cons, List.flatMap_cons] at h
      have hlength : (wordText v).length = (wordText w).length := by
        rw [length_wordText, length_wordText]
      obtain ⟨hword, hrest⟩ := List.append_inj h hlength
      rw [wordText_inj hword, ih hrest]

lemma State.words_inj {s t : State} (h : s.words = t.words) : s = t := by
  cases s
  cases t
  simpa [State.words] using h

/-- The hexadecimal text of a digest hides nothing of it. -/
lemma ofBytes_eq_iff {m n : List UInt8} : ofBytes m = ofBytes n ↔ digest m = digest n := by
  refine ⟨fun h => ?_, fun h => by rw [ofBytes, ofBytes, h]⟩
  rw [ofBytes, ofBytes, State.text, State.text, String.ofList_inj] at h
  exact State.words_inj (flatMap_wordText_inj h)

end Checksum

/-! ## Schemas -/

namespace Schema

open Json

lemma integral_toJson {s : Schema} (h : s.All Integral) : s.toJson.Integral := by
  refine integral_obj_iff.2 ?_
  rw [List.forall_mem_map]
  intro k _
  exact integral_section h k

lemma toJson_inj {a b : Schema} (h : a.toJson = b.toJson) : a = b := by
  rw [toJson, toJson, Json.obj.injEq, List.map_inj_left] at h
  refine ext_find? fun e => ?_
  have hentries : (a.definitions e.kind).entries = (b.definitions e.kind).entries := by
    simpa using h e.kind (Kind.mem_all e.kind)
  rw [find?, find?, NameMap.find?, NameMap.find?, hentries]

/-- Two schemas with integers only that have one text in some layout are one schema.  So where two
different schemas have one checksum, the bytes of their texts are different, and the digest works
them into the same eight words. -/
theorem text_determines_schema (a b : Schema) (ha : a.All Integral) (hb : b.All Integral) :
    (∀ layout, a.text layout = b.text layout → a = b) ∧
    (a ≠ b → Checksum.ofSchema a = Checksum.ofSchema b →
      (a.text .compact).toUTF8.toList ≠ (b.text .compact).toUTF8.toList ∧
      Checksum.digest (a.text .compact).toUTF8.toList =
        Checksum.digest (b.text .compact).toUTF8.toList) := by
  have htext : ∀ layout, a.text layout = b.text layout → a = b := by
    intro layout h
    exact toJson_inj (text_inj (integral_toJson ha) (integral_toJson hb) h)
  refine ⟨htext, fun hne hsum => ⟨fun hbytes => ?_, Checksum.ofBytes_eq_iff.1 hsum⟩⟩
  exact hne (htext .compact (Checksum.toUTF8_toList_inj hbytes))

/-- A number in so many arrays. -/
def nest : Nat → Json
  | 0 => .num (.int (-1))
  | n + 1 => .arr [nest n]

/-- One type, defined as a number in so many arrays. -/
def nested (n : Nat) : Schema := (∅ : Schema).insert ⟨.type, "a"⟩ (nest n)

lemma integral_nested (n : Nat) : (nested n).All Integral := by
  refine all_empty.insert ?_
  induction n with
  | zero => simp [nest, Integral, numbers, Number.Integral]
  | succ n ih => exact integral_arr_iff.2 fun v hv => List.eq_of_mem_singleton hv ▸ ih

/-- Definitions that are nested deeper than documents can be have a text of their own all the
same. -/
theorem text_determines_nested :
    (nested 300).All Integral ∧ (nested 301).All Integral ∧
    ((∀ layout, (nested 300).text layout = (nested 301).text layout → nested 300 = nested 301) ∧
    (nested 300 ≠ nested 301 → Checksum.ofSchema (nested 300) = Checksum.ofSchema (nested 301) →
      ((nested 300).text .compact).toUTF8.toList ≠ ((nested 301).text .compact).toUTF8.toList ∧
      Checksum.digest ((nested 300).text .compact).toUTF8.toList =
        Checksum.digest ((nested 301).text .compact).toUTF8.toList)) :=
  ⟨integral_nested 300, integral_nested 301,
    text_determines_schema (nested 300) (nested 301) (integral_nested 300) (integral_nested 301)⟩

end Schema
end SchemaCut
