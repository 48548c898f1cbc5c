import Mathlib.Tactic.Lemma
import Mathlib.Tactic.SplitIfs
import SchemaCut.Toml.StringReader
import SchemaCut.Toml.Writer

/-!
# Strings of settings files as they are written

Each style of strings is read back on its own, and the choice of a style makes sure that it can
hold the text.  Where a backslash starts an escape, characters are written so that each is read by
one turn of the reader.  In a string of several lines a quote stands for itself as long as the next
two characters are not quotes as well; where they are, the end of the string begins, and with it
the last quotes of the text, of which there are at most two.

* `Gives` : what a reader takes from a text, and where it stops.
* `gives_readString` : reading a written string gives its text.
-/

namespace SchemaCut
namespace Toml

variable {α β : Type} {m n : Nat}

/-! ## Values and rests -/

/-- A reader takes a value and leaves a rest. -/
def Gives (x : Option (Parsed α n)) (a : α) (rest : List Char) : Prop := ∃ h, x = some ⟨a, rest, h⟩

namespace Gives

variable {x : Option (Parsed α n)} {a : α} {rest : List Char}

/-- A change of what was read that leaves the rest alone. -/
lemma map {g : Parsed α n → Parsed β m} {f : α → β} (hx : Gives x a rest)
    (hvalue : ∀ p, (g p).value = f p.value) (hrest : ∀ p, (g p).rest = p.rest) :
    Gives (x.map g) (f a) rest := by
  obtain ⟨h, rfl⟩ := hx
  have hv := hvalue ⟨a, rest, h⟩
  have hr := hrest ⟨a, rest, h⟩
  have hshort : rest.length < m := by simpa only [hr] using (g ⟨a, rest, h⟩).shorter
  refine ⟨hshort, ?_⟩
  rw [Option.map_some]
  congr 1
  cases hg : g ⟨a, rest, h⟩ with
  | mk value rest' short =>
    rw [hg] at hv hr
    dsimp only at hv hr
    subst hv hr
    rfl

end Gives

/-! ## Characters -/

lemma isPlain_iff {c : Char} : isPlain c = true ↔ isControl c = false := by
  have htab : c = '\t' ↔ c.toNat = 9 := by
    rw [← Char.toNat_inj]
    rfl
  simp only [isPlain, isControl, Bool.or_eq_true, decide_eq_true_eq, Bool.and_eq_true,
    bne_iff_ne, Bool.or_eq_false_iff, Bool.and_eq_false_iff, decide_eq_false_iff_not,
    bne_eq_false_iff_eq, ne_eq, htab]
  omega

/-- An escape that is read as a character. -/
def Escapes (e : List Char) (c : Char) : Prop := ∀ rest, Gives (readEscape (e ++ rest)) c rest

lemma escapes_letter {c e : Char} (h : letterEscape? c = some e) : Escapes [c] e := by
  intro rest
  refine ⟨by simp, ?_⟩
  show readEscape (c :: rest) = some ⟨e, rest, _⟩
  rw [readEscape, h]
  rfl

lemma hexDigit?_upper : ∀ n < 16, Json.hexDigit? (Nat.digitChar n).toUpper = some n := by
  decide

lemma escapes_code {c : Char} (hc : c.toNat < 0x80) :
    Escapes ['u', '0', '0', (Nat.digitChar (c.toNat / 16)).toUpper,
      (Nat.digitChar (c.toNat % 16)).toUpper] c := by
  intro rest
  refine ⟨by simp; omega, ?_⟩
  have hletter : letterEscape? 'u' = none := rfl
  have hzero : Json.hexDigit? '0' = some 0 := by decide
  have hhigh := hexDigit?_upper (c.toNat / 16) (by omega)
  have hlow := hexDigit?_upper (c.toNat % 16) (by omega)
  have hvalue : 16 * (16 * (16 * (16 * 0 + 0) + 0) + c.toNat / 16) + c.toNat % 16 = c.toNat := by
    omega
  simp only [List.cons_append, List.nil_append, readEscape, hletter, if_true, bind, Option.bind,
    pure, readHexDigits, hzero, hhigh, hlow, hvalue]
  have hvalid : c.toNat.isValidChar := c.valid
  rw [if_pos hvalid, Char.ofNat_toNat]
  rfl

/-- A character other than a quote is written as an escape that stands for it, or as itself. -/
lemma escapeChar_cases (long : Bool) (c : Char) :
    (∃ e, escapeChar long c = '\\' :: e ∧ Escapes e c) ∨
      (escapeChar long c = [c] ∧ c ≠ '\\' ∧ (isPlain c = true ∨ (long = true ∧ c = '\n'))) := by
  unfold escapeChar
  split_ifs with hback htab hline hlong hfeed hreturn hslash hcontrol
  · exact .inl ⟨['b'], rfl, escapes_letter (by rw [hback]; rfl)⟩
  · exact .inl ⟨['t'], rfl, escapes_letter (by rw [htab]; rfl)⟩
  · exact .inr ⟨by rw [hline], by rw [hline]; decide, .inr ⟨hlong, hline⟩⟩
  · exact .inl ⟨['n'], rfl, escapes_letter (by rw [hline]; rfl)⟩
  · exact .inl ⟨['f'], rfl, escapes_letter (by rw [hfeed]; rfl)⟩
  · exact .inl ⟨['r'], rfl, escapes_letter (by rw [hreturn]; rfl)⟩
  · exact .inl ⟨['\\'], rfl, escapes_letter (by rw [hslash]; rfl)⟩
  · refine .inl ⟨_, rfl, escapes_code ?_⟩
    simp only [isControl, Bool.or_eq_true, Bool.and_eq_true, decide_eq_true_eq] at hcontrol
    omega
  · exact .inr ⟨rfl, hslash, .inl (isPlain_iff.2 (by simpa using hcontrol))⟩

/-! ## Strings on one line -/

section Lines

variable {n : Nat} {done s cs rest : List Char} {a : String}

lemma gives_readBasic_escape {e : List Char} {c : Char} (he : Escapes e c)
    (h : ('\\' :: (e ++ cs)).length ≤ n)
    (hgo : ∀ h', Gives (readBasic n cs h' (c :: done)) a rest) :
    Gives (readBasic n ('\\' :: (e ++ cs)) h done) a rest := by
  obtain ⟨hshort, hescape⟩ := he cs
  rw [readBasic, if_neg (by decide), if_pos rfl, hescape]
  exact hgo _

lemma gives_readBasic_plain {c : Char} (hc : c ≠ '"' ∧ c ≠ '\\' ∧ isPlain c = true)
    (h : (c :: cs).length ≤ n) (hgo : ∀ h', Gives (readBasic n cs h' (c :: done)) a rest) :
    Gives (readBasic n (c :: cs) h done) a rest := by
  rw [readBasic, if_neg hc.1, if_neg hc.2.1, if_pos hc.2.2]
  exact hgo _

/-- Every text can be written between double quotes on one line. -/
lemma gives_readBasic (s : List Char) {n : Nat} {done cs rest : List Char}
    (hcs : cs = escapeAll false 0 s ++ '"' :: rest) (h : cs.length ≤ n) :
    Gives (readBasic n cs h done) (String.ofList (done.reverse ++ s)) rest := by
  induction s generalizing done cs with
  | nil =>
    obtain rfl : cs = '"' :: rest := hcs
    rw [readBasic, if_pos rfl, List.append_nil]
    exact ⟨h, rfl⟩
  | cons c s ih =>
    have hdone : done.reverse ++ c :: s = (c :: done).reverse ++ s := by simp
    rw [hdone]
    by_cases hquote : c = '"'
    · subst hquote
      obtain rfl : cs = '\\' :: (['"'] ++ (escapeAll false 0 s ++ '"' :: rest)) := hcs
      exact gives_readBasic_escape (escapes_letter rfl) h fun h' => ih rfl h'
    · rw [escapeAll, if_neg hquote] at hcs
      rcases escapeChar_cases false c with ⟨e, hchar, he⟩ | ⟨hchar, hslash, hplain⟩
      · obtain rfl : cs = '\\' :: (e ++ (escapeAll false 0 s ++ '"' :: rest)) := by
          rw [hcs, hchar]
          simp
        exact gives_readBasic_escape he h fun h' => ih rfl h'
      · have hplain : isPlain c = true := hplain.resolve_right (by simp)
        obtain rfl : cs = c :: (escapeAll false 0 s ++ '"' :: rest) := by
          rw [hcs, hchar]
          simp
        exact gives_readBasic_plain ⟨hquote, hslash, hplain⟩ h fun h' => ih rfl h'

/-- Between single quotes every character stands for itself. -/
lemma gives_readLiteral (s : List Char) (hs : ∀ c ∈ s, c ≠ '\'' ∧ isPlain c = true)
    {n : Nat} {done rest : List Char} (h : (s ++ '\'' :: rest).length ≤ n) :
    Gives (readLiteral n (s ++ '\'' :: rest) h done) (String.ofList (done.reverse ++ s)) rest := by
  induction s generalizing done with
  | nil =>
    show Gives (readLiteral n ('\'' :: rest) h done) _ rest
    rw [readLiteral, if_pos rfl, List.append_nil]
    exact ⟨h, rfl⟩
  | cons c s ih =>
    obtain ⟨hquote, hplain⟩ := hs c List.mem_cons_self
    have hdone : done.reverse ++ c :: s = (c :: done).reverse ++ s := by simp
    show Gives (readLiteral n (c :: (s ++ '\'' :: rest)) h done) _ rest
    rw [readLiteral, if_neg hquote, if_pos hplain, hdone]
    exact ih (fun d hd => hs d (List.mem_cons_of_mem c hd)) _

end Lines

/-! ## Strings of several lines -/

section LongStrings

variable {quote : Char} {n : Nat} {done s cs rest : List Char} {a : String}

/-- The quotes that end a string of several lines, with up to two quotes of the text before them. -/
lemma gives_readClosing {k : Nat} (hk : k ≤ 2) (hrest : rest.head? ≠ some quote) :
    Gives (readClosing quote (List.replicate k quote ++ (quote :: quote :: quote :: rest)))
      k rest := by
  have hcases : k = 0 ∨ k = 1 ∨ k = 2 := by omega
  rcases hcases with rfl | rfl | rfl
  · show Gives (readClosing quote (quote :: quote :: quote :: rest)) 0 rest
    refine ⟨by simp; omega, ?_⟩
    match rest with
    | [] => simp only [readClosing, and_self, if_true]; rfl
    | [d] =>
      have hd : d ≠ quote := by simpa using hrest
      simp only [readClosing, and_self, if_true, if_neg hd]
      rfl
    | d :: e :: rest =>
      have hd : d ≠ quote := by simpa using hrest
      simp only [readClosing, and_self, if_true, hd, false_and, if_false]
      rfl
  · show Gives (readClosing quote (quote :: quote :: quote :: quote :: rest)) 1 rest
    refine ⟨by simp; omega, ?_⟩
    match rest with
    | [] => simp only [readClosing, and_self, if_true]; rfl
    | d :: rest =>
      have hd : d ≠ quote := by simpa using hrest
      simp only [readClosing, and_self, if_true, hd, and_false, if_false]
      rfl
  · show Gives (readClosing quote (quote :: quote :: quote :: quote :: quote :: rest)) 2 rest
    refine ⟨by simp; omega, ?_⟩
    simp only [readClosing, and_self, if_true, hrest, if_false]
    rfl

/-- A quote with two quotes behind it starts the end. -/
lemma gives_readLines_closing {k : Nat} (hk : k ≤ 2) (hrest : rest.head? ≠ some quote)
    (hcs : cs = List.replicate k quote ++ (quote :: quote :: quote :: rest)) (h : cs.length ≤ n) :
    Gives (readLines quote n cs h done)
      (String.ofList (done.reverse ++ List.replicate k quote)) rest := by
  obtain ⟨tail, rfl, htail⟩ : ∃ tail, cs = quote :: tail ∧ tail.take 2 = [quote, quote] := by
    have hcases : k = 0 ∨ k = 1 ∨ k = 2 := by omega
    rcases hcases with rfl | rfl | rfl
    · exact ⟨_, hcs, rfl⟩
    · exact ⟨_, hcs, rfl⟩
    · exact ⟨_, hcs, rfl⟩
  have hgives : Gives (readClosing quote (quote :: tail)) k rest :=
    hcs ▸ gives_readClosing hk hrest
  obtain ⟨hshort, hclosing⟩ := hgives
  rw [readLines, if_pos ⟨rfl, htail⟩, hclosing]
  refine ⟨Nat.lt_of_lt_of_le hshort h, ?_⟩
  simp [Parsed.map, Parsed.widen]

lemma gives_readLines_plain {c : Char} (hopen : ¬(c = quote ∧ cs.take 2 = [quote, quote]))
    (hslash : ¬(c = '\\' ∧ quote = '"')) (hc : isPlain c = true) (h : (c :: cs).length ≤ n)
    (hgo : ∀ h', Gives (readLines quote n cs h' (c :: done)) a rest) :
    Gives (readLines quote n (c :: cs) h done) a rest := by
  rw [readLines, if_neg hopen, if_neg hslash, if_pos hc]
  exact hgo _

lemma gives_readLines_break (hquote : quote ≠ '\n') (h : ('\n' :: cs).length ≤ n)
    (hgo : ∀ h', Gives (readLines quote n cs h' ('\n' :: done)) a rest) :
    Gives (readLines quote n ('\n' :: cs) h done) a rest := by
  have hbreak : readBreak ('\n' :: cs) = some (.ofRest () (Rest.all cs)) := rfl
  have hopen : ¬('\n' = quote ∧ cs.take 2 = [quote, quote]) := fun hq => hquote hq.1.symm
  rw [readLines, if_neg hopen, if_neg (fun hs => absurd hs.1 (by decide)), if_neg (by decide),
    hbreak]
  exact hgo _

lemma gives_readLines_escape {e : List Char} {c : Char} (he : Escapes e c)
    (h : ('\\' :: (e ++ cs)).length ≤ n)
    (hgo : ∀ h', Gives (readLines '"' n cs h' (c :: done)) a rest) :
    Gives (readLines '"' n ('\\' :: (e ++ cs)) h done) a rest := by
  obtain ⟨hshort, hescape⟩ := he cs
  have hopen : ¬('\\' = '"' ∧ (e ++ cs).take 2 = ['"', '"']) := fun hq => absurd hq.1 (by decide)
  rw [readLines, if_neg hopen, if_pos ⟨rfl, rfl⟩, hescape]
  exact hgo _

/-- The first character that is written for a text starts an escape, or it is that of the text: a
quote that may stand for itself, or a character that needs no escape. -/
lemma exists_escapeAll_eq_cons (long : Bool) (run : Nat) (c : Char) (s tail : List Char) :
    ∃ e es, escapeAll long run (c :: s) ++ tail = e :: es ∧
      (e = '\\' ∨ e = c ∧ (c = '"' ∧ long = true ∧ run < 2 ∨
        c ≠ '"' ∧ (isPlain c = true ∨ long = true ∧ c = '\n'))) := by
  by_cases hquote : c = '"'
  · rw [escapeAll, if_pos hquote]
    by_cases hrun : (long && decide (run < 2)) = true
    · rw [if_pos hrun]
      rw [Bool.and_eq_true, decide_eq_true_eq] at hrun
      exact ⟨'"', _, rfl, .inr ⟨hquote.symm, .inl ⟨hquote, hrun⟩⟩⟩
    · rw [if_neg hrun]
      exact ⟨'\\', _, rfl, .inl rfl⟩
  · rw [escapeAll, if_neg hquote]
    rcases escapeChar_cases long c with ⟨e, hchar, -⟩ | ⟨hchar, -, hplain⟩
    · rw [hchar]
      exact ⟨'\\', _, rfl, .inl rfl⟩
    · rw [hchar]
      exact ⟨c, _, rfl, .inr ⟨rfl, .inr ⟨hquote, hplain⟩⟩⟩

/-- Behind two quotes that stand for themselves no third one does. -/
lemma exists_escapeAll_ne_quote {run : Nat} {d : Char} (h : d = '"' → 2 ≤ run)
    (ds tail : List Char) : ∃ e es, escapeAll true run (d :: ds) ++ tail = e :: es ∧ e ≠ '"' := by
  obtain ⟨e, es, htext, hslash | ⟨hself, ⟨hquote, -, hrun⟩ | ⟨hquote, -⟩⟩⟩ :=
    exists_escapeAll_eq_cons true run d ds tail
  · exact ⟨e, es, htext, by rw [hslash]; decide⟩
  · exact absurd hrun (Nat.not_lt.2 (h hquote))
  · exact ⟨e, es, htext, hself ▸ hquote⟩

/-- Behind a quote that stands for itself, two more stand only at the end of the text. -/
lemma take_escapeAll_ne {run : Nat} {d : Char} {ds : List Char} (hrun : 0 < run)
    (hlast : ¬(d = '"' ∧ run < 2 ∧ ds = [])) (tail : List Char) :
    (escapeAll true run (d :: ds) ++ tail).take 2 ≠ ['"', '"'] := by
  intro hopen
  by_cases hself : d = '"' ∧ run < 2
  · obtain ⟨rfl, hsmall⟩ := hself
    rw [escapeAll, if_pos rfl, if_pos (by simpa using hsmall)] at hopen
    cases ds with
    | nil => exact hlast ⟨rfl, hsmall, rfl⟩
    | cons x xs =>
      have hthird : x = '"' → 2 ≤ run + 1 := fun _ => by omega
      obtain ⟨e, es, hhead, he⟩ := exists_escapeAll_ne_quote hthird xs tail
      rw [List.cons_append, hhead] at hopen
      simp only [List.take_succ_cons, List.take_zero, List.cons.injEq, and_true, true_and] at hopen
      exact he hopen
  · have hsecond : d = '"' → 2 ≤ run := fun hd => Nat.not_lt.1 fun hsmall => hself ⟨hd, hsmall⟩
    obtain ⟨e, es, hhead, he⟩ := exists_escapeAll_ne_quote hsecond ds tail
    rw [hhead] at hopen
    simp only [List.take_succ_cons, List.cons.injEq] at hopen
    exact he hopen.1

/-- Every text can be written between three double quotes. -/
lemma gives_readLines_basic (s : List Char) {run : Nat} (hrest : rest.head? ≠ some '"')
    {n : Nat} {done cs : List Char}
    (hcs : cs = escapeAll true run s ++ ('"' :: '"' :: '"' :: rest)) (h : cs.length ≤ n) :
    Gives (readLines '"' n cs h done) (String.ofList (done.reverse ++ s)) rest := by
  induction s generalizing done cs run with
  | nil => exact gives_readLines_closing (Nat.zero_le 2) hrest hcs h
  | cons c s ih =>
    have hdone : done.reverse ++ c :: s = (c :: done).reverse ++ s := by simp
    by_cases hquote : c = '"'
    · subst hquote
      by_cases hrun : run < 2
      · rw [escapeAll, if_pos rfl, if_pos (by simpa using hrun)] at hcs
        -- one or two quotes at the end of the text belong to the closing quotes
        match s with
        | [] => exact gives_readLines_closing (Nat.le_succ 1) hrest hcs h
        | d :: ds =>
          by_cases hlast : d = '"' ∧ run + 1 < 2 ∧ ds = []
          · obtain ⟨rfl, hfirst, rfl⟩ := hlast
            rw [escapeAll, if_pos rfl, if_pos (by simpa using hfirst)] at hcs
            exact gives_readLines_closing (Nat.le_refl 2) hrest hcs h
          · obtain rfl : cs = '"' :: (escapeAll true (run + 1) (d :: ds) ++
              '"' :: '"' :: '"' :: rest) := hcs
            rw [hdone]
            refine gives_readLines_plain (fun hopen => ?_) (fun hs => absurd hs.1 (by decide)) rfl h
              fun h' => ih rfl h'
            exact take_escapeAll_ne (Nat.succ_pos run) hlast _ hopen.2
      · rw [escapeAll, if_pos rfl, if_neg (by simpa using hrun)] at hcs
        obtain rfl :
            cs = '\\' :: (['"'] ++ (escapeAll true 0 s ++ '"' :: '"' :: '"' :: rest)) := hcs
        rw [hdone]
        exact gives_readLines_escape (escapes_letter rfl) h fun h' => ih rfl h'
    · rw [escapeAll, if_neg hquote] at hcs
      rw [hdone]
      rcases escapeChar_cases true c with ⟨e, hchar, he⟩ | ⟨hchar, hslash, hplain⟩
      · obtain rfl : cs = '\\' :: (e ++ (escapeAll true 0 s ++ '"' :: '"' :: '"' :: rest)) := by
          rw [hcs, hchar]
          simp
        exact gives_readLines_escape he h fun h' => ih rfl h'
      · obtain rfl : cs = c :: (escapeAll true 0 s ++ '"' :: '"' :: '"' :: rest) := by
          rw [hcs, hchar]
          simp
        rcases hplain with hplain | ⟨-, rfl⟩
        · exact gives_readLines_plain (fun hopen => hquote hopen.1) (fun hs => hslash hs.1) hplain h
            fun h' => ih rfl h'
        · exact gives_readLines_break (by decide) h fun h' => ih rfl h'

lemma hasTriple_tail {c : Char} {s : List Char} (h : hasTriple quote (c :: s) = false) :
    hasTriple quote s = false := by
  match s with
  | [] => rfl
  | [d] => rfl
  | d :: e :: s =>
    rw [hasTriple, Bool.or_eq_false_iff] at h
    exact h.2

/-- A text without three single quotes in a row can be written between three of them. -/
lemma gives_readLines_literal (s : List Char)
    (hs : ∀ c ∈ s, isPlain c = true ∨ c = '\n') (htriple : hasTriple '\'' s = false)
    (hrest : rest.head? ≠ some '\'') {n : Nat} {done cs : List Char}
    (hcs : cs = s ++ ('\'' :: '\'' :: '\'' :: rest)) (h : cs.length ≤ n) :
    Gives (readLines '\'' n cs h done) (String.ofList (done.reverse ++ s)) rest := by
  induction s generalizing done cs with
  | nil => exact gives_readLines_closing (Nat.zero_le 2) hrest hcs h
  | cons c s ih =>
    have hdone : done.reverse ++ c :: s = (c :: done).reverse ++ s := by simp
    by_cases hopen : c = '\'' ∧ (s ++ ('\'' :: '\'' :: '\'' :: rest)).take 2 = ['\'', '\'']
    · obtain ⟨rfl, htake⟩ := hopen
      match s with
      | [] => exact gives_readLines_closing (Nat.le_succ 1) hrest hcs h
      | [d] =>
        obtain rfl : d = '\'' := by simpa using htake
        exact gives_readLines_closing (Nat.le_refl 2) hrest hcs h
      | d :: e :: s =>
        obtain ⟨rfl, rfl⟩ : d = '\'' ∧ e = '\'' := by simpa using htake
        exact absurd htriple (by simp [hasTriple])
    · obtain rfl : cs = c :: (s ++ '\'' :: '\'' :: '\'' :: rest) := hcs
      have hgo : ∀ h', Gives (readLines '\'' n (s ++ '\'' :: '\'' :: '\'' :: rest) h' (c :: done))
          (String.ofList ((c :: done).reverse ++ s)) rest :=
        fun h' => ih (fun d hd => hs d (List.mem_cons_of_mem c hd)) (hasTriple_tail htriple) rfl h'
      rw [hdone]
      rcases hs c List.mem_cons_self with hplain | rfl
      · exact gives_readLines_plain hopen (fun hs => absurd hs.2 (by decide)) hplain h hgo
      · exact gives_readLines_break (by decide) h hgo

/-- A line break behind the opening quotes does not count. -/
lemma gives_readLong_break (hgo : ∀ h, Gives (readLines quote ('\n' :: cs).length cs h []) a rest) :
    Gives (readLong quote ('\n' :: cs)) a rest := hgo _

lemma gives_readLong (hbreak : readBreak cs = none)
    (hgo : ∀ h, Gives (readLines quote cs.length cs h []) a rest) :
    Gives (readLong quote cs) a rest := by
  rw [readLong, hbreak]
  exact hgo _

end LongStrings

/-! ## Styles -/

lemma isPlain_of_styleOf_literal {cs : List Char} (h : styleOf cs = .literal) :
    ∀ c ∈ cs, c ≠ '\'' ∧ isPlain c = true := by
  unfold styleOf at h
  dsimp only at h
  split_ifs at h with hbasic hliteral
  simp only [Bool.and_eq_true, Bool.not_eq_true', List.any_eq_false, decide_eq_true_eq,
    Bool.not_eq_true] at hliteral
  intro c hc
  exact ⟨hliteral.2 c hc, isPlain_iff.2 (hliteral.1 c hc)⟩

lemma isPlain_of_styleOf_longLiteral {cs : List Char} (h : styleOf cs = .longLiteral) :
    (∀ c ∈ cs, isPlain c = true ∨ c = '\n') ∧ hasTriple '\'' cs = false := by
  unfold styleOf at h
  dsimp only at h
  split_ifs at h with hbasic hliteral hlong hlongLiteral
  simp only [Bool.and_eq_true, Bool.not_eq_true', List.any_eq_false, bne_iff_ne, ne_eq,
    not_and, Decidable.not_not] at hlongLiteral
  refine ⟨fun c hc => ?_, hlongLiteral.2⟩
  by_cases hcontrol : isControl c = true
  · exact .inr (hlongLiteral.1 c hc hcontrol)
  · exact .inl (isPlain_iff.2 (by simpa using hcontrol))

/-! ## Reading what is written -/

variable {rest : List Char}

/-- Fewer than three quotes start a string on one line. -/
lemma readString_of_ne {cs : List Char} (h : ∀ q ds, cs ≠ q :: q :: q :: ds) :
    readString cs = readLineString cs := by
  unfold readString
  split
  · exact absurd rfl (h _ _)
  · exact absurd rfl (h _ _)
  · rfl

/-- What is written between two double quotes does not start with one. -/
lemma escapeAll_ne {s tail : List Char} (hs : s ≠ []) (ds : List Char) :
    escapeAll false 0 s ++ tail ≠ '"' :: ds := by
  obtain ⟨c, s, rfl⟩ := List.exists_cons_of_ne_nil hs
  obtain ⟨e, es, htext, hslash | ⟨hself, ⟨-, hlong, -⟩ | ⟨hquote, -⟩⟩⟩ :=
    exists_escapeAll_eq_cons false 0 c s tail
  · rw [htext, hslash]
    exact fun heq => absurd (List.cons.inj heq).1 (by decide)
  · cases hlong
  · rw [htext, hself]
    exact fun heq => hquote (List.cons.inj heq).1

lemma gives_readString_basic (s : List Char) (hrest : rest.head? ≠ some '"') :
    Gives (readString ('"' :: (escapeAll false 0 s ++ '"' :: rest))) (String.ofList s) rest := by
  have hline : ∀ q ds, '"' :: (escapeAll false 0 s ++ '"' :: rest) ≠ q :: q :: q :: ds := by
    intro q ds heq
    obtain ⟨rfl, htail⟩ := List.cons.inj heq
    by_cases hs : s = []
    · subst hs
      have hmore : rest = '"' :: ds := (List.cons.inj htail).2
      exact hrest (by rw [hmore]; rfl)
    · exact escapeAll_ne hs _ htail
  rw [readString_of_ne hline]
  have hbasic : Gives (readBasic _ (escapeAll false 0 s ++ '"' :: rest) (length_le_self _) [])
      (String.ofList s) rest := gives_readBasic s rfl _
  exact hbasic.map (f := id) (fun _ => rfl) (fun _ => rfl)

lemma gives_readString_literal (s : List Char) (hs : ∀ c ∈ s, c ≠ '\'' ∧ isPlain c = true)
    (hrest : rest.head? ≠ some '\'') :
    Gives (readString ('\'' :: (s ++ '\'' :: rest))) (String.ofList s) rest := by
  have hline : ∀ q ds, '\'' :: (s ++ '\'' :: rest) ≠ q :: q :: q :: ds := by
    intro q ds heq
    obtain ⟨rfl, htail⟩ := List.cons.inj heq
    cases s with
    | nil =>
      have hmore : rest = '\'' :: ds := (List.cons.inj htail).2
      exact hrest (by rw [hmore]; rfl)
    | cons c s => exact (hs c List.mem_cons_self).1 (List.cons.inj htail).1
  rw [readString_of_ne hline]
  have hliteral : Gives (readLiteral _ (s ++ '\'' :: rest) (length_le_self _) [])
      (String.ofList s) rest := gives_readLiteral s hs _
  exact hliteral.map (f := id) (fun _ => rfl) (fun _ => rfl)

/-- The line break behind the opening quotes is there if the text has one itself. -/
lemma gives_readLong_opening {quote : Char} {s cs : List Char} {a : String}
    (hgo : ∀ n h, Gives (readLines quote n cs h []) a rest)
    (hnoBreak : '\n' ∉ s → readBreak cs = none) :
    Gives (readLong quote ((if s.any (· = '\n') then ['\n'] else []) ++ cs)) a rest := by
  by_cases hbreak : s.any (· = '\n') = true
  · rw [if_pos hbreak]
    exact gives_readLong_break (hgo _)
  · rw [if_neg hbreak]
    refine gives_readLong (hnoBreak fun hmem => hbreak ?_) (hgo _)
    exact List.any_eq_true.2 ⟨'\n', hmem, by simp⟩

/-- What is written between three double quotes starts with a line break only if the text does. -/
lemma exists_escapeAll_ne_break {s : List Char} (h : '\n' ∉ s) (tail : List Char) :
    ∃ e es, escapeAll true 0 s ++ '"' :: tail = e :: es ∧ e ≠ '\n' ∧ e ≠ '\r' := by
  cases s with
  | nil => exact ⟨'"', tail, rfl, by decide, by decide⟩
  | cons c s =>
    obtain ⟨e, es, htext, rfl | ⟨rfl, ⟨rfl, -⟩ | ⟨-, hplain | ⟨-, hline⟩⟩⟩⟩ :=
      exists_escapeAll_eq_cons true 0 c s ('"' :: tail)
    · exact ⟨'\\', es, htext, by decide, by decide⟩
    · exact ⟨'"', es, htext, by decide, by decide⟩
    · refine ⟨e, es, htext, ?_, ?_⟩
      · rintro rfl
        exact absurd hplain (by decide)
      · rintro rfl
        exact absurd hplain (by decide)
    · exact absurd (hline ▸ List.mem_cons_self) h

lemma readBreak_eq_none {cs : List Char} (hline : ∀ ds, cs ≠ '\n' :: ds)
    (hreturn : ∀ ds, cs ≠ '\r' :: ds) : readBreak cs = none := by
  unfold readBreak
  split
  · exact absurd rfl (hline _)
  · exact absurd rfl (hreturn _)
  · rfl

lemma gives_readString_longBasic (s : List Char) (hrest : rest.head? ≠ some '"') :
    Gives (readString ('"' :: '"' :: '"' :: ((if s.any (· = '\n') then ['\n'] else []) ++
      (escapeAll true 0 s ++ '"' :: '"' :: '"' :: rest)))) (String.ofList s) rest := by
  have hlines : ∀ n h,
      Gives (readLines '"' n (escapeAll true 0 s ++ '"' :: '"' :: '"' :: rest) h [])
        (String.ofList s) rest := fun n h => gives_readLines_basic s hrest rfl h
  have hbreak : '\n' ∉ s →
      readBreak (escapeAll true 0 s ++ '"' :: '"' :: '"' :: rest) = none := by
    intro hnoBreak
    obtain ⟨c, cs, htext, hline, hreturn⟩ := exists_escapeAll_ne_break hnoBreak
      ('"' :: '"' :: rest)
    rw [htext]
    exact readBreak_eq_none (fun ds heq => hline (List.cons.inj heq).1)
      fun ds heq => hreturn (List.cons.inj heq).1
  exact (gives_readLong_opening hlines hbreak).map (f := id) (fun _ => rfl) (fun _ => rfl)

lemma gives_readString_longLiteral (s : List Char) (hs : ∀ c ∈ s, isPlain c = true ∨ c = '\n')
    (htriple : hasTriple '\'' s = false) (hrest : rest.head? ≠ some '\'') :
    Gives (readString ('\'' :: '\'' :: '\'' :: ((if s.any (· = '\n') then ['\n'] else []) ++
      (s ++ '\'' :: '\'' :: '\'' :: rest)))) (String.ofList s) rest := by
  have hlines : ∀ n h, Gives (readLines '\'' n (s ++ '\'' :: '\'' :: '\'' :: rest) h [])
      (String.ofList s) rest := fun n h => gives_readLines_literal s hs htriple hrest rfl h
  have hbreak : '\n' ∉ s → readBreak (s ++ '\'' :: '\'' :: '\'' :: rest) = none := by
    intro hnoBreak
    cases s with
    | nil => rfl
    | cons c s =>
      have hplain : isPlain c = true := (hs c List.mem_cons_self).resolve_right
        fun hc => hnoBreak (hc ▸ List.mem_cons_self)
      refine readBreak_eq_none (fun ds heq => ?_) (fun ds heq => ?_)
      · rw [(List.cons.inj heq).1] at hplain
        exact absurd hplain (by decide)
      · rw [(List.cons.inj heq).1] at hplain
        exact absurd hplain (by decide)
  exact (gives_readLong_opening hlines hbreak).map (f := id) (fun _ => rfl) (fun _ => rfl)

/-- A written string is read back, in whichever style it is written. -/
theorem gives_readString (s : String) (hbasic : rest.head? ≠ some '"')
    (hliteral : rest.head? ≠ some '\'') : Gives (readString (stringText s ++ rest)) s rest := by
  have hself : String.ofList s.toList = s := String.ofList_toList
  cases hstyle : styleOf s.toList with
  | basic =>
    have htext : stringText s ++ rest = '"' :: (escapeAll false 0 s.toList ++ '"' :: rest) := by
      simp [stringText, hstyle]
    have hread := gives_readString_basic s.toList hbasic
    rw [hself] at hread
    rw [htext]
    exact hread
  | literal =>
    have htext : stringText s ++ rest = '\'' :: (s.toList ++ '\'' :: rest) := by
      simp [stringText, hstyle]
    have hread := gives_readString_literal s.toList (isPlain_of_styleOf_literal hstyle) hliteral
    rw [hself] at hread
    rw [htext]
    exact hread
  | longBasic =>
    have htext : stringText s ++ rest = '"' :: '"' :: '"' ::
        ((if s.toList.any (· = '\n') then ['\n'] else []) ++
          (escapeAll true 0 s.toList ++ '"' :: '"' :: '"' :: rest)) := by
      simp [stringText, hstyle]
    have hread := gives_readString_longBasic s.toList hbasic
    rw [hself] at hread
    rw [htext]
    exact hread
  | longLiteral =>
    have htext : stringText s ++ rest = '\'' :: '\'' :: '\'' ::
        ((if s.toList.any (· = '\n') then ['\n'] else []) ++
          (s.toList ++ '\'' :: '\'' :: '\'' :: rest)) := by
      simp [stringText, hstyle]
    obtain ⟨hplain, htriple⟩ := isPlain_of_styleOf_longLiteral hstyle
    have hread := gives_readString_longLiteral s.toList hplain htriple hliteral
    rw [hself] at hread
    rw [htext]
    exact hread

/-- A string starts with a quote. -/
lemma exists_stringText_eq_cons (s : String) :
    ∃ q cs, stringText s = q :: cs ∧ (q = '"' ∨ q = '\'') := by
  unfold stringText
  dsimp only
  cases styleOf s.toList with
  | basic => exact ⟨'"', _, rfl, .inl rfl⟩
  | literal => exact ⟨'\'', _, rfl, .inr rfl⟩
  | longBasic => exact ⟨'"', _, rfl, .inl rfl⟩
  | longLiteral => exact ⟨'\'', _, rfl, .inr rfl⟩

end Toml
end SchemaCut
