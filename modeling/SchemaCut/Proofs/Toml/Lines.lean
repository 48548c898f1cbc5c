import Mathlib.Tactic.Lemma
import SchemaCut.Config
import SchemaCut.Proofs.Toml.Values

/-!
# Lines of settings files as they are written

A written settings file has a header in brackets for each group, and below it a line for each of
its settings: a bare key, an equals sign and a value.  Reading such a line opens the table of the
header, or adds the key to the table that is open.

* `gives_readKey` : reading a bare key.
* `readRest_header`, `readRest_pair` : reading a line and going on with the next.
* `ofText?_settingsText` : what is written for a configuration is read as two tables.
-/

namespace SchemaCut
namespace Toml

variable {rest : List Char}

/-! ## Keys -/

/-- A key without quotes. -/
structure IsBareKey (name : List Char) : Prop where
  nonempty : name ≠ []
  bare : ∀ c ∈ name, isBare c = true

/-- What may stand behind a key, and its white space: a character that does not prolong it. -/
def EndsKey (c : Char) : Prop := isBare c = false ∧ isGap c = false ∧ c ≠ '.'

lemma skipGap_append {gap : List Char} (hgap : ∀ c ∈ gap, isGap c = true) {c : Char}
    (hc : isGap c = false) (cs : List Char) : ∃ h, skipGap (gap ++ c :: cs) = ⟨c :: cs, h⟩ := by
  have hdrop : (gap ++ c :: cs).dropWhile isGap = c :: cs := by
    rw [List.dropWhile_append_of_pos hgap, List.dropWhile_cons_of_neg (by simp [hc])]
  exact ⟨by simp, Subtype.ext hdrop⟩

lemma isGap_of_isBare {c : Char} (hc : isBare c = true) : isGap c = false := by
  refine Bool.eq_false_iff.2 fun hgap => ?_
  simp only [isGap, Bool.or_eq_true, decide_eq_true_eq] at hgap
  rcases hgap with rfl | rfl
  · exact absurd hc (by decide)
  · exact absurd hc (by decide)

/-- A key goes on to the first character that is not bare. -/
lemma span_bareKey {name gap : List Char} (hname : ∀ c ∈ name, isBare c = true)
    (hgap : ∀ c ∈ gap, isGap c = true) {c : Char} (hc : EndsKey c) (cs : List Char) :
    (name ++ (gap ++ c :: cs)).takeWhile isBare = name ∧
      (name ++ (gap ++ c :: cs)).dropWhile isBare = gap ++ c :: cs := by
  rw [List.takeWhile_append_of_pos hname, List.dropWhile_append_of_pos hname]
  cases gap with
  | nil => simp [hc.1]
  | cons g gap =>
    have hg : isBare g = false := by
      refine Bool.eq_false_iff.2 fun hbare => ?_
      have hno := isGap_of_isBare hbare
      rw [hgap g List.mem_cons_self] at hno
      cases hno
    simp [hg]

lemma gives_readSimpleKey {name gap : List Char} (hname : IsBareKey name)
    (hgap : ∀ c ∈ gap, isGap c = true) {c : Char} (hc : EndsKey c) (cs : List Char) :
    Gives (readSimpleKey (name ++ (gap ++ c :: cs))) (String.ofList name) (gap ++ c :: cs) := by
  obtain ⟨hnonempty, hbare⟩ := hname
  cases name with
  | nil => exact absurd rfl hnonempty
  | cons n name =>
    have hn := hbare n List.mem_cons_self
    have hquote : ¬(n = '"' ∨ n = '\'') := by
      rintro (rfl | rfl)
      · exact absurd hn (by decide)
      · exact absurd hn (by decide)
    have hmore : ∀ d ∈ name, isBare d = true := fun d hd => hbare d (List.mem_cons_of_mem n hd)
    obtain ⟨htake, hdrop⟩ := span_bareKey hmore hgap hc cs
    have hlength : (gap ++ c :: cs).length < (n :: name ++ (gap ++ c :: cs)).length := by
      simp only [List.length_append, List.length_cons]
      omega
    refine ⟨hlength, ?_⟩
    show readSimpleKey (n :: (name ++ (gap ++ c :: cs))) = _
    have hskip : skipWhile isBare (name ++ (gap ++ c :: cs)) = ⟨gap ++ c :: cs, by simp⟩ :=
      Subtype.ext hdrop
    rw [readSimpleKey, if_neg hquote, if_pos hn, htake, hskip]
    rfl

lemma readDotted_of_endsKey {gap : List Char} (hgap : ∀ c ∈ gap, isGap c = true) {c : Char}
    (hc : EndsKey c) (cs : List Char) :
    ∃ h, readDotted (gap ++ c :: cs) = some ([], ⟨c :: cs, h⟩) := by
  obtain ⟨hle, hskip⟩ := skipGap_append hgap hc.2.1 cs
  refine ⟨hle, ?_⟩
  rw [readDotted, hskip]
  dsimp only
  rw [if_neg hc.2.2]

/-- A bare key is read, with the white space behind it. -/
lemma gives_readKey {name gap : List Char} (hname : IsBareKey name)
    (hgap : ∀ c ∈ gap, isGap c = true) {c : Char} (hc : EndsKey c) (cs : List Char) :
    Gives (readKey (name ++ (gap ++ c :: cs))) ([], String.ofList name) (c :: cs) := by
  obtain ⟨hshort, hsimple⟩ := gives_readSimpleKey hname hgap hc cs
  obtain ⟨hle, hdotted⟩ := readDotted_of_endsKey hgap hc cs
  have hstart : skipGap (name ++ (gap ++ c :: cs)) = ⟨name ++ (gap ++ c :: cs), Nat.le_refl _⟩ := by
    obtain ⟨hnonempty, hbare⟩ := hname
    cases name with
    | nil => exact absurd rfl hnonempty
    | cons n name =>
      have hn : isGap n = false := isGap_of_isBare (hbare n List.mem_cons_self)
      exact Subtype.ext (List.dropWhile_cons_of_neg (by simp [hn]))
  refine ⟨Nat.lt_of_le_of_lt hle hshort, ?_⟩
  unfold readKey
  rw [hstart]
  dsimp only
  rw [hsimple, Option.bind_eq_bind, Option.bind_some, hdotted, Option.bind_eq_bind,
    Option.bind_some]
  dsimp only
  rw [if_neg (by simp [maxParts])]
  rfl

/-! ## Lines -/

lemma endLine?_break (rest : List Char) : ∃ h, endLine? ('\n' :: rest) = some ⟨rest, h⟩ :=
  ⟨Nat.le_succ _, rfl⟩

lemma gives_readChar (c : Char) (cs : List Char) : Gives (readChar c (c :: cs)) () cs :=
  ⟨Nat.lt_succ_self _, by rw [readChar, if_pos rfl]; rfl⟩

/-- A bare key, an equals sign between spaces, and a value. -/
lemma gives_readPair {read : Reader Toml} {name text : List Char} (hname : IsBareKey name)
    {v : Toml} {c : Char} {cs : List Char} (htext : text = c :: cs) (hc : isGap c = false)
    (hread : Gives (read text) v rest) :
    Gives (readPair read (name ++ ([' '] ++ '=' :: ' ' :: text))) (([], String.ofList name), v)
      rest := by
  subst htext
  have hgap : ∀ c ∈ [' '], isGap c = true := List.all_eq_true.1 rfl
  have hequals : EndsKey '=' := ⟨rfl, rfl, by decide⟩
  obtain ⟨hkey, hreadKey⟩ := gives_readKey hname hgap hequals (' ' :: c :: cs)
  obtain ⟨hsign, hreadSign⟩ := gives_readChar '=' (' ' :: c :: cs)
  obtain ⟨hstart, hskip⟩ := skipGap_append hgap hc cs
  obtain ⟨hvalue, hreadValue⟩ := hread
  have hskip : skipGap (' ' :: c :: cs) = ⟨c :: cs, hstart⟩ := hskip
  refine ⟨Nat.lt_trans (Nat.lt_trans (Nat.lt_of_lt_of_le hvalue hstart) hsign) hkey, ?_⟩
  unfold readPair
  rw [hreadKey, Option.bind_eq_bind, Option.bind_some, hreadSign, Option.bind_eq_bind,
    Option.bind_some, hskip]
  dsimp only
  rw [hreadValue]
  rfl

variable {d d' : Draft}

/-- A line with a key and its value adds the key to the open table. -/
lemma gives_readLine_pair {name text : List Char} (hname : IsBareKey name) {v : Toml} {c : Char}
    {cs : List Char} (htext : text = c :: cs) (hc : isGap c = false)
    (hread : Gives (readValue maxDepth text) v ('\n' :: rest))
    (hadd : d.addKey? [] (String.ofList name) v = some d') :
    Gives (readLine d (name ++ ([' '] ++ '=' :: ' ' :: text))) d' rest := by
  have hpairs := gives_readPair hname htext hc hread
  obtain ⟨hle, hend⟩ := endLine?_break rest
  cases name with
  | nil => exact absurd rfl hname.nonempty
  | cons n name =>
    have hbracket : n ≠ '[' := by
      rintro rfl
      exact absurd (hname.bare '[' List.mem_cons_self) (by decide)
    rw [List.cons_append] at hpairs ⊢
    obtain ⟨hpair, hreadPair⟩ := hpairs
    refine ⟨Nat.lt_of_le_of_lt hle hpair, ?_⟩
    rw [readLine, if_neg hbracket, hreadPair, Option.bind_eq_bind, Option.bind_some, hend,
      Option.bind_eq_bind, Option.bind_some]
    dsimp only
    rw [hadd]
    rfl

/-- A line with a header opens its table. -/
lemma gives_readLine_header {name : List Char} (hname : IsBareKey name)
    (hopen : d.open? false [] (String.ofList name) = some d') :
    Gives (readLine d ('[' :: (name ++ ([] ++ ']' :: '\n' :: rest)))) d' rest := by
  have hgap : ∀ c ∈ ([] : List Char), isGap c = true := by simp
  have hclose : EndsKey ']' := ⟨rfl, rfl, by decide⟩
  have hkeys := gives_readKey hname hgap hclose ('\n' :: rest)
  obtain ⟨hsign, hreadSign⟩ := gives_readChar ']' ('\n' :: rest)
  obtain ⟨hle, hend⟩ := endLine?_break rest
  have hheader : Gives (readHeader (name ++ ([] ++ ']' :: '\n' :: rest)))
      (false, [], String.ofList name) ('\n' :: rest) := by
    cases name with
    | nil => exact absurd rfl hname.nonempty
    | cons n name =>
      have hbracket : n ≠ '[' := by
        rintro rfl
        exact absurd (hname.bare '[' List.mem_cons_self) (by decide)
      rw [List.cons_append] at hkeys ⊢
      obtain ⟨hkey, hreadKey⟩ := hkeys
      refine ⟨Nat.lt_trans hsign hkey, ?_⟩
      rw [readHeader, if_neg hbracket, hreadKey, Option.bind_eq_bind, Option.bind_some, hreadSign]
      rfl
  obtain ⟨hshort, hreadHeader⟩ := hheader
  refine ⟨by simp only [List.length_append, List.length_cons] at *; omega, ?_⟩
  rw [readLine, if_pos rfl, hreadHeader, Option.bind_eq_bind, Option.bind_some, hend,
    Option.bind_eq_bind, Option.bind_some]
  dsimp only
  rw [hopen]
  rfl

/-- White space and a line are read, and then the rest. -/
lemma readRest_line {blank : List Char} (hblank : ∀ c ∈ blank, isBlank c = true) {c : Char}
    (hc : Solid c) {cs : List Char} (hline : Gives (readLine d (c :: cs)) d' rest) :
    readRest d (blank ++ c :: cs) = readRest d' rest := by
  obtain ⟨hle, hskip⟩ := skipLines_append hblank hc cs
  obtain ⟨hshort, hreadLine⟩ := hline
  rw [readRest, hskip]
  dsimp only
  rw [hreadLine]

lemma solid_of_isBare {c : Char} (hc : isBare c = true) : Solid c := by
  have hgap := isGap_of_isBare hc
  refine ⟨?_, ?_, ?_⟩
  · rw [isBlank, hgap, Bool.false_or, decide_eq_false_iff_not]
    rintro rfl
    exact absurd hc (by decide)
  · rintro rfl
    exact absurd hc (by decide)
  · rintro rfl
    exact absurd hc (by decide)

/-- A header, perhaps behind empty lines, opens its table for the lines below it. -/
lemma readRest_header {blank : List Char} (hblank : ∀ c ∈ blank, isBlank c = true) {name : String}
    (hname : IsBareKey name.toList) (hopen : d.open? false [] name = some d') :
    readRest d (blank ++ '[' :: (name.toList ++ ([] ++ ']' :: '\n' :: rest))) =
      readRest d' rest := by
  rw [← @String.ofList_toList name] at hopen
  exact readRest_line hblank ⟨rfl, by decide, by decide⟩ (gives_readLine_header hname hopen)

/-- A text that starts with no white space of a line. -/
def Visible (text : List Char) : Prop := ∃ c cs, text = c :: cs ∧ isGap c = false

lemma visible_toDigits (n : Nat) (tail : List Char) : Visible (Nat.toDigits 10 n ++ tail) := by
  cases h : Nat.toDigits 10 n with
  | nil => exact absurd h Nat.toDigits_ne_nil
  | cons c cs =>
    have hbare : isBare c = true := by
      simp [isBare, Char.isAlphanum, (isDigit_of_toDigits h).1]
    exact ⟨c, _, rfl, isGap_of_isBare hbare⟩

lemma visible_stringText (s : String) (tail : List Char) : Visible (stringText s ++ tail) := by
  obtain ⟨q, cs, htext, rfl | rfl⟩ := exists_stringText_eq_cons s
  · exact ⟨'"', _, by rw [htext]; rfl, rfl⟩
  · exact ⟨'\'', _, by rw [htext]; rfl, rfl⟩

lemma visible_arrayText (ss : List String) (tail : List Char) : Visible (arrayText ss ++ tail) := by
  match ss with
  | [] => exact ⟨'[', _, rfl, rfl⟩
  | [s] => exact ⟨'[', _, rfl, rfl⟩
  | s :: t :: ss => exact ⟨'[', _, rfl, rfl⟩

/-- A key and its value are added to the open table, and the lines below go on from there. -/
lemma readRest_pair {name : String} (hname : IsBareKey name.toList) {text : List Char} {v : Toml}
    (hvisible : Visible text) (hread : Gives (readValue maxDepth text) v ('\n' :: rest))
    (hadd : d.addKey? [] name v = some d') :
    readRest d (name.toList ++ ([' '] ++ '=' :: ' ' :: text)) = readRest d' rest := by
  obtain ⟨c, cs, htext, hc⟩ := hvisible
  rw [← @String.ofList_toList name] at hadd
  have hline := gives_readLine_pair hname htext hc hread hadd
  cases hchars : name.toList with
  | nil => exact absurd hchars hname.nonempty
  | cons n cs =>
    rw [hchars] at hname
    rw [hchars, List.cons_append] at hline
    rw [List.cons_append]
    have hblank : ∀ c ∈ ([] : List Char), isBlank c = true := by simp
    exact readRest_line hblank (solid_of_isBare (hname.bare n List.mem_cons_self)) hline

/-! ## Settings files -/

lemma settleItems?_texts (ss : List String) :
    settleItems? (ss.map .text) = some (ss.map .text) := by
  induction ss with
  | nil => rfl
  | cons s ss ih =>
    rw [List.map_cons, settleItems?, ih]
    rfl

/-- The tables that are written for a configuration. -/
def tablesOf (c : Config) : Table :=
  [("shorten", .table .underHeader [("max_length", .integer c.shorten.maxLength),
      ("fill", .text c.shorten.fill), ("keys", .array (c.shorten.keys.map .text))]),
    ("output", .table .underHeader [("format", .text c.layout.word)])]

lemma settle?_tablesOf (c : Config) :
    settle? (.table .underHeader (tablesOf c)) = some (.table .underHeader (tablesOf c)) := by
  simp [tablesOf, settle?, settleEntries?, settleItems?_texts, momentKey]

/-- The text of a settings file, line by line. -/
lemma toList_settingsText (c : Config) :
    c.settingsText.toList =
      '[' :: ("shorten".toList ++ ([] ++ ']' :: '\n' ::
        ("max_length".toList ++ ([' '] ++ '=' :: ' ' ::
          (Nat.toDigits 10 c.shorten.maxLength ++ '\n' ::
        ("fill".toList ++ ([' '] ++ '=' :: ' ' :: (stringText c.shorten.fill ++ '\n' ::
        ("keys".toList ++ ([' '] ++ '=' :: ' ' :: (arrayText c.shorten.keys ++ '\n' :: (['\n'] ++
          '[' :: ("output".toList ++ ([] ++ ']' :: '\n' ::
        ("format".toList ++ ([' '] ++ '=' :: ' ' ::
          (stringText c.layout.word ++ ['\n']))))))))))))))))) := by
  have hfirst : "[shorten]\nmax_length = ".toList =
      '[' :: ("shorten".toList ++ (']' :: '\n' :: ("max_length".toList ++ [' ', '=', ' ']))) := by
    decide
  have hfill : "\nfill = ".toList = '\n' :: ("fill".toList ++ [' ', '=', ' ']) := by decide
  have hkeys : "\nkeys = ".toList = '\n' :: ("keys".toList ++ [' ', '=', ' ']) := by decide
  have hsecond : "\n\n[output]\nformat = ".toList = '\n' :: '\n' :: '[' ::
      ("output".toList ++ (']' :: '\n' :: ("format".toList ++ [' ', '=', ' ']))) := by
    decide
  unfold Config.settingsText
  rw [String.toList_ofList, hfirst, hfill, hkeys, hsecond]
  simp only [List.append_assoc, List.cons_append, List.nil_append]

/-- The words of a settings file are bare keys. -/
lemma isBareKey_settings {word : String}
    (h : word ∈ ["shorten", "max_length", "fill", "keys", "output", "format"]) :
    IsBareKey word.toList := by
  have hall : ∀ word ∈ ["shorten", "max_length", "fill", "keys", "output", "format"],
      word.toList ≠ [] ∧ word.toList.all isBare = true := by decide
  exact ⟨(hall word h).1, List.all_eq_true.1 (hall word h).2⟩

lemma readRest_settingsText (c : Config) (hlength : c.shorten.maxLength < Nat.pow 2 63) :
    readRest {} c.settingsText.toList = some ⟨tablesOf c, ["output"]⟩ := by
  have hnone : ∀ c ∈ ([] : List Char), isBlank c = true := by simp
  have hline : ∀ c ∈ ['\n'], isBlank c = true := List.all_eq_true.1 rfl
  rw [toList_settingsText]
  calc
    _ = readRest ⟨[("shorten", .table .underHeader [])], ["shorten"]⟩ _ :=
      readRest_header hnone (isBareKey_settings (by simp)) rfl
    _ = readRest ⟨[("shorten", .table .underHeader [("max_length", .integer c.shorten.maxLength)])],
          ["shorten"]⟩ _ :=
      readRest_pair (isBareKey_settings (by simp)) (visible_toDigits _ _)
        (gives_readValue_digits _ hlength) rfl
    _ = readRest ⟨[("shorten", .table .underHeader [("max_length", .integer c.shorten.maxLength),
          ("fill", .text c.shorten.fill)])], ["shorten"]⟩ _ :=
      readRest_pair (isBareKey_settings (by simp)) (visible_stringText _ _)
        (gives_readValue_text _ _ (by simp) (by simp)) rfl
    _ = readRest ⟨[("shorten", .table .underHeader [("max_length", .integer c.shorten.maxLength),
          ("fill", .text c.shorten.fill), ("keys", .array (c.shorten.keys.map .text))])],
          ["shorten"]⟩ _ :=
      readRest_pair (isBareKey_settings (by simp)) (visible_arrayText _ _)
        (gives_readValue_array _ _) rfl
    _ = readRest ⟨[("shorten", .table .underHeader [("max_length", .integer c.shorten.maxLength),
          ("fill", .text c.shorten.fill), ("keys", .array (c.shorten.keys.map .text))]),
          ("output", .table .underHeader [])], ["output"]⟩ _ :=
      readRest_header hline (isBareKey_settings (by simp)) rfl
    _ = readRest ⟨tablesOf c, ["output"]⟩ [] :=
      readRest_pair (isBareKey_settings (by simp)) (visible_stringText _ _)
        (gives_readValue_text _ _ (by simp) (by simp)) rfl
    _ = some ⟨tablesOf c, ["output"]⟩ := by rw [readRest, skipLines]; rfl

/-- What is written for a configuration is read as its tables, if the length fits the integers of
settings files. -/
theorem ofText?_settingsText (c : Config) (hlength : c.shorten.maxLength < Nat.pow 2 63) :
    ofText? c.settingsText = some (tablesOf c) := by
  obtain ⟨cs, htext⟩ : ∃ cs, c.settingsText.toList = '[' :: cs := ⟨_, toList_settingsText c⟩
  have hread := readRest_settingsText c hlength
  rw [htext] at hread
  unfold ofText?
  rw [htext]
  -- no byte order mark stands in front
  show (readRest {} ('[' :: cs) >>= _) = _
  rw [hread, Option.bind_eq_bind, Option.bind_some, settle?_tablesOf]
  rfl

end Toml
end SchemaCut
