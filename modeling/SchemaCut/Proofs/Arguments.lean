import Mathlib.Data.List.Nodup
import Mathlib.Data.List.TakeWhile
import SchemaCut.CommandLine

/-!
# What the arguments of a call say

The arguments of a call are options, one behind the other.  An option is written by its name or its
letter (`Writes`), and its value is attached to it or is the next argument (`Begins`).  `Spells`
goes through the arguments of a call in this way, and `Asks` says which call the options stand for,
in whatever order they are given.

* `splitOption?_of_writes`, `writes_of_splitOption?` : an argument is taken apart as it is written.
* `readArguments_of_begins`, `readArguments_cases` : one step of the reader.
* `read_eq_subset_iff` : a call is understood exactly if its arguments spell options that are in
  order, and then as the call that these options ask for.
-/

namespace SchemaCut.CommandLine

/-! ## How options are written -/

/-- An argument that writes an option, with the value that is attached to it.  Behind a letter the
equals sign may be left out. -/
inductive Writes (f : Flag) : Option String → String → Prop
  | long : Writes f none ("--" ++ f.name)
  | longWith (value : String) (harity : f.arity ≠ .never) :
    Writes f (some value) ("--" ++ f.name ++ "=" ++ value)
  | short {c : Char} (hletter : f.letter = some c) : Writes f none ("-" ++ String.ofList [c])
  | shortWith {c : Char} (value : String) (hletter : f.letter = some c) :
    Writes f (some value) ("-" ++ String.ofList [c] ++ "=" ++ value)
  | shortTight {c d : Char} {ds : List Char} (hletter : f.letter = some c) (hd : d ≠ '=') :
    Writes f (some (String.ofList (d :: ds))) ("-" ++ String.ofList (c :: d :: ds))

/-- The arguments begin with an option and its value, and go on with the rest.  An option that needs
no value has none if it takes none, or if the next argument cannot be one. -/
inductive Begins (f : Flag) : Option String → List String → List String → Prop
  | attached {arg value : String} {rest : List String} (harg : Writes f (some value) arg) :
    Begins f (some value) (arg :: rest) rest
  | apart {arg value : String} {rest : List String} (harg : Writes f none arg)
    (harity : f.arity ≠ .never) (hvalue : isValue value = true) :
    Begins f (some value) (arg :: value :: rest) rest
  | alone {arg : String} {rest : List String} (harg : Writes f none arg)
    (harity : f.arity ≠ .always)
    (hnext : f.arity = .maybe → ∀ next ∈ rest.head?, isValue next = false) :
    Begins f none (arg :: rest) rest

/-- The arguments are the given options, from left to right.  Two hyphens may stand at their end. -/
inductive Spells : List String → Given → Prop
  | done : Spells [] []
  | closed : Spells ["--"] []
  | step {f : Flag} {value : Option String} {args rest : List String} {given : Given}
    (hf : f ∈ flags) (hbegins : Begins f value args rest) (hrest : Spells rest given) :
    Spells args ((f.name, value) :: given)

/-- Options that make a call for a subset: none twice, each with a good value, and none for help. -/
structure Given.InOrder (given : Given) : Prop where
  distinct : (given.map Prod.fst).Nodup
  accepted : ∀ f ∈ flags, ∀ value, (f.name, some value) ∈ given → f.accepts value = true
  noHelp : ∀ value, ("help", value) ∉ given

/-- Whether options switch something on. -/
def Given.SwitchOn (given : Given) (name : String) : Prop :=
  ∃ value, (name, value) ∈ given ∧ value ≠ some "false"

/-- What options ask for. -/
structure Asks (given : Given) (a : Arguments) : Prop where
  schemaPath : ("schema-path", some a.schemaPath) ∈ given
  name : ("name", some a.root.name) ∈ given
  kind : ∃ word, ("context", some word) ∈ given ∧ Kind.ofWord? word = some a.root.kind
  fullParents : a.fullParents = true ↔ given.SwitchOn "load-full-parents"
  shorten : a.shorten = true ↔ given.SwitchOn "shorten-descriptions"
  maxLength : ∀ n, a.maxLength = some n ↔
    ∃ text, ("max-length", some text) ∈ given ∧ Text.natural? text = some n
  fill : ∀ fill, a.fill = some fill ↔ ("fill", some fill) ∈ given
  output : ∀ path, a.output = some path ↔ ("output", some path) ∈ given
  compact : a.compact = true ↔ given.SwitchOn "compact"
  config : ∀ path, a.config = some path ↔ ("config", some path) ∈ given

/-! ## An argument that is taken apart -/

lemma find?_eq_some_iff_of_unique {α : Type} {p : α → Bool} {xs : List α} {x : α}
    (hunique : ∀ a ∈ xs, ∀ b ∈ xs, p a = true → p b = true → a = b) :
    xs.find? p = some x ↔ x ∈ xs ∧ p x = true := by
  constructor
  · intro h
    exact ⟨List.mem_of_find?_eq_some h, List.find?_some h⟩
  · rintro ⟨hx, hp⟩
    cases hfind : xs.find? p with
    | none => exact absurd hp (List.find?_eq_none.1 hfind x hx)
    | some y =>
      have hy := List.mem_of_find?_eq_some hfind
      rw [hunique y hy x hx (List.find?_some hfind) hp]

lemma flag_ext {f g : Flag} (hf : f ∈ flags) (hg : g ∈ flags) (h : f.name = g.name) : f = g :=
  List.inj_on_of_nodup_map (by decide : (flags.map Flag.name).Nodup) hf hg h

lemma flag_ext_letter {f g : Flag} {c : Char} (hf : f ∈ flags) (hg : g ∈ flags)
    (hfc : f.letter = some c) (hgc : g.letter = some c) : f = g := by
  have hnames : ∀ f ∈ flags, ∀ g ∈ flags,
      f.letter = g.letter → f.letter = none ∨ f.name = g.name := by
    decide
  have h := hnames f hf g hg (hfc.trans hgc.symm)
  rw [hfc] at h
  exact flag_ext hf hg (h.resolve_left (by simp))

lemma find?_name_iff {f : Flag} {name : String} :
    flags.find? (·.name = name) = some f ↔ f ∈ flags ∧ f.name = name := by
  rw [find?_eq_some_iff_of_unique]
  · simp
  · intro a ha b hb hpa hpb
    simp only [decide_eq_true_eq] at hpa hpb
    exact flag_ext ha hb (hpa.trans hpb.symm)

lemma find?_letter_iff {f : Flag} {c : Char} :
    flags.find? (·.letter = some c) = some f ↔ f ∈ flags ∧ f.letter = some c := by
  rw [find?_eq_some_iff_of_unique]
  · simp
  · intro a ha b hb hpa hpb
    simp only [decide_eq_true_eq] at hpa hpb
    exact flag_ext_letter ha hb hpa hpb

lemma forall_ne_of_name {f : Flag} (hf : f ∈ flags) :
    ∀ c ∈ f.name.toList, (!decide (c = '=')) = true := by
  have hnames : ∀ f ∈ flags, f.name.toList.all (· ≠ '=') = true := by decide +kernel
  simpa using hnames f hf

lemma ne_hyphen_of_letter {f : Flag} {c : Char} (hf : f ∈ flags) (hc : f.letter = some c) :
    c ≠ '-' := by
  rintro rfl
  exact (by decide : ∀ f ∈ flags, f.letter ≠ some '-') f hf hc

/-- An argument that writes an option is taken apart into the option and its value. -/
lemma splitOption?_of_writes {f : Flag} {value : Option String} {arg : String} (hf : f ∈ flags)
    (h : Writes f value arg) : splitOption? arg = some (f, value) := by
  cases h with
  | long =>
    have hlist : ("--" ++ f.name).toList = '-' :: '-' :: f.name.toList := by simp
    rw [splitOption?, hlist]
    simp [List.takeWhile_eq_self_iff.2 (forall_ne_of_name hf),
      List.dropWhile_eq_nil_iff.2 (forall_ne_of_name hf), find?_name_iff.2 ⟨hf, rfl⟩]
  | longWith value harity =>
    have hlist : ("--" ++ f.name ++ "=" ++ value).toList =
        '-' :: '-' :: (f.name.toList ++ '=' :: value.toList) := by simp
    rw [splitOption?, hlist]
    simp [List.takeWhile_append_of_pos (forall_ne_of_name hf),
      List.dropWhile_append_of_pos (forall_ne_of_name hf), find?_name_iff.2 ⟨hf, rfl⟩, harity]
  | @short c hc =>
    have hlist : ("-" ++ String.ofList [c]).toList = ['-', c] := by simp
    rw [splitOption?, hlist]
    simp [ne_hyphen_of_letter hf hc, find?_letter_iff.2 ⟨hf, hc⟩]
  | @shortWith c value hc =>
    have hlist : ("-" ++ String.ofList [c] ++ "=" ++ value).toList =
        '-' :: c :: '=' :: value.toList := by simp
    rw [splitOption?, hlist]
    simp [ne_hyphen_of_letter hf hc, find?_letter_iff.2 ⟨hf, hc⟩]
  | @shortTight c d ds hc hd =>
    have hlist : ("-" ++ String.ofList (c :: d :: ds)).toList = '-' :: c :: d :: ds := by simp
    rw [splitOption?, hlist]
    simp [ne_hyphen_of_letter hf hc, find?_letter_iff.2 ⟨hf, hc⟩, hd]

lemma writes_of_splitOption?_hyphens {f : Flag} {value : Option String} {cs : List Char}
    (h : splitOption? (String.ofList ('-' :: '-' :: cs)) = some (f, value)) :
    f ∈ flags ∧ Writes f value (String.ofList ('-' :: '-' :: cs)) := by
  rw [splitOption?, String.toList_ofList] at h
  obtain ⟨g, hfind, h⟩ := Option.bind_eq_some_iff.1 h
  obtain ⟨hg, hname⟩ := find?_name_iff.1 hfind
  have hcs : g.name.toList ++ cs.dropWhile (· ≠ '=') = cs := by
    rw [hname, String.toList_ofList, List.takeWhile_append_dropWhile]
  split at h
  · next c text hdrop =>
    have hhead := List.head?_dropWhile_not (· ≠ '=') cs
    rw [hdrop] at hhead
    obtain rfl : c = '=' := by simpa using hhead
    split at h
    · cases h
    · next harity =>
      obtain ⟨rfl, rfl⟩ := Prod.mk.inj (Option.some.inj h)
      have harg : "--" ++ g.name ++ "=" ++ String.ofList text =
          String.ofList ('-' :: '-' :: cs) := by
        rw [← String.toList_inj, ← hcs, hdrop]
        simp
      exact ⟨hg, harg ▸ .longWith (String.ofList text) harity⟩
  · next hdrop =>
    obtain ⟨rfl, rfl⟩ := Prod.mk.inj (Option.some.inj h)
    have harg : "--" ++ g.name = String.ofList ('-' :: '-' :: cs) := by
      rw [← String.toList_inj, ← hcs, hdrop]
      simp
    exact ⟨hg, harg ▸ .long⟩

lemma writes_of_splitOption?_hyphen {f : Flag} {value : Option String} {c : Char} {cs : List Char}
    (hc : c ≠ '-') (h : splitOption? (String.ofList ('-' :: c :: cs)) = some (f, value)) :
    f ∈ flags ∧ Writes f value (String.ofList ('-' :: c :: cs)) := by
  rw [splitOption?, String.toList_ofList] at h
  split at h
  · next heq => exact absurd (List.cons.inj (List.cons.inj heq).2).1 hc
  · next heq =>
    obtain ⟨-, rfl, rfl⟩ := heq
    obtain ⟨g, hfind, h⟩ := Option.bind_eq_some_iff.1 h
    obtain ⟨hg, hletter⟩ := find?_letter_iff.1 hfind
    cases cs with
    | nil =>
      obtain ⟨rfl, rfl⟩ := Prod.mk.inj (Option.some.inj h)
      have harg : "-" ++ String.ofList [c] = String.ofList ['-', c] := by simp
      exact ⟨hg, harg ▸ .short hletter⟩
    | cons d ds =>
      by_cases hd : d = '='
      · subst hd
        obtain ⟨rfl, rfl⟩ := Prod.mk.inj (Option.some.inj h)
        have harg : "-" ++ String.ofList [c] ++ "=" ++ String.ofList ds =
            String.ofList ('-' :: c :: '=' :: ds) := by
          simp [← String.toList_inj]
        exact ⟨hg, harg ▸ .shortWith (String.ofList ds) hletter⟩
      · obtain ⟨rfl, rfl⟩ : g = f ∧ some (String.ofList (d :: ds)) = value := by simpa [hd] using h
        have harg : "-" ++ String.ofList (c :: d :: ds) = String.ofList ('-' :: c :: d :: ds) := by
          simp
        exact ⟨hg, harg ▸ .shortTight hletter hd⟩
  · cases h

/-- An argument that is taken apart writes the option that is found. -/
lemma writes_of_splitOption? {f : Flag} {value : Option String} {arg : String}
    (h : splitOption? arg = some (f, value)) : f ∈ flags ∧ Writes f value arg := by
  have hshape := h
  rw [splitOption?] at hshape
  split at hshape
  · next cs hlist =>
    rw [← String.ofList_toList (s := arg), hlist] at h ⊢
    exact writes_of_splitOption?_hyphens h
  · next c cs hc hlist =>
    rw [← String.ofList_toList (s := arg), hlist] at h ⊢
    exact writes_of_splitOption?_hyphen hc h
  · cases hshape

/-! ## One step of the reader -/

lemma takeOption?_of_begins {f : Flag} {value : Option String} {arg : String}
    {rest behind : List String} (hf : f ∈ flags) (h : Begins f value (arg :: rest) behind) :
    takeOption? arg rest = some (f, value, behind) := by
  cases h with
  | attached harg => rw [takeOption?, splitOption?_of_writes hf harg]
  | apart harg harity hvalue =>
    rw [takeOption?, splitOption?_of_writes hf harg]
    simp [harity, hvalue]
  | alone harg harity hnext =>
    rw [takeOption?, splitOption?_of_writes hf harg]
    cases rest with
    | nil => simp [harity]
    | cons next rest =>
      have hvalue : f.arity ≠ .never → isValue next = false := by
        intro hnever
        cases hkind : f.arity with
        | never => exact absurd hkind hnever
        | maybe => exact hnext hkind next rfl
        | always => exact absurd hkind harity
      simpa [harity] using hvalue

lemma begins_of_takeOption? {f : Flag} {value : Option String} {arg : String}
    {rest behind : List String} (h : takeOption? arg rest = some (f, value, behind)) :
    f ∈ flags ∧ Begins f value (arg :: rest) behind := by
  rw [takeOption?] at h
  split at h
  · cases h
  · next g text hsplit =>
    obtain ⟨hg, harg⟩ := writes_of_splitOption? hsplit
    obtain ⟨rfl, rfl, rfl⟩ := h
    exact ⟨hg, .attached harg⟩
  · next g hsplit =>
    obtain ⟨hg, harg⟩ := writes_of_splitOption? hsplit
    split at h
    · next next behind =>
      split_ifs at h with hvalue harity
      · obtain ⟨rfl, rfl, rfl⟩ := h
        rw [Bool.and_eq_true, decide_eq_true_eq] at hvalue
        exact ⟨hg, .apart harg hvalue.1 hvalue.2⟩
      · obtain ⟨rfl, rfl, rfl⟩ := h
        exact ⟨hg, .alone harg harity fun hmaybe => by simpa [hmaybe] using hvalue⟩
    · split_ifs at h with harity
      obtain ⟨rfl, rfl, rfl⟩ := h
      exact ⟨hg, .alone harg harity fun _ => by simp⟩

lemma not_writes_hyphens {f : Flag} {value : Option String} (hf : f ∈ flags) :
    ¬ Writes f value "--" := by
  intro h
  have hsplit : splitOption? "--" = none := by simp [splitOption?, flags]
  rw [splitOption?_of_writes hf h] at hsplit
  cases hsplit

lemma readArguments_cons (g : Given) {arg : String} {rest : List String}
    (hlast : arg :: rest ≠ ["--"]) :
    readArguments g (arg :: rest) =
      (takeOption? arg rest).bind fun o =>
        if o.1.name = "help" then some .help
        else (g.add? o.1 o.2.1).bind fun g => readArguments g o.2.2 := by
  rw [readArguments]
  · split <;> simp_all
  · exact fun harg hrest => hlast (by rw [harg, hrest])

/-- An option that arguments begin with is added to those before it, and the rest is read. -/
lemma readArguments_of_begins {f : Flag} {value : Option String} {args rest : List String}
    (g : Given) (hf : f ∈ flags) (hhelp : f.name ≠ "help") (h : Begins f value args rest) :
    readArguments g args = (g.add? f value).bind fun g => readArguments g rest := by
  cases args with
  | nil => cases h
  | cons arg args =>
    have hlast : arg :: args ≠ ["--"] := by
      intro heq
      obtain ⟨rfl, rfl⟩ := List.cons.inj heq
      cases h with
      | attached harg | alone harg => exact not_writes_hyphens hf harg
    rw [readArguments_cons g hlast, takeOption?_of_begins hf h, Option.bind_some, if_neg hhelp]

/-- Arguments that are read as a call for a subset have come to their end, or begin with an option
that is added to those before it. -/
lemma readArguments_cases {g : Given} {args : List String} {a : Arguments}
    (h : readArguments g args = some (.subset a)) :
    Spells args [] ∧ g.call? = some (.subset a) ∨
    ∃ f value g' rest, f ∈ flags ∧ f.name ≠ "help" ∧ Begins f value args rest ∧
      g.add? f value = some g' ∧ readArguments g' rest = some (.subset a) := by
  cases args with
  | nil => exact .inl ⟨.done, by rwa [readArguments] at h⟩
  | cons arg args =>
    by_cases hlast : arg :: args = ["--"]
    · rw [hlast] at h ⊢
      exact .inl ⟨.closed, by rwa [readArguments] at h⟩
    · rw [readArguments_cons g hlast] at h
      obtain ⟨⟨f, value, rest⟩, htake, h⟩ := Option.bind_eq_some_iff.1 h
      obtain ⟨hf, hbegins⟩ := begins_of_takeOption? htake
      split at h
      · cases h
      · next hhelp =>
        obtain ⟨g', hadd, h⟩ := Option.bind_eq_some_iff.1 h
        exact .inr ⟨f, value, g', rest, hf, hhelp, hbegins, hadd, h⟩

/-! ## Options in order -/

namespace Given

variable {g given : Given} {name : String} {value : Option String}

lemma lookup_eq_some_iff_mem (hdistinct : (g.map Prod.fst).Nodup) :
    g.lookup name = some value ↔ (name, value) ∈ g := by
  rw [List.lookup_eq_some_iff]
  constructor
  · rintro ⟨before, after, rfl, -⟩
    simp
  · intro h
    obtain ⟨before, after, rfl⟩ := List.append_of_mem h
    refine ⟨before, after, rfl, fun p hp => ?_⟩
    rw [List.map_append, List.nodup_append] at hdistinct
    have hne := hdistinct.2.2 p.1 (List.mem_map_of_mem hp) name (by simp)
    simpa using hne.symm

lemma lookup_isSome_iff_mem : (g.lookup name).isSome = true ↔ name ∈ g.map Prod.fst := by
  rw [List.lookup_isSome_iff, List.mem_map]
  exact exists_congr fun o => and_congr_right fun _ => beq_iff_eq.trans eq_comm

lemma all_eq_true_iff {p : String → Bool} :
    value.all p = true ↔ ∀ text, value = some text → p text = true := by
  cases value <;> simp

/-- When an option is added, and what comes out. -/
lemma add?_eq_some_iff {f : Flag} {g' : Given} :
    g.add? f value = some g' ↔
      f.name ∉ g.map Prod.fst ∧ (∀ text, value = some text → f.accepts text = true) ∧
        (f.name, value) :: g = g' := by
  rw [add?, ← lookup_isSome_iff_mem, ← all_eq_true_iff]
  cases (g.lookup f.name).isSome <;> cases value.all f.accepts <;> simp

/-- Options with one more in front are in order if that one is new, its value is good, and it is not
for help. -/
lemma inOrder_cons_iff {f : Flag} (hf : f ∈ flags) :
    InOrder ((f.name, value) :: g) ↔
      g.InOrder ∧ f.name ∉ g.map Prod.fst ∧ (∀ text, value = some text → f.accepts text = true) ∧
        f.name ≠ "help" := by
  constructor
  · rintro ⟨hdistinct, haccepted, hhelp⟩
    rw [List.map_cons, List.nodup_cons] at hdistinct
    refine ⟨⟨hdistinct.2, fun x hx text hmem => ?_, fun w hmem => ?_⟩, hdistinct.1, ?_, ?_⟩
    · exact haccepted x hx text (List.mem_cons_of_mem _ hmem)
    · exact hhelp w (List.mem_cons_of_mem _ hmem)
    · rintro text rfl
      exact haccepted f hf text List.mem_cons_self
    · intro heq
      exact hhelp value (heq ▸ List.mem_cons_self)
  · rintro ⟨hg, hnew, haccepts, hhelp⟩
    refine ⟨List.nodup_cons.2 ⟨hnew, hg.distinct⟩, fun x hx text hmem => ?_, fun w hmem => ?_⟩
    · rcases List.mem_cons.1 hmem with heq | hmem
      · obtain ⟨hname, rfl⟩ := Prod.mk.inj heq
        rw [flag_ext hx hf hname]
        exact haccepts text rfl
      · exact hg.accepted x hx text hmem
    · rcases List.mem_cons.1 hmem with heq | hmem
      · exact hhelp (Prod.mk.inj heq).1.symm
      · exact hg.noHelp w hmem

lemma InOrder.of_append {before : Given} (h : InOrder (before ++ g)) : g.InOrder where
  distinct := by
    have hdistinct := h.distinct
    rw [List.map_append] at hdistinct
    exact hdistinct.of_append_right
  accepted f hf text hmem := h.accepted f hf text (List.mem_append_right _ hmem)
  noHelp w hmem := h.noHelp w (List.mem_append_right _ hmem)

lemma InOrder.of_perm (h : g.InOrder) (hperm : List.Perm g given) : given.InOrder where
  distinct := (hperm.map Prod.fst).nodup_iff.1 h.distinct
  accepted f hf text hmem := h.accepted f hf text (hperm.mem_iff.2 hmem)
  noHelp w hmem := h.noHelp w (hperm.mem_iff.2 hmem)

lemma value?_eq_some_iff (hdistinct : (g.map Prod.fst).Nodup) {text : String} :
    g.value? name = some text ↔ (name, some text) ∈ g := by
  rw [value?, Option.join_eq_some_iff, lookup_eq_some_iff_mem hdistinct]

lemma isOn_eq_true_iff (hdistinct : (g.map Prod.fst).Nodup) :
    g.isOn name = true ↔ g.SwitchOn name := by
  simp only [SwitchOn, ← lookup_eq_some_iff_mem hdistinct]
  rw [isOn]
  split
  · next hlookup => simp [hlookup]
  · next hlookup => simp [hlookup]
  · next value hfalse hlookup => simpa [hlookup] using hfalse

/-- Options in order stand for the call that they ask for, in whatever order they are given. -/
lemma call?_eq_subset_iff (h : g.InOrder) (hperm : List.Perm g given) {a : Arguments} :
    g.call? = some (.subset a) ↔ Asks given a := by
  have hvalue : ∀ name text, g.value? name = some text ↔ (name, some text) ∈ given :=
    fun _ _ => (value?_eq_some_iff h.distinct).trans hperm.mem_iff
  have hread : ∀ {α : Type} (name) (read : String → Option α) (x : α),
      (g.value? name).bind read = some x ↔
        ∃ text, (name, some text) ∈ given ∧ read text = some x := by
    intro α name read x
    simp only [Option.bind_eq_some_iff, hvalue]
  have hswitch : ∀ name, g.isOn name = true ↔ given.SwitchOn name := by
    intro name
    rw [isOn_eq_true_iff h.distinct]
    simp only [SwitchOn, hperm.mem_iff]
  constructor
  · intro hcall
    obtain ⟨schemaPath, hfound, hcall⟩ := Option.bind_eq_some_iff.1 hcall
    obtain ⟨name, hnamed, hcall⟩ := Option.bind_eq_some_iff.1 hcall
    obtain ⟨kind, hknown, hcall⟩ := Option.bind_eq_some_iff.1 hcall
    obtain rfl := Call.subset.inj (Option.some.inj hcall)
    exact {
      schemaPath := (hvalue _ _).1 hfound
      name := (hvalue _ _).1 hnamed
      kind := (hread _ _ _).1 hknown
      fullParents := hswitch _
      shorten := hswitch _
      maxLength := hread _ _
      fill := hvalue _
      output := hvalue _
      compact := hswitch _
      config := hvalue _ }
  · intro hasks
    have hon : ∀ {on : Bool} {name}, (on = true ↔ given.SwitchOn name) → g.isOn name = on :=
      fun h => Bool.eq_iff_iff.2 ((hswitch _).trans h.symm)
    have htext : ∀ {text? : Option String} {name},
        (∀ text, text? = some text ↔ (name, some text) ∈ given) → g.value? name = text? :=
      fun h => Option.ext fun text => (hvalue _ text).trans (h text).symm
    have hcount : (g.value? "max-length").bind Text.natural? = a.maxLength :=
      Option.ext fun n => (hread _ _ n).trans (hasks.maxLength n).symm
    rw [call?, (hvalue _ _).2 hasks.schemaPath, (hvalue _ _).2 hasks.name,
      (hread _ _ _).2 hasks.kind, hon hasks.fullParents, hon hasks.shorten, hcount,
      htext hasks.fill, htext hasks.output, hon hasks.compact, htext hasks.config]
    rfl

end Given

/-! ## All arguments -/

/-- Options in order that arguments spell are added to those before them, the last one in front. -/
lemma readArguments_of_spells {args : List String} {given g : Given} (h : Spells args given)
    (horder : Given.InOrder (given.reverse ++ g)) :
    readArguments g args = Given.call? (given.reverse ++ g) := by
  induction h generalizing g with
  | done | closed =>
    rw [readArguments]
    rfl
  | @step f value args rest given hf hbegins hrest ih =>
    rw [List.reverse_cons, List.append_assoc, List.singleton_append] at horder ⊢
    obtain ⟨-, hnew, haccepts, hhelp⟩ := (Given.inOrder_cons_iff hf).1 horder.of_append
    rw [readArguments_of_begins g hf hhelp hbegins,
      Given.add?_eq_some_iff.2 ⟨hnew, haccepts, rfl⟩, Option.bind_some, ih horder]

lemma Begins.length_lt {f : Flag} {value : Option String} {args rest : List String}
    (h : Begins f value args rest) : rest.length < args.length := by
  cases h <;> simp only [List.length_cons] <;> omega

/-- Arguments that are read as a call for a subset spell options in order. -/
lemma exists_spells_of_readArguments {args : List String} {g : Given} {a : Arguments}
    (hg : g.InOrder) (h : readArguments g args = some (.subset a)) :
    ∃ given, Spells args given ∧ Given.InOrder (given.reverse ++ g) ∧
      Given.call? (given.reverse ++ g) = some (.subset a) := by
  rcases readArguments_cases h with
    ⟨hend, hcall⟩ | ⟨f, value, g', rest, hf, hhelp, hbegins, hadd, hrest⟩
  · exact ⟨[], hend, hg, hcall⟩
  · obtain ⟨hnew, haccepts, rfl⟩ := Given.add?_eq_some_iff.1 hadd
    have hg' := (Given.inOrder_cons_iff hf).2 ⟨hg, hnew, haccepts, hhelp⟩
    obtain ⟨given, hspells, horder, hcall⟩ := exists_spells_of_readArguments hg' hrest
    refine ⟨(f.name, value) :: given, .step hf hbegins hspells, ?_⟩
    rw [List.reverse_cons, List.append_assoc, List.singleton_append]
    exact ⟨horder, hcall⟩
termination_by args.length
decreasing_by exact hbegins.length_lt

/-- A call is understood exactly if its arguments spell options in order, and as the call that these
options ask for. -/
theorem read_eq_subset_iff {args : List String} {a : Arguments} :
    Call.read args = some (.subset a) ↔
      ∃ given : Given, Spells args given ∧ given.InOrder ∧ Asks given a := by
  constructor
  · intro h
    have hempty : Given.InOrder [] := ⟨List.nodup_nil, by simp, by simp⟩
    obtain ⟨given, hspells, horder, hcall⟩ := exists_spells_of_readArguments hempty h
    rw [List.append_nil] at horder hcall
    have hperm := List.reverse_perm given
    exact ⟨given, hspells, horder.of_perm hperm, (Given.call?_eq_subset_iff horder hperm).1 hcall⟩
  · rintro ⟨given, hspells, horder, hasks⟩
    have hperm : List.Perm (given.reverse ++ []) given := by
      rw [List.append_nil]
      exact List.reverse_perm given
    have hreverse := horder.of_perm hperm.symm
    rw [Call.read, readArguments_of_spells hspells hreverse]
    exact (Given.call?_eq_subset_iff hreverse hperm).2 hasks

end SchemaCut.CommandLine
