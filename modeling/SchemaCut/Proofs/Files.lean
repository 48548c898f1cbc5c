import Mathlib.Data.List.Infix
import Mathlib.Tactic.Lemma
import Mathlib.Tactic.SplitIfs
import SchemaCut.Files

/-!
# Files that are written

What has been written to a path is read from it again, and everything else that was there stays.
`Leads` is the relation between a path and its end: each step is taken from a directory.  So the
file at the end of a path can take the place of another without changing the way there, and a new
file, which stands in a directory, adds no directory.

* `locate_eq_ok` : the names that a path leads to.
* `exists_last_of_file` : the last step of a path that leads to a file.
* `Writes.find_after`, `Writes.find_of_after` : what a path leads to before and after a file has
  been written.
* `read_write` : reading what has been written.
-/

namespace SchemaCut

/-! ## Parts of texts -/

lemma suffix_intercalate {α : Type} (separator : List α) (before : List (List α)) (last : List α) :
    last <:+ separator.intercalate (before ++ [last]) := by
  induction before with
  | nil => simp
  | cons x before ih =>
    rw [List.cons_append, List.intercalate_cons_of_ne_nil (by simp)]
    exact ih.trans (List.suffix_append _ _)

/-- A text ends with the last of its parts. -/
lemma Text.suffix_of_getLast?_parts {separator : Char} {s last : String}
    (h : (Text.parts separator s).getLast? = some last) : last.toList <:+ s.toList := by
  obtain ⟨part, hpart, rfl⟩ : ∃ part, (s.toList.splitOn separator).getLast? = some part ∧
      String.ofList part = last := by
    simpa [Text.parts] using h
  obtain ⟨before, hbefore⟩ := List.getLast?_eq_some_iff.1 hpart
  have hsuffix := suffix_intercalate [separator] before part
  rw [← hbefore, List.intercalate_splitOn] at hsuffix
  rwa [String.toList_ofList]

namespace FileTree

/-! ## Entries -/

variable {t : FileTree} {names other : List String} {e f : FileEntry}

lemma entry?_put (t : FileTree) (names : List String) (e : FileEntry) :
    entry? (t.put names e) names = some e := by
  simp [put, entry?]

lemma lookup_filter_ne {entries : List (List String × FileEntry)} (h : other ≠ names) :
    (entries.filter (·.1 ≠ names)).lookup other = entries.lookup other := by
  induction entries with
  | nil => rfl
  | cons x entries ih =>
    obtain ⟨n, g⟩ := x
    by_cases hn : n = names
    · have hne : (other == n) = false := by simpa [hn] using h
      rw [List.filter_cons_of_neg (by simp [hn]), ih, List.lookup_cons, hne]
    · rw [List.filter_cons_of_pos (by simp [hn]), List.lookup_cons, List.lookup_cons, ih]

lemma lookup_put_of_ne (t : FileTree) (e : FileEntry) (h : other ≠ names) :
    (t.put names e).entries.lookup other = t.entries.lookup other := by
  have hother : (other == names) = false := by simpa using h
  rw [put, List.lookup_cons, hother]
  exact lookup_filter_ne h

/-- A directory that holds what is replaced still holds what is put there. -/
lemma any_put (e : FileEntry) (h : (t.entries.any fun x => other.isPrefixOf x.1) = true) :
    ((t.put names e).entries.any fun x => other.isPrefixOf x.1) = true := by
  obtain ⟨x, hx, hprefix⟩ := List.any_eq_true.1 h
  by_cases hxn : x.1 = names
  · exact List.any_eq_true.2 ⟨(names, e), List.mem_cons_self, hxn ▸ hprefix⟩
  · exact List.any_eq_true.2 ⟨x, List.mem_cons_of_mem _ (by simp [hx, hxn]), hprefix⟩

/-! ## Following a path -/

section Leads

variable {place rest : List String} {asDirectory : Bool} {path : String}

/-- Steps lead from one place to another.  Each of them is taken from a directory; only what is
asked for as a directory by slashes at the end may be missing. -/
inductive Leads (t : FileTree) : List String → List String → List String → Bool → Prop where
  | stay (place : List String) : Leads t place [] place false
  | missing {place rest : List String} (hplace : t.entry? place = none)
    (hrest : rest.all (· = "") = true) : Leads t place ("" :: rest) place true
  | last {place : List String} {step : String} (hplace : t.entry? place = some .directory)
    (hshort : ¬255 < step.utf8ByteSize) :
    Leads t place [step] (enter place step) (step ∈ ["", ".", ".."])
  | step {place rest names : List String} {step : String} {asDirectory : Bool}
    (hplace : t.entry? place = some .directory) (hshort : ¬255 < step.utf8ByteSize)
    (hrest : rest ≠ []) (h : Leads t (enter place step) rest names asDirectory) :
    Leads t place (step :: rest) names asDirectory

lemma Leads.follow (h : t.Leads place rest names asDirectory) :
    t.follow place rest = .ok (names, asDirectory) := by
  induction h with
  | stay => rfl
  | missing hplace hrest =>
    rw [FileTree.follow, hplace]
    exact if_pos ⟨rfl, hrest⟩
  | last hplace hshort =>
    rw [FileTree.follow, hplace]
    exact if_neg hshort
  | @step place rest names step asDirectory hplace hshort hrest h ih =>
    have hmore : rest.isEmpty = false := by simpa using hrest
    rw [FileTree.follow, hplace]
    dsimp only
    rw [if_neg hshort, hmore]
    exact ih

lemma leads_of_follow (h : t.follow place rest = .ok (names, asDirectory)) :
    t.Leads place rest names asDirectory := by
  induction rest generalizing place with
  | nil =>
    cases h
    exact .stay _
  | cons step rest ih =>
    rw [follow] at h
    cases hplace : t.entry? place with
    | none =>
      rw [hplace] at h
      dsimp only at h
      split_ifs at h with hend
      cases h
      obtain ⟨rfl, hrest⟩ := hend
      exact .missing hplace hrest
    | some f =>
      rw [hplace] at h
      cases f with
      | text _ | binary => cases h
      | directory =>
        dsimp only at h
        split_ifs at h with hlong hlast
        · cases h
          rw [List.isEmpty_iff.1 hlast]
          exact .last hplace hlong
        · exact .step hplace hlong (by simpa using hlast) (ih h)

/-- The paths that a file system takes. -/
structure IsPath (path : String) : Prop where
  noNul : path.toList.contains (Char.ofNat 0) = false
  nonempty : path.isEmpty = false
  short : ¬4096 ≤ path.utf8ByteSize

lemma locate_eq_ok :
    t.locate path = .ok (names, asDirectory) ↔
      IsPath path ∧ t.Leads (start path).1 (start path).2 names asDirectory := by
  constructor
  · intro h
    rw [locate] at h
    split_ifs at h with hnul hempty hlong
    exact ⟨⟨by simpa using hnul, by simpa using hempty, hlong⟩, leads_of_follow h⟩
  · rintro ⟨⟨hnul, hempty, hlong⟩, h⟩
    rw [locate, hnul, hempty, if_neg hlong]
    exact h.follow

/-- The end of a path is a step from a directory, or it does not exist and is asked for as a
directory. -/
lemma Leads.ends (hrest : rest ≠ []) (h : t.Leads place rest names asDirectory) :
    (∃ dir last, t.entry? dir = some .directory ∧ rest.getLast? = some last ∧
      names = enter dir last ∧ asDirectory = decide (last ∈ ["", ".", ".."])) ∨
    asDirectory = true ∧ t.entry? names = none := by
  induction h with
  | stay => exact absurd rfl hrest
  | missing hplace _ => exact .inr ⟨rfl, hplace⟩
  | @last place step hplace _ => exact .inl ⟨place, step, hplace, rfl, rfl, rfl⟩
  | step _ _ hmore _ ih =>
    rw [List.getLast?_cons_of_ne_nil hmore]
    exact ih hmore

/-- A path has a last step, wherever it starts. -/
lemma getLast?_start (path : String) :
    (start path).2 ≠ [] ∧ (start path).2.getLast? = (steps path).getLast? := by
  rw [start]
  split_ifs with hrooted
  · obtain ⟨cs, hcs⟩ : ∃ cs, path.toList = '/' :: cs :=
      List.head?_eq_some_iff.1 (by simpa [isRooted] using hrooted)
    have hsteps : steps path = "" :: (cs.splitOn '/').map String.ofList := by
      rw [steps, Text.parts, hcs, List.splitOn_cons_eq_if_modifyHead]
      rfl
    have hne : (cs.splitOn '/').map String.ofList ≠ [] := by simp [List.splitOn_ne_nil]
    rw [hsteps]
    exact ⟨hne, (List.getLast?_cons_of_ne_nil hne).symm⟩
  · exact ⟨by simp [steps, Text.parts, List.splitOn_ne_nil], rfl⟩

lemma locate_ends (h : t.locate path = .ok (names, asDirectory)) :
    (∃ dir last, t.entry? dir = some .directory ∧ (steps path).getLast? = some last ∧
      names = enter dir last ∧ asDirectory = decide (last ∈ ["", ".", ".."])) ∨
    asDirectory = true ∧ t.entry? names = none := by
  obtain ⟨hne, hlast⟩ := getLast?_start path
  rw [← hlast]
  exact (locate_eq_ok.1 h).2.ends hne

/-- A path that leads to a file ends with a name, which is that of the file unless it is the one
for the directory above. -/
lemma exists_last_of_file (h : t.locate path = .ok (names, asDirectory))
    (hthere : t.entry? names ≠ none) (hfile : t.entry? names ≠ some .directory) :
    ∃ last, (steps path).getLast? = some last ∧ last ∉ ["", "."] ∧
      (last = ".." ∨ names.getLast? = some last) := by
  obtain ⟨dir, last, hdir, hlast, rfl, -⟩ | ⟨-, hnone⟩ := locate_ends h
  · have hstep : last ∉ ["", "."] := by
      intro hmem
      have hstay : enter dir last = dir := if_pos (by simpa using hmem)
      rw [hstay] at hfile
      exact hfile hdir
    refine ⟨last, hlast, hstep, or_iff_not_imp_left.2 fun hup => ?_⟩
    rw [enter, if_neg (by simpa using hstep), if_neg hup, List.getLast?_append]
    rfl
  · exact absurd hnone hthere

/-- A path that asks for no directory ends with a name in a directory. -/
lemma exists_parent (h : t.locate path = .ok (names, false)) :
    ∃ dir last, t.entry? dir = some .directory ∧ (steps path).getLast? = some last ∧
      last ∉ ["", ".", ".."] ∧ names = dir ++ [last] := by
  obtain ⟨dir, last, hdir, hlast, rfl, hstep⟩ | ⟨hfalse, -⟩ := locate_ends h
  · have hname : last ∉ ["", ".", ".."] := of_decide_eq_false hstep.symm
    refine ⟨dir, last, hdir, hlast, hname, ?_⟩
    simp only [List.mem_cons, List.not_mem_nil, or_false, not_or] at hname
    rw [enter, if_neg (by simp [hname]), if_neg hname.2.2]
  · cases hfalse

end Leads

/-! ## What a path leads to -/

lemma find_eq_ok {path : String} :
    t.find path = .ok f ↔
      ∃ names asDirectory, t.locate path = .ok (names, asDirectory) ∧ t.entry? names = some f := by
  unfold find
  cases t.locate path with
  | error fault => simp [bind, Except.bind]
  | ok found =>
    obtain ⟨names, asDirectory⟩ := found
    simp only [bind, Except.bind, Except.ok.injEq, Prod.mk.injEq]
    cases hentry : t.entry? names with
    | none => simp [hentry]
    | some g => simp [hentry, pure, Except.pure]

lemma read_eq_ok {path content : String} :
    t.read path = .ok content ↔ t.find path = .ok (.text content) := by
  rw [read]
  cases t.find path with
  | error fault => simp [bind, Except.bind]
  | ok f => cases f <;> simp [bind, Except.bind, pure, Except.pure]

lemma isFile_iff {path : String} :
    t.isFile path = true ↔ ∃ f, t.find path = .ok f ∧ f ≠ .directory := by
  rw [isFile]
  cases t.find path with
  | error fault => simp
  | ok f => cases f <;> simp

lemma hasEntry_iff {path : String} : t.hasEntry path = true ↔ ∃ f, t.find path = .ok f := by
  rw [hasEntry]
  cases t.find path <;> simp [Except.isOk, Except.toBool]

/-! ## Writing a file -/

/-- Where a file is written: the path leads to names under which no directory stands, and the file
is put under them. -/
lemma write_eq_ok {path content : String} {after : FileTree} :
    t.write path content = .ok after ↔ withoutEndSlashes path = path ∧
      ∃ names, t.locate path = .ok (names, false) ∧ t.entry? names ≠ some .directory ∧
        t.put names (.text content) = after := by
  constructor
  · intro h
    rw [write] at h
    dsimp only at h
    split_ifs at h
    cases hlocate : t.locate (withoutEndSlashes path) with
    | error fault =>
      rw [hlocate] at h
      cases h
    | ok found =>
      obtain ⟨names, asDirectory⟩ := found
      rw [hlocate] at h
      dsimp only [bind, Except.bind] at h
      split_ifs at h with hdirectory
      simp only [not_or, Bool.not_eq_true, Decidable.not_not] at hdirectory
      obtain ⟨hpath, rfl, hfile⟩ := hdirectory
      exact ⟨hpath, names, hpath ▸ hlocate, hfile, Except.ok.inj h⟩
  · rintro ⟨hpath, names, hlocate, hfile, rfl⟩
    rw [write]
    dsimp only
    rw [hpath, Bool.and_not_self, if_neg Bool.false_ne_true, hlocate]
    dsimp only [bind, Except.bind]
    rw [if_neg (by simp [hfile])]
    rfl

/-- A path at which a file can be written: it ends with no slash, and leads to a file or to a new
name in a directory. -/
structure IsWritable (t : FileTree) (path : String) : Prop where
  noSlash : withoutEndSlashes path = path
  leads : ∃ names, t.locate path = .ok (names, false) ∧ t.entry? names ≠ some .directory

lemma IsWritable.exists_write {path : String} (h : t.IsWritable path) (content : String) :
    ∃ after, t.write path content = .ok after := by
  obtain ⟨hslash, names, hlocate, hfile⟩ := h
  exact ⟨_, write_eq_ok.2 ⟨hslash, names, hlocate, hfile, rfl⟩⟩

/-- A file is put under names in a directory, where no directory stands yet. -/
structure Writes (t : FileTree) (names : List String) (content : String) (after : FileTree) :
    Prop where
  parent : ∃ dir last, t.entry? dir = some .directory ∧ names = dir ++ [last]
  file : t.entry? names ≠ some .directory
  after_eq : after = t.put names (.text content)

lemma writes_of_write {path content : String} {after : FileTree}
    (h : t.write path content = .ok after) :
    ∃ names, t.locate path = .ok (names, false) ∧ Writes t names content after := by
  obtain ⟨-, names, hlocate, hfile, rfl⟩ := write_eq_ok.1 h
  obtain ⟨dir, last, hdir, -, -, hnames⟩ := exists_parent hlocate
  exact ⟨names, hlocate, ⟨dir, last, hdir, hnames⟩, hfile, rfl⟩

lemma isLandmark_of_longer {dir : List String} (h : other <+: dir) (hdir : isLandmark dir = true) :
    isLandmark other = true := by
  simp only [isLandmark, Bool.or_eq_true, decide_eq_true_eq, List.all_eq_true] at hdir ⊢
  rcases hdir with rfl | hup
  · rcases List.prefix_cons_iff.1 h with rfl | ⟨rest, rfl, hrest⟩
    · exact .inr (by simp)
    · rw [List.prefix_nil.1 hrest]
      exact .inl rfl
  · exact .inr fun n hn => hup n (h.subset hn)

/-- Whatever leads to a directory is there. -/
lemma isLandmark_or_any_of_longer {dir : List String} (h : other <+: dir)
    (hdir : t.entry? dir = some .directory) :
    (isLandmark other || t.entries.any fun x => other.isPrefixOf x.1) = true := by
  rw [Bool.or_eq_true]
  unfold entry? at hdir
  cases hlookup : t.entries.lookup dir with
  | some f =>
    obtain ⟨before, after, hentries, -⟩ := List.lookup_eq_some_iff.1 hlookup
    have hmem : (dir, f) ∈ t.entries := by simp [hentries]
    exact .inr (List.any_eq_true.2 ⟨(dir, f), hmem, List.isPrefixOf_iff_prefix.2 h⟩)
  | none =>
    rw [hlookup] at hdir
    dsimp only at hdir
    split_ifs at hdir with hthere
    rw [Bool.or_eq_true] at hthere
    rcases hthere with hlandmark | hany
    · exact .inl (isLandmark_of_longer h hlandmark)
    · obtain ⟨x, hx, hprefix⟩ := List.any_eq_true.1 hany
      have hlonger : other <+: x.1 := h.trans (List.isPrefixOf_iff_prefix.1 hprefix)
      exact .inr (List.any_eq_true.2 ⟨x, hx, List.isPrefixOf_iff_prefix.2 hlonger⟩)

namespace Writes

variable {content path : String} {after : FileTree} {place rest : List String}
  {asDirectory : Bool}

lemma entry?_self (h : Writes t names content after) :
    after.entry? names = some (.text content) := by
  rw [h.after_eq]
  exact entry?_put t names _

/-- What stands under other names is the same as before. -/
lemma entry?_of_ne (h : Writes t names content after) (hne : other ≠ names) :
    after.entry? other = t.entry? other := by
  obtain ⟨⟨dir, last, hdir, hnames⟩, -, rfl⟩ := h
  have hholds : (isLandmark other ||
      (t.put names (.text content)).entries.any fun x => other.isPrefixOf x.1) =
      (isLandmark other || t.entries.any fun x => other.isPrefixOf x.1) := by
    rw [Bool.eq_iff_iff]
    constructor
    · intro hafter
      rcases Bool.or_eq_true _ _ ▸ hafter with hlandmark | hany
      · rw [hlandmark, Bool.true_or]
      obtain ⟨x, hx, hprefix⟩ := List.any_eq_true.1 hany
      rcases List.mem_cons.1 hx with rfl | hold
      · have hlonger : other <+: dir ++ [last] := hnames ▸ List.isPrefixOf_iff_prefix.1 hprefix
        rcases List.prefix_concat_iff.1 hlonger with heq | hparent
        · exact absurd (hnames ▸ heq) hne
        · exact isLandmark_or_any_of_longer hparent hdir
      · rw [List.any_eq_true.2 ⟨x, (List.mem_filter.1 hold).1, hprefix⟩, Bool.or_true]
    · intro hbefore
      rw [Bool.or_eq_true] at hbefore ⊢
      exact hbefore.imp_right (any_put _)
  unfold entry?
  rw [lookup_put_of_ne t _ hne, hholds]

/-- A path that leads to what is there, or to a new file, leads there as before. -/
lemma leads_after (h : Writes t names content after)
    (hleads : t.Leads place rest other asDirectory)
    (hend : asDirectory = true → t.entry? other ≠ none) :
    after.Leads place rest other asDirectory := by
  have hdirectory : ∀ {dir}, t.entry? dir = some .directory →
      after.entry? dir = some .directory := by
    intro dir hdir
    rw [h.entry?_of_ne fun heq => h.file (heq ▸ hdir), hdir]
  induction hleads with
  | stay place => exact .stay place
  | missing hplace _ => exact absurd hplace (hend rfl)
  | last hplace hshort => exact .last (hdirectory hplace) hshort
  | step hplace hshort hrest _ ih => exact .step (hdirectory hplace) hshort hrest (ih hend)

/-- A path that leads anywhere led there before. -/
lemma leads_of_after (h : Writes t names content after)
    (hleads : after.Leads place rest other asDirectory) : t.Leads place rest other asDirectory := by
  have hsame : ∀ {dir e}, after.entry? dir = e → e ≠ some (.text content) → t.entry? dir = e := by
    intro dir e hdir he
    rw [← h.entry?_of_ne, hdir]
    rintro rfl
    exact he (hdir.symm.trans h.entry?_self)
  induction hleads with
  | stay place => exact .stay place
  | missing hplace hrest => exact .missing (hsame hplace (by simp)) hrest
  | last hplace hshort => exact .last (hsame hplace (by simp)) hshort
  | step hplace hshort hrest _ ih => exact .step (hsame hplace (by simp)) hshort hrest ih

lemma locate_after (h : Writes t names content after)
    (hlocate : t.locate path = .ok (other, asDirectory))
    (hend : asDirectory = true → t.entry? other ≠ none) :
    after.locate path = .ok (other, asDirectory) := by
  obtain ⟨hpath, hleads⟩ := locate_eq_ok.1 hlocate
  exact locate_eq_ok.2 ⟨hpath, h.leads_after hleads hend⟩

lemma locate_of_after (h : Writes t names content after)
    (hlocate : after.locate path = .ok (other, asDirectory)) :
    t.locate path = .ok (other, asDirectory) := by
  obtain ⟨hpath, hleads⟩ := locate_eq_ok.1 hlocate
  exact locate_eq_ok.2 ⟨hpath, h.leads_of_after hleads⟩

/-- What a path leads to is there as before, unless it is the file that has been replaced. -/
theorem find_after (h : Writes t names content after) (hfind : t.find path = .ok f) :
    after.find path = .ok f ∨
      t.entry? names = some f ∧ after.find path = .ok (.text content) := by
  obtain ⟨other, asDirectory, hlocate, hentry⟩ := find_eq_ok.1 hfind
  have hafter := h.locate_after hlocate fun _ => by simp [hentry]
  by_cases hother : other = names
  · subst hother
    exact .inr ⟨hentry, find_eq_ok.2 ⟨other, asDirectory, hafter, h.entry?_self⟩⟩
  · exact .inl (find_eq_ok.2 ⟨other, asDirectory, hafter, (h.entry?_of_ne hother).trans hentry⟩)

/-- What a path leads to was there before, unless it is the file that has been written. -/
theorem find_of_after (h : Writes t names content after) (hfind : after.find path = .ok f) :
    t.find path = .ok f ∨
      f = .text content ∧ ∃ asDirectory, after.locate path = .ok (names, asDirectory) := by
  obtain ⟨other, asDirectory, hlocate, hentry⟩ := find_eq_ok.1 hfind
  by_cases hother : other = names
  · subst hother
    rw [h.entry?_self] at hentry
    exact .inr ⟨(Option.some.inj hentry).symm, asDirectory, hlocate⟩
  · rw [h.entry?_of_ne hother] at hentry
    exact .inl (find_eq_ok.2 ⟨other, asDirectory, h.locate_of_after hlocate, hentry⟩)

lemma isFile_after (h : Writes t names content after) (hfile : t.isFile path = true) :
    after.isFile path = true := by
  obtain ⟨f, hfind, hf⟩ := isFile_iff.1 hfile
  rcases h.find_after hfind with hsame | ⟨-, hwritten⟩
  · exact isFile_iff.2 ⟨f, hsame, hf⟩
  · exact isFile_iff.2 ⟨_, hwritten, by simp⟩

end Writes

/-- What has been written is read again. -/
theorem read_write {path content : String} {after : FileTree}
    (h : t.write path content = .ok after) : after.read path = .ok content := by
  obtain ⟨names, hlocate, hwrites⟩ := writes_of_write h
  have hafter := hwrites.locate_after hlocate (by simp)
  exact read_eq_ok.2 (find_eq_ok.2 ⟨names, false, hafter, hwrites.entry?_self⟩)

end FileTree

end SchemaCut
