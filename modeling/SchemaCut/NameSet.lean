/-!
# Sets of names

A `NameSet` is a finite set of names, held as the list of its members in ascending order of code
points. The list determines the set and the set the list, so equality of name sets is equality of
members (`NameSet.ext_mem`), and every way of filling a set gives the same value.

* `NameSet.mem_insert`, `NameSet.mem_union`, `NameSet.mem_ofList` : what each operation holds.
* `NameSet.isSubset_iff`, `NameSet.meets_iff` : what the comparisons say.
* `NameSet.size_insert` : inserting a new name adds one member.
-/

namespace SchemaCut

/-- A finite set of names, as the ascending list of its members. -/
structure NameSet where
  toList : List String
  ascending : toList.Pairwise (· < ·)
  deriving DecidableEq

namespace NameSet

/-- Puts a name into its place in an ascending list, unless it is there. -/
def place (n : String) : List String → List String
  | [] => [n]
  | m :: ms => if n < m then n :: m :: ms else if n = m then m :: ms else m :: place n ms

theorem mem_place {n x : String} {ms : List String} : x ∈ place n ms ↔ x = n ∨ x ∈ ms := by
  induction ms with
  | nil => simp [place]
  | cons m ms ih =>
    simp only [place]
    split
    · simp
    · split
      · next h => subst h; simp
      · simp only [List.mem_cons, ih]
        constructor
        · rintro (h | h | h) <;> simp [h]
        · rintro (h | h | h) <;> simp [h]

theorem pairwise_place {n : String} {ms : List String} (h : ms.Pairwise (· < ·)) :
    (place n ms).Pairwise (· < ·) := by
  induction ms with
  | nil => simp [place]
  | cons m ms ih =>
    rw [List.pairwise_cons] at h
    simp only [place]
    split
    · next hlt =>
      refine List.pairwise_cons.2 ⟨fun x hx => ?_, List.pairwise_cons.2 h⟩
      rcases List.mem_cons.1 hx with rfl | hx
      · exact hlt
      · exact String.lt_trans hlt (h.1 x hx)
    · next hlt =>
      split
      · exact List.pairwise_cons.2 h
      · next hne =>
        refine List.pairwise_cons.2 ⟨fun x hx => ?_, ih h.2⟩
        rcases mem_place.1 hx with rfl | hx
        · grind
        · exact h.1 x hx

theorem eq_of_mem_iff {xs ys : List String} (hx : xs.Pairwise (· < ·)) (hy : ys.Pairwise (· < ·))
    (h : ∀ n, n ∈ xs ↔ n ∈ ys) : xs = ys := by
  have nodup {zs : List String} (hz : zs.Pairwise (· < ·)) : zs.Nodup :=
    hz.imp fun hab => by rintro rfl; exact String.lt_irrefl _ hab
  have asymm : ∀ a b : String, a ∈ xs → b ∈ ys → a < b → b < a → a = b :=
    fun a b _ _ hab hba => absurd (String.lt_trans hab hba) (String.lt_irrefl a)
  exact List.Perm.eq_of_pairwise asymm hx hy
    ((List.perm_ext_iff_of_nodup (nodup hx) (nodup hy)).2 h)

instance : EmptyCollection NameSet := ⟨⟨[], .nil⟩⟩

instance : Membership String NameSet := ⟨fun s n => n ∈ s.toList⟩

instance (n : String) (s : NameSet) : Decidable (n ∈ s) :=
  inferInstanceAs (Decidable (n ∈ s.toList))

/-- Adds a name. -/
def insert (s : NameSet) (n : String) : NameSet :=
  ⟨place n s.toList, pairwise_place s.ascending⟩

/-- Adds a name, and says whether it was new. -/
def insertNew (s : NameSet) (n : String) : Bool × NameSet :=
  if n ∈ s then (false, s) else (true, s.insert n)

/-- The set of the listed names. -/
def ofList (ns : List String) : NameSet :=
  ns.foldl insert ∅

/-- The members of either set. -/
def union (s t : NameSet) : NameSet :=
  t.toList.foldl insert s

/-- The members that satisfy a test. -/
def filter (s : NameSet) (keep : String → Bool) : NameSet :=
  ⟨s.toList.filter keep, s.ascending.filter _⟩

/-- The number of members. -/
def size (s : NameSet) : Nat := s.toList.length

/-- Whether every member of `s` is in `t`. -/
def isSubset (s t : NameSet) : Bool := s.toList.all (· ∈ t)

/-- Whether some name is in both sets. -/
def meets (s t : NameSet) : Bool := s.toList.any (· ∈ t)

theorem mem_def {s : NameSet} {n : String} : n ∈ s ↔ n ∈ s.toList := Iff.rfl

@[simp] theorem mem_toList {s : NameSet} {n : String} : n ∈ s.toList ↔ n ∈ s := Iff.rfl

@[simp] theorem not_mem_empty (n : String) : n ∉ (∅ : NameSet) := List.not_mem_nil

@[simp] theorem mem_insert {s : NameSet} {n x : String} : x ∈ s.insert n ↔ x = n ∨ x ∈ s :=
  mem_place

theorem ext_mem {s t : NameSet} (h : ∀ n, n ∈ s ↔ n ∈ t) : s = t := by
  have := eq_of_mem_iff s.ascending t.ascending h
  cases s; cases t; simp_all

theorem mem_foldl_insert {s : NameSet} {ns : List String} {x : String} :
    x ∈ ns.foldl insert s ↔ x ∈ s ∨ x ∈ ns := by
  induction ns generalizing s with
  | nil => simp
  | cons n ns ih =>
    simp only [List.foldl_cons, ih, mem_insert, List.mem_cons]
    constructor
    · rintro ((h | h) | h) <;> simp [h]
    · rintro (h | h | h) <;> simp [h]

@[simp] theorem mem_ofList {ns : List String} {x : String} : x ∈ ofList ns ↔ x ∈ ns := by
  simp [ofList, mem_foldl_insert]

@[simp] theorem mem_union {s t : NameSet} {x : String} : x ∈ s.union t ↔ x ∈ s ∨ x ∈ t := by
  simp [union, mem_foldl_insert]

@[simp] theorem mem_filter {s : NameSet} {keep : String → Bool} {x : String} :
    x ∈ s.filter keep ↔ x ∈ s ∧ keep x = true :=
  List.mem_filter

@[simp] theorem ofList_toList (s : NameSet) : ofList s.toList = s :=
  ext_mem fun n => by simp

theorem insert_of_mem {s : NameSet} {n : String} (h : n ∈ s) : s.insert n = s :=
  ext_mem fun x => by
    rw [mem_insert]
    exact ⟨fun hx => hx.elim (fun e => e ▸ h) id, Or.inr⟩

theorem insertNew_eq (s : NameSet) (n : String) :
    s.insertNew n = (decide (n ∉ s), s.insert n) := by
  rw [insertNew]
  split
  · next h => simp [h, insert_of_mem h]
  · next h => simp [h]

theorem isSubset_iff {s t : NameSet} : s.isSubset t = true ↔ ∀ n ∈ s, n ∈ t := by
  simp [isSubset]

theorem meets_iff {s t : NameSet} : s.meets t = true ↔ ∃ n ∈ s, n ∈ t := by
  simp [meets]

theorem length_place {n : String} {ms : List String} (h : ms.Pairwise (· < ·)) :
    (place n ms).length = ms.length + if n ∈ ms then 0 else 1 := by
  induction ms with
  | nil => simp [place]
  | cons m ms ih =>
    rw [List.pairwise_cons] at h
    simp only [place]
    split
    · next hlt =>
      have : n ∉ m :: ms := by
        intro hn
        rcases List.mem_cons.1 hn with rfl | hn
        · exact String.lt_irrefl _ hlt
        · exact String.lt_irrefl _ (String.lt_trans hlt (h.1 n hn))
      simp [this]
    · split
      · next he => simp [he]
      · next hne => simp [ih h.2, hne]; omega

theorem size_insert (s : NameSet) (n : String) :
    (s.insert n).size = s.size + if n ∈ s then 0 else 1 :=
  length_place s.ascending

end NameSet

end SchemaCut
