import SchemaCut.NameSet

/-!
# Maps from names

A `NameMap α` gives a value to finitely many names. It is held as the list of its entries in
ascending order of names, so it is determined by its look-ups (`NameMap.ext_find?`) and has one
order in which it can be written.

The operations on plain entry lists come first, because the members of a document object are such
a list as well: `Entries.put` sets the value of a name, and `Entries.ofList` keeps the last value
of each name.

* `Entries.find?_put` : the look-up after setting a name.
* `Entries.ofList_of_ascending` : a list that is ascending already is kept as it is.
* `NameMap.find?_insert`, `NameMap.find?_erase`, `NameMap.find?_map` : the look-up after each
  operation.
-/

namespace SchemaCut

universe u v

/-! ## Entry lists -/

namespace Entries

variable {α : Type u} {β : Type v}

/-- The names of an entry list ascend strictly. -/
def Ascending (es : List (String × α)) : Prop :=
  es.Pairwise fun a b => a.1 < b.1

/-- Sets the value of a name in an ascending entry list. -/
def put (n : String) (a : α) : List (String × α) → List (String × α)
  | [] => [(n, a)]
  | e :: es =>
    if n < e.1 then (n, a) :: e :: es
    else if n = e.1 then (n, a) :: es
    else e :: put n a es

/-- The entries of a list in ascending order, each name with the last value given for it. -/
def ofList (es : List (String × α)) : List (String × α) :=
  es.foldl (fun acc e => put e.1 e.2 acc) []

/-- The value of the first entry with a name. -/
def find? (n : String) (es : List (String × α)) : Option α :=
  es.lookup n

@[simp] theorem find?_nil (n : String) : find? n ([] : List (String × α)) = none := rfl

theorem find?_cons (n : String) (e : String × α) (es : List (String × α)) :
    find? n (e :: es) = if n = e.1 then some e.2 else find? n es := by
  obtain ⟨m, a⟩ := e
  by_cases h : n = m
  · subst h; simp [find?]
  · have hb : (n == m) = false := by simpa using h
    simp [find?, List.lookup_cons, h, hb]

theorem mem_of_find?_eq_some {n : String} {a : α} {es : List (String × α)}
    (h : find? n es = some a) : (n, a) ∈ es := by
  induction es with
  | nil => simp at h
  | cons e es ih =>
    rw [find?_cons] at h
    split at h
    · next hn => cases h; simp [hn]
    · exact List.mem_cons_of_mem _ (ih h)

theorem find?_eq_none_iff {n : String} {es : List (String × α)} :
    find? n es = none ↔ n ∉ es.map Prod.fst := by
  induction es with
  | nil => simp
  | cons e es ih =>
    rw [find?_cons]
    split
    · next hn => simp [hn]
    · next hn => simp [ih, hn]

theorem find?_eq_some_iff {n : String} {a : α} {es : List (String × α)} (h : Ascending es) :
    find? n es = some a ↔ (n, a) ∈ es := by
  refine ⟨mem_of_find?_eq_some, fun hm => ?_⟩
  induction es with
  | nil => simp at hm
  | cons e es ih =>
    obtain ⟨hlt, h⟩ := List.pairwise_cons.1 h
    rw [find?_cons]
    rcases List.mem_cons.1 hm with rfl | hm
    · simp
    · have hlt : e.1 < n := hlt _ hm
      have hne : n ≠ e.1 := fun he => String.lt_irrefl n (he ▸ hlt)
      rw [if_neg hne]
      exact ih h hm

theorem mem_put {n : String} {a : α} {x : String × α} {es : List (String × α)}
    (hx : x ∈ put n a es) : x = (n, a) ∨ x ∈ es := by
  induction es with
  | nil => simpa [put] using hx
  | cons e es ih =>
    simp only [put] at hx
    split at hx
    · simpa using hx
    · split at hx
      · rcases List.mem_cons.1 hx with h | h
        · exact .inl h
        · exact .inr (List.mem_cons_of_mem _ h)
      · rcases List.mem_cons.1 hx with h | h
        · exact .inr (h ▸ List.mem_cons_self)
        · exact (ih h).imp id (List.mem_cons_of_mem _)

theorem Ascending.put {n : String} {a : α} {es : List (String × α)} (h : Ascending es) :
    Ascending (put n a es) := by
  induction es with
  | nil => simp [Entries.put, Ascending]
  | cons e es ih =>
    obtain ⟨hlt, htail⟩ := List.pairwise_cons.1 h
    simp only [Entries.put]
    split
    · next hn =>
      refine List.pairwise_cons.2 ⟨fun x hx => ?_, h⟩
      rcases List.mem_cons.1 hx with rfl | hx
      · exact hn
      · exact String.lt_trans hn (hlt x hx)
    · next hn =>
      split
      · next he =>
        exact List.pairwise_cons.2 ⟨fun x hx => he ▸ hlt x hx, htail⟩
      · next he =>
        refine List.pairwise_cons.2 ⟨fun x hx => ?_, ih htail⟩
        rcases mem_put hx with rfl | hx
        · grind
        · exact hlt x hx

theorem find?_put (n m : String) (a : α) (es : List (String × α)) :
    find? m (put n a es) = if m = n then some a else find? m es := by
  induction es with
  | nil => simp [put, find?_cons]
  | cons e es ih =>
    simp only [put]
    split
    · rw [find?_cons]
    · split
      · next he => grind [find?_cons]
      · next he => grind [find?_cons]

theorem ascending_foldl_put {es acc : List (String × α)} (h : Ascending acc) :
    Ascending (es.foldl (fun acc e => Entries.put e.1 e.2 acc) acc) := by
  induction es generalizing acc with
  | nil => exact h
  | cons e es ih => exact ih h.put

theorem ascending_ofList (es : List (String × α)) : Ascending (ofList es) :=
  ascending_foldl_put .nil

theorem put_of_gt {n : String} {a : α} {es : List (String × α)} (h : ∀ e ∈ es, e.1 < n) :
    put n a es = es ++ [(n, a)] := by
  induction es with
  | nil => rfl
  | cons e es ih =>
    have he := h e List.mem_cons_self
    have hlt : ¬ n < e.1 := fun hn => String.lt_irrefl n (String.lt_trans hn he)
    have hne : n ≠ e.1 := fun hn => String.lt_irrefl n (hn ▸ he)
    simp [put, hlt, hne, ih fun x hx => h x (List.mem_cons_of_mem _ hx)]

theorem foldl_put_of_ascending {es acc : List (String × α)} (h : Ascending (acc ++ es)) :
    es.foldl (fun acc e => put e.1 e.2 acc) acc = acc ++ es := by
  induction es generalizing acc with
  | nil => simp
  | cons e es ih =>
    have hput : put e.1 e.2 acc = acc ++ [e] :=
      put_of_gt fun x hx => (List.pairwise_append.1 h).2.2 x hx e List.mem_cons_self
    rw [List.foldl_cons, hput, ih (by simpa using h)]
    simp

theorem ofList_of_ascending {es : List (String × α)} (h : Ascending es) : ofList es = es :=
  foldl_put_of_ascending h

theorem eq_of_find?_eq {xs ys : List (String × α)} (hx : Ascending xs) (hy : Ascending ys)
    (h : ∀ n, find? n xs = find? n ys) : xs = ys := by
  have nodup {es : List (String × α)} (he : Ascending es) : es.Nodup :=
    he.imp fun hab => by rintro rfl; exact String.lt_irrefl _ hab
  have asymm : ∀ a b : String × α, a ∈ xs → b ∈ ys → a.1 < b.1 → b.1 < a.1 → a = b :=
    fun a b _ _ hab hba => absurd (String.lt_trans hab hba) (String.lt_irrefl a.1)
  refine List.Perm.eq_of_pairwise asymm hx hy ?_
  refine (List.perm_ext_iff_of_nodup (nodup hx) (nodup hy)).2 fun e => ?_
  rw [← find?_eq_some_iff hx, ← find?_eq_some_iff hy, h]

end Entries

/-! ## Maps -/

/-- A finite map from names, as the ascending list of its entries. -/
structure NameMap (α : Type u) where
  entries : List (String × α)
  ascending : Entries.Ascending entries

namespace NameMap

variable {α : Type u} {β : Type v}

instance [DecidableEq α] : DecidableEq (NameMap α) := fun p q =>
  if h : p.entries = q.entries then isTrue (by cases p; cases q; simp_all)
  else isFalse fun he => h (he ▸ rfl)

instance : EmptyCollection (NameMap α) := ⟨⟨[], .nil⟩⟩

instance : Inhabited (NameMap α) := ⟨∅⟩

/-- The value of a name. -/
def find? (p : NameMap α) (n : String) : Option α := Entries.find? n p.entries

/-- Whether a name has a value. -/
def contains (p : NameMap α) (n : String) : Bool := (p.find? n).isSome

/-- Sets the value of a name. -/
def insert (p : NameMap α) (n : String) (a : α) : NameMap α :=
  ⟨Entries.put n a p.entries, p.ascending.put⟩

/-- Takes a name out. -/
def erase (p : NameMap α) (n : String) : NameMap α :=
  ⟨p.entries.filter (·.1 ≠ n), p.ascending.filter _⟩

/-- The map of the listed entries; of two values for one name the later counts. -/
def ofList (es : List (String × α)) : NameMap α :=
  ⟨Entries.ofList es, Entries.ascending_ofList es⟩

/-- Changes every value by a function of its name and itself. -/
def mapNamed (f : String → α → β) (p : NameMap α) : NameMap β :=
  ⟨p.entries.map fun e => (e.1, f e.1 e.2), List.pairwise_map.2 (p.ascending.imp id)⟩

/-- Changes every value. -/
def map (f : α → β) (p : NameMap α) : NameMap β := p.mapNamed fun _ => f

/-- The entries whose name satisfies a test. -/
def restrict (p : NameMap α) (keep : String → Bool) : NameMap α :=
  ⟨p.entries.filter fun e => keep e.1, p.ascending.filter _⟩

/-- The names that have a value, in ascending order. -/
def names (p : NameMap α) : List String := p.entries.map Prod.fst

/-- The set of the names that have a value. -/
def nameSet (p : NameMap α) : NameSet := ⟨p.names, List.pairwise_map.2 p.ascending⟩

/-- The number of entries. -/
def size (p : NameMap α) : Nat := p.entries.length

theorem ext_find? {p q : NameMap α} (h : ∀ n, p.find? n = q.find? n) : p = q := by
  have := Entries.eq_of_find?_eq p.ascending q.ascending h
  cases p; cases q; simp_all

@[simp] theorem find?_empty (n : String) : (∅ : NameMap α).find? n = none := rfl

theorem find?_insert (p : NameMap α) (n m : String) (a : α) :
    (p.insert n a).find? m = if m = n then some a else p.find? m :=
  Entries.find?_put n m a p.entries

theorem find?_eq_some_iff {p : NameMap α} {n : String} {a : α} :
    p.find? n = some a ↔ (n, a) ∈ p.entries :=
  Entries.find?_eq_some_iff p.ascending

theorem mem_names {p : NameMap α} {n : String} : n ∈ p.names ↔ p.contains n = true := by
  rw [names, contains, ← Decidable.not_iff_not, ← Entries.find?_eq_none_iff, find?]
  simp

@[simp] theorem mem_nameSet {p : NameMap α} {n : String} :
    n ∈ p.nameSet ↔ p.contains n = true :=
  mem_names

theorem find?_restrict (p : NameMap α) (keep : String → Bool) (n : String) :
    (p.restrict keep).find? n = if keep n then p.find? n else none := by
  apply Option.ext
  intro a
  rw [find?_eq_some_iff]
  by_cases h : keep n
  · simp [restrict, h, find?_eq_some_iff]
  · simp [restrict, h]

theorem find?_erase (p : NameMap α) (n m : String) :
    (p.erase n).find? m = if m = n then none else p.find? m := by
  apply Option.ext
  intro a
  rw [find?_eq_some_iff]
  by_cases h : m = n
  · simp [erase, h]
  · simp [erase, h, find?_eq_some_iff]

theorem find?_mapNamed (f : String → α → β) (p : NameMap α) (n : String) :
    (p.mapNamed f).find? n = (p.find? n).map (f n) := by
  show Entries.find? n (p.entries.map _) = (Entries.find? n p.entries).map (f n)
  induction p.entries with
  | nil => rfl
  | cons e es ih =>
    rw [List.map_cons, Entries.find?_cons, Entries.find?_cons, ih]
    by_cases h : n = e.1
    · simp [h]
    · simp [h]

theorem find?_map (f : α → β) (p : NameMap α) (n : String) :
    (p.map f).find? n = (p.find? n).map f :=
  find?_mapNamed (fun _ => f) p n

end NameMap

end SchemaCut
