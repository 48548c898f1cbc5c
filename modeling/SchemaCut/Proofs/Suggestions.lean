import Mathlib.Order.Basic
import SchemaCut.Proofs.EntityOrder

/-!
# The suggested name

`Suggestion.best` goes through scored names upwards and keeps the first of the highest score.  The
same name can be found without a word about the order in which the names come: by an order of
scored names in which a higher score is more, and of two equal scores that of the lexically smaller
name (`rank`), the suggestion is the maximum.  `lastMaximum` looks for it and keeps the later one
of two that are equal; what carries the loop is `IsTop`, that nothing that has been seen beats what
is kept.

How names are scored does not matter for this.  A `Matcher` scores the names that it is given one
after the other, and may keep something from name to name.  A function of query and name is one that
keeps nothing (`Matcher.ofFunction`), the matcher of this library hands its rows on (`rowMatcher`).
With memory the score of a name belongs to a list of names, and so it is looked up in the scores of
all names of its kind (`Schema.scoreBy`).

* `lastMaximum_eq_some_iff` : the loop finds the one scored name that no other beats.
* `best_eq_lastMaximum` : going upwards, the first of the highest score is that name.
* `suggest_exact` : what is suggested, and what a failed look-up says.
-/

namespace SchemaCut
namespace Suggestion

/-! ## The order of scored names -/

/-- By score, and of equal scores by name downwards. -/
def rank (a b : String × Int) : Ordering := (compare a.2 b.2).then (compare b.1 a.1)

/-- A higher score, or the same score and a smaller name. -/
def Beats (a b : String × Int) : Prop := b.2 < a.2 ∨ a.2 = b.2 ∧ a.1 < b.1

lemma rank_eq_gt_iff {a b : String × Int} : rank a b = .gt ↔ Beats a b := by
  have hname : compare b.1 a.1 = compareOfLessAndEq b.1 a.1 := rfl
  rw [rank, Ordering.then_eq_gt, Int.compare_eq_gt, Int.compare_eq_eq, hname, compareOfLessAndEq,
    Beats]
  grind

lemma Beats.irrefl (a : String × Int) : ¬ Beats a a := by
  rintro (h | ⟨-, h⟩)
  · exact Int.lt_irrefl _ h
  · exact String.lt_irrefl _ h

lemma Beats.trans {a b c : String × Int} (hab : Beats a b) (hbc : Beats b c) : Beats a c := by
  rcases hab with hab | ⟨hab, hname⟩
  · rcases hbc with hbc | ⟨hbc, -⟩
    · exact .inl (Int.lt_trans hbc hab)
    · exact .inl (hbc ▸ hab)
  · rcases hbc with hbc | ⟨hbc, hname'⟩
    · exact .inl (hab ▸ hbc)
    · exact .inr ⟨hab.trans hbc, String.lt_trans hname hname'⟩

lemma beats_total (a b : String × Int) : Beats a b ∨ a = b ∨ Beats b a := by
  simp only [Beats, Prod.ext_iff]
  grind

/-! ## The loop -/

/-- The maximum of a list, of several equal ones the last. -/
def lastMaximum {α : Type} (cmp : α → α → Ordering) : List α → Option α
  | [] => none
  | a :: as => some (as.foldl (fun kept new => if cmp kept new = .gt then kept else new) a)

/-- One of the scored names that have been seen, and none of them beats it. -/
structure IsTop (seen : List (String × Int)) (b : String × Int) : Prop where
  mem : b ∈ seen
  unbeaten : ∀ a ∈ seen, ¬ Beats a b

lemma IsTop.unique {seen : List (String × Int)} {b c : String × Int} (hb : IsTop seen b)
    (hc : IsTop seen c) : b = c := by
  rcases beats_total b c with h | h | h
  · exact absurd h (hc.unbeaten b hb.mem)
  · exact h
  · exact absurd h (hb.unbeaten c hc.mem)

/-- Keeping the greater one of what is kept and what is new. -/
lemma IsTop.step {seen : List (String × Int)} {kept : String × Int} (h : IsTop seen kept)
    (new : String × Int) :
    IsTop (seen ++ [new]) (if rank kept new = .gt then kept else new) := by
  split
  · next hkept =>
    rw [rank_eq_gt_iff] at hkept
    refine ⟨List.mem_append_left _ h.mem, fun a ha hbeats => ?_⟩
    rcases List.mem_append.1 ha with hseen | hlast
    · exact h.unbeaten a hseen hbeats
    · rw [List.mem_singleton.1 hlast] at hbeats
      exact Beats.irrefl _ (hbeats.trans hkept)
  · next hnew =>
    rw [rank_eq_gt_iff] at hnew
    refine ⟨by simp, fun a ha hbeats => ?_⟩
    rcases List.mem_append.1 ha with hseen | hlast
    · rcases beats_total kept new with hkept | rfl | hkept
      · exact hnew hkept
      · exact h.unbeaten a hseen hbeats
      · exact h.unbeaten a hseen (hbeats.trans hkept)
    · rw [List.mem_singleton.1 hlast] at hbeats
      exact Beats.irrefl _ hbeats

lemma IsTop.run {seen : List (String × Int)} {kept : String × Int} (h : IsTop seen kept)
    (rest : List (String × Int)) :
    IsTop (seen ++ rest)
      (rest.foldl (fun kept new => if rank kept new = .gt then kept else new) kept) := by
  induction rest generalizing seen kept with
  | nil => simpa using h
  | cons new rest ih => simpa using ih (h.step new)

theorem lastMaximum_eq_some_iff {scored : List (String × Int)} {b : String × Int} :
    lastMaximum rank scored = some b ↔ IsTop scored b := by
  cases scored with
  | nil => exact iff_of_false nofun fun h => absurd h.mem List.not_mem_nil
  | cons a rest =>
    have htop : IsTop [a] a := ⟨by simp, fun x hx => by
      rw [List.mem_singleton.1 hx]
      exact Beats.irrefl a⟩
    have hrun : IsTop (a :: rest) _ := htop.run rest
    rw [lastMaximum, Option.some.injEq]
    exact ⟨fun h => h ▸ hrun, hrun.unique⟩

lemma lastMaximum_eq_none_iff {scored : List (String × Int)} :
    lastMaximum rank scored = none ↔ scored = [] := by
  cases scored <;> simp [lastMaximum]

/-- Going upwards, what comes later beats what is kept only by a higher score. -/
lemma rank_eq_gt_iff_of_lt {kept new : String × Int} (h : kept.1 < new.1) :
    rank kept new = .gt ↔ ¬ kept.2 < new.2 := by
  rw [rank_eq_gt_iff, Beats]
  grind

/-- If the names ascend, both loops keep the same. -/
lemma foldl_better {kept : String × Int} {rest : List (String × Int)}
    (h : Entries.Ascending (kept :: rest)) :
    rest.foldl better (some kept) =
      some (rest.foldl (fun kept new => if rank kept new = .gt then kept else new) kept) := by
  induction rest generalizing kept with
  | nil => rfl
  | cons new rest ih =>
    obtain ⟨hkept, hrest⟩ := List.pairwise_cons.1 h
    have hrank := rank_eq_gt_iff_of_lt (hkept new List.mem_cons_self)
    rw [List.foldl_cons, List.foldl_cons, better]
    by_cases hscore : kept.2 < new.2
    · rw [if_pos hscore, if_neg fun hgt => hrank.1 hgt hscore, ih hrest]
    · rw [if_neg hscore, if_pos (hrank.2 hscore), ih]
      exact List.pairwise_cons.2 ⟨fun x hx => hkept x (List.mem_cons_of_mem _ hx),
        (List.pairwise_cons.1 hrest).2⟩

theorem best_eq_lastMaximum {scored : List (String × Int)} (h : Entries.Ascending scored) :
    best scored = (lastMaximum rank scored).map Prod.fst := by
  cases scored with
  | nil => rfl
  | cons a rest =>
    rw [best, List.foldl_cons, better, foldl_better h, lastMaximum]

/-! ## Matchers -/

/-- Something that scores names for a query, one after the other.  What it keeps from a name is of
type `σ`. -/
structure Matcher (σ : Type) where
  start : σ
  /-- The score of a name, given what is kept from the names before it; `none` if the name does not
  fit. -/
  score? : (query name : String) → (kept : σ) → Option (Int × σ)

namespace Matcher

variable {σ : Type} (m : Matcher σ)

/-- The scores of the names that fit, in the order of the names. -/
def scoresFrom (query : String) (kept : σ) : List String → List (String × Int)
  | [] => []
  | name :: names =>
    match m.score? query name kept with
    | none => scoresFrom query kept names
    | some (score, kept') => (name, score) :: scoresFrom query kept' names

/-- A matcher that keeps nothing. -/
def ofFunction (f : (query name : String) → Option Int) : Matcher Unit where
  start := ()
  score? query name _ := (f query name).map (·, ())

variable {m}

lemma scoresFrom_ofFunction (f : (query name : String) → Option Int) (query : String)
    (kept : Unit) (names : List String) :
    (ofFunction f).scoresFrom query kept names =
      names.filterMap fun name => (f query name).map (name, ·) := by
  induction names with
  | nil => rfl
  | cons name names ih =>
    rw [scoresFrom, List.filterMap_cons]
    cases hscore : f query name with
    | none => simp [ofFunction, hscore, ← ih]
    | some score => simp [ofFunction, hscore, ← ih]

/-- Only names of the list have scores, and in its order. -/
lemma sublist_scoresFrom (query : String) (kept : σ) (names : List String) :
    ((m.scoresFrom query kept names).map Prod.fst).Sublist names := by
  induction names generalizing kept with
  | nil => exact .slnil
  | cons name names ih =>
    rw [scoresFrom]
    cases m.score? query name kept with
    | none => exact (ih kept).cons name
    | some p => exact (ih p.2).cons_cons name

end Matcher

/-- The matcher of this library: it hands on the rows that it has filled. -/
def rowMatcher : Matcher (List Cell) := ⟨[], score?⟩

lemma scoresFrom_rowMatcher (query : String) (used : List Cell) (names : List String) :
    rowMatcher.scoresFrom query used names = scoresFrom query used names := by
  induction names generalizing used with
  | nil => rfl
  | cons name names ih =>
    have hscore : rowMatcher.score? query name used = score? query name used := rfl
    rw [Matcher.scoresFrom, scoresFrom, hscore]
    cases score? query name used with
    | none => exact ih used
    | some p => exact congrArg _ (ih p.2)

end Suggestion

/-! ## Suggestions in a schema -/

namespace Schema

open Suggestion

section Matchers

variable {σ : Type} (s : Schema) (m : Matcher σ) (k : Kind) (query : String)

/-- The scores of the names of a kind that fit a query. -/
def scoredBy : List (String × Int) := m.scoresFrom query m.start (s.definitions k).names

/-- The score of a name of a kind. -/
def scoreBy (name : String) : Option Int := Entries.find? name (s.scoredBy m k query)

/-- The maximum of the scored names of a kind. -/
def suggestBy : Option String := (lastMaximum rank (s.scoredBy m k query)).map Prod.fst

/-- A name of the kind that has a score, none of which is higher, and of the names with this score
the lexically first one. -/
structure IsSuggestion (score : String → Option Int) (b : String) : Prop where
  contains : s.contains ⟨k, b⟩ = true
  scored : (score b).isSome = true
  highest : ∀ n x y, s.contains ⟨k, n⟩ = true → score b = some x → score n = some y → y ≤ x
  first : ∀ n, s.contains ⟨k, n⟩ = true → n ≠ b → score n = score b → b < n

variable {s m k query}

lemma mem_names_iff {name : String} :
    name ∈ (s.definitions k).names ↔ s.contains ⟨k, name⟩ = true :=
  NameMap.mem_names

lemma ascending_scoredBy : Entries.Ascending (s.scoredBy m k query) :=
  List.pairwise_map.1
    ((s.definitions k).nameSet.ascending.sublist (Matcher.sublist_scoresFrom _ _ _))

lemma scoreBy_eq_some_iff {n : String} {x : Int} :
    s.scoreBy m k query n = some x ↔ (n, x) ∈ s.scoredBy m k query :=
  Entries.find?_eq_some_iff ascending_scoredBy

lemma contains_of_scoreBy {n : String} {x : Int} (h : s.scoreBy m k query n = some x) :
    s.contains ⟨k, n⟩ = true :=
  mem_names_iff.1 ((Matcher.sublist_scoresFrom _ _ _).subset
    (List.mem_map_of_mem (scoreBy_eq_some_iff.1 h)))

lemma suggestBy_eq_none_iff :
    s.suggestBy m k query = none ↔
      ∀ n, s.contains ⟨k, n⟩ = true → s.scoreBy m k query n = none := by
  rw [suggestBy, Option.map_eq_none_iff, lastMaximum_eq_none_iff]
  constructor
  · intro hnone n _
    rw [scoreBy, hnone, Entries.find?_nil]
  · intro hnone
    refine List.eq_nil_iff_forall_not_mem.2 fun p hp => ?_
    have hscore : s.scoreBy m k query p.1 = some p.2 := scoreBy_eq_some_iff.2 hp
    rw [hnone p.1 (contains_of_scoreBy hscore)] at hscore
    cases hscore

/-- What no scored name beats is the suggestion. -/
lemma exists_isTop_iff {b : String} :
    (∃ x, IsTop (s.scoredBy m k query) (b, x)) ↔ s.IsSuggestion k (s.scoreBy m k query) b := by
  constructor
  · rintro ⟨x, hmem, hunbeaten⟩
    have hscore := scoreBy_eq_some_iff.2 hmem
    refine ⟨contains_of_scoreBy hscore, by rw [hscore]; rfl, fun n x' y _ hb hn => ?_,
      fun n _ hne hn => ?_⟩
    · obtain rfl := Option.some.inj (hscore.symm.trans hb)
      exact Int.not_lt.1 fun hlt => hunbeaten _ (scoreBy_eq_some_iff.1 hn) (.inl hlt)
    · have hn := scoreBy_eq_some_iff.1 (hn.trans hscore)
      rcases beats_total (n, x) (b, x) with hbeats | heq | (hlt | ⟨-, hlt⟩)
      · exact absurd hbeats (hunbeaten _ hn)
      · exact absurd (Prod.mk.inj heq).1 hne
      · exact absurd hlt (Int.lt_irrefl x)
      · exact hlt
  · rintro ⟨-, hscored, hhighest, hfirst⟩
    obtain ⟨x, hscore⟩ := Option.isSome_iff_exists.1 hscored
    refine ⟨x, scoreBy_eq_some_iff.1 hscore, ?_⟩
    rintro ⟨n, y⟩ hmem hbeats
    have hn := scoreBy_eq_some_iff.2 hmem
    have hcontains := contains_of_scoreBy hn
    rcases hbeats with hlt | ⟨heq, hlt⟩
    · exact absurd hlt (Int.not_lt.2 (hhighest n x y hcontains hscore hn))
    · have hne : n ≠ b := by
        rintro rfl
        exact String.lt_irrefl n hlt
      have hfirst := hfirst n hcontains hne (by rw [hn, hscore, show y = x from heq])
      exact String.lt_irrefl n (String.lt_trans hlt hfirst)

lemma suggestBy_eq_some_iff {b : String} :
    s.suggestBy m k query = some b ↔ s.IsSuggestion k (s.scoreBy m k query) b := by
  rw [← exists_isTop_iff, suggestBy, Option.map_eq_some_iff]
  constructor
  · rintro ⟨⟨n, x⟩, hmax, rfl⟩
    exact ⟨x, lastMaximum_eq_some_iff.1 hmax⟩
  · rintro ⟨x, htop⟩
    exact ⟨(b, x), lastMaximum_eq_some_iff.2 htop, rfl⟩

end Matchers

variable {s : Schema} {k : Kind} {query : String}

/-- With a function as matcher the score of a name does not depend on other names. -/
lemma scoreBy_ofFunction (f : (query name : String) → Option Int) {n : String}
    (h : s.contains ⟨k, n⟩ = true) : s.scoreBy (.ofFunction f) k query n = f query n := by
  refine Option.ext fun x => ?_
  rw [scoreBy_eq_some_iff, scoredBy, Matcher.scoresFrom_ofFunction, List.mem_filterMap]
  constructor
  · rintro ⟨name, -, hname⟩
    obtain ⟨y, hy, heq⟩ := Option.map_eq_some_iff.1 hname
    obtain ⟨rfl, rfl⟩ := Prod.mk.inj heq
    exact hy
  · intro hx
    exact ⟨n, mem_names_iff.2 h, by rw [hx]; rfl⟩

lemma suggest_eq_suggestBy : s.suggest k query = s.suggestBy rowMatcher k query := by
  have hscores : scores query (s.definitions k).names = s.scoredBy rowMatcher k query :=
    (scoresFrom_rowMatcher query [] _).symm
  rw [suggest, bestMatch, hscores, best_eq_lastMaximum ascending_scoredBy, suggestBy]

lemma require_eq_error_iff {e : Entity} {f : Failure} :
    s.require e = .error f ↔
      s.contains e = false ∧ f = .unknownEntity e (s.suggest e.kind e.name) := by
  rw [require, contains]
  cases s.find? e <;> simp [eq_comm]

lemma require_eq_ok_iff {e : Entity} {definition : Json} :
    s.require e = .ok definition ↔ s.find? e = some definition := by
  rw [require]
  cases s.find? e <;> simp

/-- Whatever matcher scores the names of a kind, there is no suggestion exactly if none of them has
a score, and otherwise the suggestion is the one name that has the highest score and is the first of
those that have it.  The matcher may be any function of query and name; the library's own gives the
suggestion that the library makes.  A look-up fails exactly for what is not there, and says what is
suggested instead of it, which is a name of the same kind and another one. -/
theorem suggest_exact (s : Schema) (k : Kind) (query : String) :
    (∀ (σ : Type) (m : Matcher σ),
      (s.suggestBy m k query = none ↔
        ∀ n, s.contains ⟨k, n⟩ = true → s.scoreBy m k query n = none) ∧
      ∀ b, s.suggestBy m k query = some b ↔ s.IsSuggestion k (s.scoreBy m k query) b) ∧
    (∀ (f : (query name : String) → Option Int) (n : String), s.contains ⟨k, n⟩ = true →
      s.scoreBy (.ofFunction f) k query n = f query n) ∧
    s.suggest k query = s.suggestBy rowMatcher k query ∧
    (∀ definition, s.require ⟨k, query⟩ = .ok definition ↔ s.find? ⟨k, query⟩ = some definition) ∧
    (∀ f, s.require ⟨k, query⟩ = .error f ↔
      s.contains ⟨k, query⟩ = false ∧ f = .unknownEntity ⟨k, query⟩ (s.suggest k query)) ∧
    ∀ b, s.suggest k query = some b → s.contains ⟨k, b⟩ = true ∧
      (s.contains ⟨k, query⟩ = false → b ≠ query) := by
  refine ⟨fun σ m => ⟨suggestBy_eq_none_iff, fun b => suggestBy_eq_some_iff⟩,
    fun f n h => scoreBy_ofFunction f h, suggest_eq_suggestBy,
    fun definition => require_eq_ok_iff, fun f => require_eq_error_iff, fun b hb => ?_⟩
  rw [suggest_eq_suggestBy] at hb
  have hcontains := (suggestBy_eq_some_iff.1 hb).contains
  refine ⟨hcontains, ?_⟩
  rintro hmissing rfl
  rw [hmissing] at hcontains
  cases hcontains

/-- Two types whose names fit the query of their common letter equally well. -/
def tied : Schema :=
  ((∅ : Schema).insert ⟨.type, "ac"⟩ (.obj [])).insert ⟨.type, "ab"⟩ (.obj [])

/-- The first of two names with one score is suggested, and a look-up for the query says so. -/
theorem suggest_exact_tied :
    tied.contains ⟨.type, "ab"⟩ = true ∧ tied.contains ⟨.type, "a"⟩ = false ∧
    tied.suggest .type "a" = some "ab" ∧ "ab" ≠ "a" ∧
    tied.scoreBy rowMatcher .type "a" "ac" = tied.scoreBy rowMatcher .type "a" "ab" ∧
    tied.IsSuggestion .type (tied.scoreBy rowMatcher .type "a") "ab" ∧
    tied.require ⟨.type, "a"⟩ = .error (.unknownEntity ⟨.type, "a"⟩ (some "ab")) := by
  have hsuggest : tied.suggest .type "a" = some "ab" := by decide +kernel
  have hmissing : tied.contains ⟨.type, "a"⟩ = false := by decide +kernel
  obtain ⟨hmatchers, -, hlibrary, -, hfails, hother⟩ := suggest_exact tied .type "a"
  have hby : tied.suggestBy rowMatcher .type "a" = some "ab" := by rw [← hlibrary, hsuggest]
  have hsuggestion := ((hmatchers _ rowMatcher).2 "ab").1 hby
  refine ⟨(hother "ab" hsuggest).1, hmissing, hsuggest, (hother "ab" hsuggest).2 hmissing,
    by decide +kernel, hsuggestion, (hfails _).2 ⟨hmissing, ?_⟩⟩
  rw [hsuggest]

end Schema
end SchemaCut
