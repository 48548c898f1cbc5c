import Mathlib.Tactic.Lemma
import SchemaCut.Shortening

/-!
# Texts cut to length

`shorten` tells three cases apart: a text that fits, a marker that leaves no room for the text, and
a marker between a head and a tail of the text.  Each case has its lemma here.  In the last one the
text is longer than the result, so head and tail never meet in it and something is left out between
them.

The lengths are natural numbers, which have no differences below zero and no largest one.
`shortenChecked` gives nothing where a difference would fall below zero or a product would need more
than 64 bits.  `shortenChecked_eq` says that this never happens, so each difference of natural
numbers in `shorten` is a true one.

* `shorten_of_le`, `shorten_of_marker`, `shorten_of_lt` : the three cases.
* `exists_ends_of_lt` : what is kept and what is left out of a text between whose ends the marker
  is.
* `length_shorten` : a text that is too long gets exactly the length that is asked for.
* `shorten_exact` : all of this together.
-/

namespace SchemaCut

variable {text fill : String} {length : Nat}

/-! ## The three cases -/

lemma shorten_of_le (hfits : text.length ≤ length) : shorten text length fill = text := by
  simp only [shorten, String.length_toList]
  rw [if_pos hfits]

/-- A marker that leaves no room is cut itself. -/
lemma shorten_of_marker (hlong : length < text.length) (hfill : length ≤ fill.length) :
    shorten text length fill = String.ofList (fill.toList.take length) := by
  simp only [shorten, String.length_toList]
  rw [if_neg (by omega), if_pos hfill]

/-- A text that is too long for a marker that fits keeps its head and its tail. -/
lemma shorten_of_lt (hlong : length < text.length) (hfill : fill.length < length) :
    shorten text length fill =
      String.ofList (text.toList.take ((length - fill.length) / 2) ++ fill.toList ++
        text.toList.drop
          (text.length - ((length - fill.length) - (length - fill.length) / 2))) := by
  simp only [shorten, String.length_toList]
  rw [if_neg (by omega), if_neg (by omega)]

/-! ## What is kept -/

/-- A list is what stands before two places of it, between them and behind them. -/
lemma take_append_between_append_drop {α : Type} (xs : List α) {m n : Nat} (h : m ≤ n) :
    xs.take m ++ (xs.take n).drop m ++ xs.drop n = xs := by
  calc
    xs.take m ++ (xs.take n).drop m ++ xs.drop n =
        (xs.take n).take m ++ (xs.take n).drop m ++ xs.drop n := by
      rw [List.take_take, Nat.min_eq_left h]
    _ = xs.take n ++ xs.drop n := by rw [List.take_append_drop]
    _ = xs := List.take_append_drop n xs

/-- The kept characters are a head and a tail of the text that leave out something between them;
of their number the head has half, rounded down, and the tail the rest. -/
lemma exists_ends_of_lt (hlong : length < text.length) (hfill : fill.length < length) :
    ∃ head removed tail : String, text = head ++ removed ++ tail ∧ removed ≠ "" ∧
      head.length = (length - fill.length) / 2 ∧
      tail.length = length - fill.length - (length - fill.length) / 2 ∧
      shorten text length fill = head ++ fill ++ tail := by
  have hresult := shorten_of_lt hlong hfill
  generalize hhead : (length - fill.length) / 2 = head at hresult ⊢
  generalize htail : length - fill.length - head = tail at hresult ⊢
  -- the head ends before the tail starts
  have hbetween : head < text.length - tail := by omega
  refine ⟨String.ofList (text.toList.take head),
    String.ofList ((text.toList.take (text.length - tail)).drop head),
    String.ofList (text.toList.drop (text.length - tail)), ?_, ?_, ?_, ?_, ?_⟩
  · rw [← String.toList_inj, String.toList_append, String.toList_append, String.toList_ofList,
      String.toList_ofList, String.toList_ofList,
      take_append_between_append_drop text.toList (Nat.le_of_lt hbetween)]
  · intro hempty
    have hlength := congrArg String.length hempty
    simp only [String.length_ofList, List.length_drop, List.length_take, String.length_toList,
      String.length_empty] at hlength
    omega
  · rw [String.length_ofList, List.length_take, String.length_toList]
    omega
  · rw [String.length_ofList, List.length_drop, String.length_toList]
    omega
  · rw [hresult, String.ofList_append, String.ofList_append, String.ofList_toList]

lemma length_shorten (hlong : length < text.length) :
    (shorten text length fill).length = length := by
  by_cases hfill : fill.length < length
  · obtain ⟨head, removed, tail, -, -, hhead, htail, hresult⟩ := exists_ends_of_lt hlong hfill
    rw [hresult, String.length_append, String.length_append, hhead, htail]
    omega
  · rw [shorten_of_marker hlong (Nat.le_of_not_lt hfill), String.length_ofList, List.length_take,
      String.length_toList]
    omega

/-! ## Checked arithmetic -/

/-- The difference of two counts, if it does not fall below zero. -/
def difference? (a b : Nat) : Option Nat := if b ≤ a then some (a - b) else none

/-- The product of two counts, if 64 bits hold it. -/
def product? (a b : Nat) : Option Nat := if a * b < Nat.pow 2 64 then some (a * b) else none

/-- `shorten` with every difference and product checked.  A character of the result may take four
bytes, so four times the length is set aside before the result is put together. -/
def shortenChecked (text : String) (length : Nat) (fill : String) : Option String :=
  if text.length ≤ length then some text
  else if length ≤ fill.length then some (String.ofList (fill.toList.take length))
  else do
    let kept ← difference? length fill.length
    let head := kept / 2
    let tail ← difference? kept head
    let _ ← product? length 4
    let skipped ← difference? text.length tail
    return String.ofList (text.toList.take head ++ fill.toList ++ text.toList.drop skipped)

lemma difference?_of_le {a b : Nat} (h : b ≤ a) : difference? a b = some (a - b) := if_pos h

lemma product?_of_lt {a b : Nat} (h : a * b < Nat.pow 2 64) : product? a b = some (a * b) :=
  if_pos h

/-- The cases before have ruled out that a difference falls below zero, and the result is shorter
than the text, so the room for it can be counted. -/
lemma shortenChecked_eq (hsize : text.length < Nat.pow 2 62) :
    shortenChecked text length fill = some (shorten text length fill) := by
  unfold shortenChecked
  split
  · next hfits => rw [shorten_of_le hfits]
  split
  · next hlong hfill => rw [shorten_of_marker (Nat.lt_of_not_le hlong) hfill]
  · next hlong hfill =>
    have hkept : difference? length fill.length = some (length - fill.length) :=
      difference?_of_le (by omega)
    have htail : difference? (length - fill.length) ((length - fill.length) / 2) =
        some (length - fill.length - (length - fill.length) / 2) :=
      difference?_of_le (Nat.div_le_self _ 2)
    have hroom : product? length 4 = some (length * 4) := by
      refine product?_of_lt ?_
      have hbound : Nat.pow 2 62 * 4 = Nat.pow 2 64 := rfl
      omega
    have hskipped : difference? text.length (length - fill.length - (length - fill.length) / 2) =
        some (text.length - (length - fill.length - (length - fill.length) / 2)) :=
      difference?_of_le (by omega)
    rw [shorten_of_lt (Nat.lt_of_not_le hlong) (Nat.lt_of_not_le hfill)]
    simp only [hkept, htail, hroom, hskipped, Option.bind_eq_bind, Option.bind_some,
      Option.pure_def]

/-- A text that fits stays as it is, and any other gets exactly the length that is asked for: it is
the start of a marker that leaves no room, or the marker between a head and a tail of the text that
leave out at least one character between them, the head having half of the kept characters, rounded
down.  For a text of fewer than `2 ^ 62` characters no difference in this falls below zero and no
product needs more than 64 bits, whatever the length and the marker. -/
theorem shorten_exact (text : String) (length : Nat) (fill : String) :
    (text.length ≤ length → shorten text length fill = text) ∧
    (length < text.length →
      (shorten text length fill).length = length ∧
      (length ≤ fill.length → shorten text length fill = String.ofList (fill.toList.take length)) ∧
      (fill.length < length →
        ∃ head removed tail : String, text = head ++ removed ++ tail ∧ removed ≠ "" ∧
          head.length = (length - fill.length) / 2 ∧
          tail.length = length - fill.length - (length - fill.length) / 2 ∧
          shorten text length fill = head ++ fill ++ tail)) ∧
    (text.length < Nat.pow 2 62 →
      shortenChecked text length fill = some (shorten text length fill)) :=
  ⟨shorten_of_le,
    fun hlong => ⟨length_shorten hlong, shorten_of_marker hlong, exists_ends_of_lt hlong⟩,
    shortenChecked_eq⟩

end SchemaCut
