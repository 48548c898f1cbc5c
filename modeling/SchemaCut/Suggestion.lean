/-!
# Suggesting a name

When a name is not found, the known name that fits it best is suggested. A name fits a query if the
letters of the query occur in it in order; the score rewards letters that start a word of the name
and letters that follow each other, and takes a little away for every letter skipped.

Upper and lower case are told apart only if the query has an upper-case letter.

The score of a name is worked out in two rows of cells, which the letters of the query take turns to
fill. The rows are handed on from letter to letter and from name to name, and what a cell says about
a run stays until it is replaced. So the score of a name may depend on the names before it, and a
score belongs to a name in a list of names.

* `scores` : the scores of the names that fit, in order.
* `bestMatch` : the name of the highest score, and of several with that score the first.
-/

namespace SchemaCut.Suggestion

/-- The part that a character plays in dividing a name into words. -/
inductive Role where
  | start
  | hardSeparator
  | softSeparator
  | upper
  | digit
  | lower
  deriving DecidableEq, Repr

/-- The role of a character. -/
def Role.of (c : Char) : Role :=
  if c = Char.ofNat 0 then .start
  else if c ∈ [' ', '/', '\\', '|', '(', ')', '[', ']', '{', '}'] then .hardSeparator
  else if c.isDigit then .digit
  else if c.isUpper then .upper
  else if c.isLower then .lower
  else if '!' ≤ c ∧ c ≤ '~' then .softSeparator
  else .lower

/-- What a letter is worth for where it stands: after `previous`. -/
def bonus (previous current : Role) : Int :=
  match previous, current with
  | .start, _ | .hardSeparator, _ => 8
  | .softSeparator, _ => 7
  | .lower, .upper | .digit, .upper => 6
  | _, _ => 0

/-- The characters of a name with the bonus of each, given the role of what stands before. -/
def marked (previous : Role) : List Char → List (Char × Int)
  | [] => []
  | c :: cs => (c, bonus previous (Role.of c)) :: marked (Role.of c) cs

/-- The characters of a name with their bonuses; that of the first counts twice. -/
def marks (name : List Char) : List (Char × Int) :=
  match marked .start name with
  | [] => []
  | (c, b) :: rest => (c, 2 * b) :: rest

/-- What is known at a place between two characters of a name about the letters of the query so far:
the best score of a way to match them that ends right before the place, and of one that ends further
before it; and the bonus that a letter gets here for going on with a run. -/
structure Cell where
  here : Int
  before : Int
  run : Int
  deriving DecidableEq, Repr

/-- The cell of a place that cannot be reached. -/
def Cell.none : Cell := ⟨-32768, -32768, 0⟩

/-- The cell of a place before any letter is matched. -/
def Cell.start : Cell := ⟨-32768, -1, 0⟩

/-- Whether two characters are the same for a query, which tells case apart if `exact`. -/
def sameLetter (exact : Bool) (a b : Char) : Bool :=
  if exact then a = b else a.toLower = b.toLower

/-- Fills a row for a letter of the query from the cell `left` on. `row` has the cells behind that
one as they are, `previous` the cells of the letter before from the same place on, and `ms` the
characters behind the place. -/
def fillFrom (exact : Bool) (letter : Char) (left : Cell) (row previous : List Cell)
    (ms : List (Char × Int)) : List Cell :=
  match row, previous, ms with
  | old :: row, p :: previous, (c, bonus) :: ms =>
    let before := max (left.here - 4) (left.before - 1)
    if sameLetter exact letter c then
      let run := max left.run (max bonus 4)
      let here := max (p.here + run) (p.before + bonus) + (if letter = c then 16 else 14)
      { left with run } :: fillFrom exact letter ⟨here, before, old.run⟩ row previous ms
    else
      left :: fillFrom exact letter ⟨-32768, before, 0⟩ row previous ms
  | _, _, _ => [left]

/-- Fills a row for a letter of the query that can first be matched at a place. The cells before
that place stay as they are. -/
def fill (exact : Bool) (ms : List (Char × Int)) (letter : Char) (first : Nat)
    (row previous : List Cell) : List Cell :=
  match row.drop first with
  | [] => row
  | left :: behind =>
    row.take first ++ fillFrom exact letter left behind (previous.drop first) (ms.drop first)

/-- For each letter of the query the first place where it can be matched. -/
def firstPlaces (exact : Bool) (place : Nat) : List Char → List Char → Option (List Nat)
  | [], _ => some []
  | _ :: _, [] => none
  | q :: qs, c :: cs =>
    if sameLetter exact q c then (firstPlaces exact (place + 1) qs cs).map (place :: ·)
    else firstPlaces exact (place + 1) (q :: qs) cs

/-- The highest number of a list. -/
def highest : List Int → Int
  | [] => 0
  | x :: xs => xs.foldl max x

/-- How well a name fits a query, with the cells for the next name; `none` if it does not fit.
`used` has the cells of the names before, those of the even row first. -/
def score? (query name : String) (used : List Cell) : Option (Int × List Cell) :=
  let qs := query.toList
  let cs := name.toList
  let exact := qs.any Char.isUpper
  match firstPlaces exact 0 qs cs with
  | none => none
  | some [] => some (0, used)
  | some (first :: places) =>
    let width := cs.length + 1
    let even := List.replicate width Cell.start
    let odd := ((used.drop width ++ List.replicate width Cell.none).take width).set first Cell.none
    let (last, other) := (qs.zip (first :: places)).foldl
      (fun (previous, row) (q, place) => (fill exact (marks cs) q place row previous, previous))
      (even, odd)
    some (highest ((last.drop (places.getLastD first)).map Cell.here),
      if qs.length % 2 = 0 then last ++ other else other ++ last)

/-- The scores of the names that fit a query, where `used` has the cells of the names before. -/
def scoresFrom (query : String) (used : List Cell) : List String → List (String × Int)
  | [] => []
  | name :: names =>
    match score? query name used with
    | none => scoresFrom query used names
    | some (score, used') => (name, score) :: scoresFrom query used' names

/-- The scores of the names that fit a query. -/
def scores (query : String) (names : List String) : List (String × Int) := scoresFrom query [] names

/-- A further scored name, if its score is higher than what is kept. -/
def better (kept : Option (String × Int)) (new : String × Int) : Option (String × Int) :=
  match kept with
  | none => some new
  | some old => if old.2 < new.2 then some new else some old

/-- The name with the highest score; of several the first. -/
def best (scored : List (String × Int)) : Option String := (scored.foldl better none).map Prod.fst

/-- The name that fits a query best. -/
def bestMatch (query : String) (names : List String) : Option String := best (scores query names)

end SchemaCut.Suggestion
