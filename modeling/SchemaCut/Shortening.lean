import SchemaCut.Schema

/-!
# Shortening

Descriptions are long and say nothing about the form of an entity, so a subset may be written with
its descriptions shortened. `shorten` keeps the head and the tail of a text and puts a marker in
place of what is between them, so that the result has a given number of characters; of the kept
characters the head has half, rounded down. A text that fits stays as it is. If the marker alone
does not fit beside at least one character, the result is the start of the marker.

`Json.shortenUnder` shortens every string that stands directly under one of the listed names, at any
depth. Any other value under such a name is gone through like everything else.
-/

namespace SchemaCut

/-- How descriptions are shortened. -/
structure ShortenOptions where
  /-- The number of characters of a shortened text. -/
  maxLength : Nat := 99
  /-- The marker in place of what is left out. -/
  fill : String := "<<shortened>>"
  /-- The names whose texts are shortened. -/
  keys : List String := ["description"]
  deriving DecidableEq, Repr

/-- A text with its middle replaced by a marker, if it has more than `length` characters. -/
def shorten (text : String) (length : Nat) (fill : String) : String :=
  let cs := text.toList
  let marker := fill.toList
  if cs.length ≤ length then text
  else if length ≤ marker.length then String.ofList (marker.take length)
  else
    let kept := length - marker.length
    let head := kept / 2
    let tail := kept - head
    String.ofList (cs.take head ++ marker ++ cs.drop (cs.length - tail))

example : shorten "very very very very long string" 20 "...." = "very ver....g string" := by
  decide +kernel

/-- The text of a value directly under a listed name. -/
def ShortenOptions.apply (o : ShortenOptions) (text : String) : String :=
  shorten text o.maxLength o.fill

namespace Json

mutual

/-- A value with every string under a listed name shortened. -/
def shortenUnder (o : ShortenOptions) : Json → Json
  | .arr items => .arr (shortenItems o items)
  | .obj members => .obj (shortenMembers o members)
  | .null => .null
  | .bool b => .bool b
  | .num n => .num n
  | .str s => .str s
termination_by structural v => v

/-- `shortenUnder` at every element. -/
def shortenItems (o : ShortenOptions) : List Json → List Json
  | [] => []
  | v :: vs => shortenUnder o v :: shortenItems o vs
termination_by structural vs => vs

/-- The members with every string under a listed name shortened, and `shortenUnder` at every other
value. -/
def shortenMembers (o : ShortenOptions) : List (String × Json) → List (String × Json)
  | [] => []
  | (n, v) :: ms =>
    let v' := match v with
      | .str s => if n ∈ o.keys then .str (o.apply s) else shortenUnder o (.str s)
      | v => shortenUnder o v
    (n, v') :: shortenMembers o ms
termination_by structural ms => ms

end

end Json

/-- A schema with every definition shortened. -/
def Schema.shorten (s : Schema) (o : ShortenOptions) : Schema := s.map (Json.shortenUnder o)

namespace Schema

theorem find?_shorten (s : Schema) (o : ShortenOptions) (e : Entity) :
    (s.shorten o).find? e = (s.find? e).map (Json.shortenUnder o) :=
  find?_map _ s e

theorem contains_shorten (s : Schema) (o : ShortenOptions) (e : Entity) :
    (s.shorten o).contains e = s.contains e := by
  rw [contains, contains, find?_shorten, Option.isSome_map]

end Schema

end SchemaCut
