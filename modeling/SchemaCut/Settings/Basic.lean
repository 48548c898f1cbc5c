import SchemaCut.NameMap
import SchemaCut.Text.LowerCase
import SchemaCut.Text.Parsed

/-!
# Settings

Settings come from several layers. A `Setting` is a value in such a layer, and remembers where it
was set, for messages. Later layers are laid over earlier ones: the entries of a table are laid over
the table that is there, and any other value replaces what is there. Names of settings do not tell
upper and lower case apart.

A `Place` says where in the tree a value goes. Setting a value at a place makes the tables and lists
on the way that are missing, and puts them where other values stood.

* `Setting.layOver` : lays a value over an entry of a table.
* `Place.set` : sets a value at a place.
-/

namespace SchemaCut

/-- A value in the settings, with the file or other source that it is from. -/
inductive Setting where
  /-- The place of a list element that was not given. -/
  | missing
  | boolean (origin : String) (b : Bool)
  | integer (origin : String) (n : Int)
  /-- A double, by its bits. -/
  | float (origin : String) (bits : UInt64)
  | text (origin : String) (s : String)
  /-- The empty value of a document. -/
  | null (origin : String)
  | list (origin : Option String) (items : List Setting)
  | table (origin : Option String) (entries : List (String × Setting))
  deriving Repr, Inhabited

namespace Setting

/-- The entries of a table; no other value has entries. -/
def entries : Setting → List (String × Setting)
  | .table _ es => es
  | _ => []

mutual

/-- Lays a value over the entry of a name. -/
def layOver (name : String) (value : Setting) (into : List (String × Setting)) :
    List (String × Setting) :=
  match value with
  | .table _ es =>
    let target := (Entries.find? (Text.lowerCase name) into).getD (.table none [])
    Entries.put (Text.lowerCase name) (layAllOver es target) into
  | .missing => Entries.put (Text.lowerCase name) .missing into
  | .boolean o b => Entries.put (Text.lowerCase name) (.boolean o b) into
  | .integer o n => Entries.put (Text.lowerCase name) (.integer o n) into
  | .float o b => Entries.put (Text.lowerCase name) (.float o b) into
  | .text o s => Entries.put (Text.lowerCase name) (.text o s) into
  | .null o => Entries.put (Text.lowerCase name) (.null o) into
  | .list o is => Entries.put (Text.lowerCase name) (.list o is) into
termination_by structural value

/-- Lays the entries of a table over a value. A value that is no table gives way to the first of
them. -/
def layAllOver (es : List (String × Setting)) (target : Setting) : Setting :=
  match es with
  | [] => target
  | (n, v) :: es =>
    let target' := match target with
      | .table o into => .table o (layOver n v into)
      | _ => .table none (layOver n v [])
    layAllOver es target'
termination_by structural es

end

end Setting

/-! ## Places -/

/-- A place in the tree of settings. -/
inductive Place where
  | name (n : String)
  | child (parent : Place) (n : String)
  /-- An element of a list; a negative index counts from the end. -/
  | element (parent : Place) (index : Int)
  deriving DecidableEq, Repr

namespace Place

/-- The position that an index means in a list. -/
def position (index : Int) (length : Nat) : Nat :=
  if 0 ≤ index then index.toNat else length - index.natAbs

/-- Changes an element of a list, which is made long enough for it. -/
def atElement (index : Int) (f : Setting → Setting) (s : Setting) : Setting :=
  let (origin, items) := match s with
    | .list o is => (o, is)
    | _ => (none, [])
  let i := position index items.length
  let items := items ++ List.replicate (i + 1 - items.length) .missing
  .list origin (items.modify i f)

/-- Changes an entry of a table. -/
def atEntry (n : String) (f : Setting → Setting) (s : Setting) : Setting :=
  let (origin, es) := match s with
    | .table o es => (o, es)
    | _ => (none, [])
  let n := Text.lowerCase n
  .table origin (Entries.put n (f ((Entries.find? n es).getD .missing)) es)

/-- Changes the value at a place. -/
def modify (f : Setting → Setting) : Place → Setting → Setting
  | .name n => atEntry n f
  | .child p n => modify (atEntry n f) p
  | .element p i => modify (atElement i f) p

/-- Sets the value at a place. -/
def set (value : Setting) : Place → Setting → Setting
  | .name n => Setting.layAllOver [(n, value)]
  | .child p n => modify (Setting.layAllOver [(n, value)]) p
  | .element p i => modify (atElement i fun _ => value) p

/-! ### Reading places -/

/-- Whether a character may stand in a name in a place. -/
def isNameChar (c : Char) : Bool := c.isAlphanum || c = ' ' || c = '_' || c = '-'

/-- The index that a text between brackets stands for. Spaces and tabs may stand around it. -/
def index? (inner : List Char) : Option Int :=
  let isSpace (c : Char) : Bool := c = ' ' || c = '\t'
  let trimmed := ((inner.dropWhile isSpace).reverse.dropWhile isSpace).reverse
  let (negative, digits) := match trimmed with
    | '-' :: ds => (true, ds)
    | ds => (false, ds)
  let n : Int := Nat.ofDigitChars 10 digits 0
  if digits.isEmpty || !digits.all Char.isDigit || Nat.pow 2 63 ≤ n then none
  else some (if negative then -n else n)

/-- Reads what follows the start of a place: children after a dot, and elements in brackets. -/
def continue? (p : Place) (cs : List Char) : Option Place :=
  match cs with
  | [] => some p
  | c :: ds =>
    if c = '.' then
      match skipWhile isNameChar ds with
      | ⟨rest, _h⟩ =>
        let name := ds.takeWhile isNameChar
        if name.isEmpty then none else continue? (.child p (String.ofList name)) rest
    else if c = '[' then
      match skipWhile (· ≠ ']') ds with
      | ⟨[], _⟩ => none
      | ⟨_ :: rest, _h⟩ =>
        match index? (ds.takeWhile (· ≠ ']')) with
        | some i => continue? (.element p i) rest
        | none => none
    else none
termination_by cs.length
decreasing_by all_goals simp only [List.length_cons] at *; omega

/-- The place that a text names: a name, followed by children and elements. -/
def ofText? (s : String) : Option Place :=
  let cs := s.toList
  let name := cs.takeWhile isNameChar
  if name.isEmpty then none
  else continue? (.name (String.ofList name)) (cs.dropWhile isNameChar)

/-- The place of a key in a layer. A key that names no place stands for itself. -/
def ofKey (key : String) : Place := (ofText? key).getD (.name key)

end Place

/-- Lays a layer over settings: each of its keys names a place. -/
def Setting.addLayer (settings : Setting) (layer : List (String × Setting)) : Setting :=
  layer.foldl (fun s (key, value) => (Place.ofKey key).set value s) settings

end SchemaCut
