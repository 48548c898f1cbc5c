/-!
# Settings files

The values of a settings file in the TOML format. A table remembers how it came about, because that
decides what later lines of the file may add to it:

* a table in braces is complete;
* a table with a header of its own takes keys under that header only;
* a table that only occurs inside longer headers may still get a header of its own;
* a table that was made by dotted keys may get further dotted keys.

`Toml.editAt?` finds the table at the end of a path of keys, makes the tables that are missing on
the way, and changes its entries. It fails where the path or the change is not allowed.
-/

namespace SchemaCut

/-- How a table of a settings file came about. -/
inductive TableForm where
  | inBraces
  | underHeader
  | insideHeaders
  | byDottedKeys
  deriving DecidableEq, Repr

/-- A value of a settings file. -/
inductive Toml where
  | text (s : String)
  | integer (n : Int)
  /-- A double, by its bits. -/
  | float (bits : UInt64)
  | boolean (b : Bool)
  /-- A date, a time of day or both. -/
  | moment (s : String)
  | array (items : List Toml)
  | table (form : TableForm) (entries : List (String × Toml))
  /-- The tables that share a header in double brackets. -/
  | tables (elements : List Toml)
  deriving Repr, Inhabited

namespace Toml

/-- The entries of a table. -/
abbrev Table := List (String × Toml)

/-- Replaces the value of a key. -/
def replace (key : String) (v : Toml) (entries : Table) : Table :=
  entries.map fun e => if e.1 = key then (key, v) else e

/-- Changes the entries of the table at the end of a path. `dotted` says that the path is part of a
dotted key, not of a header. The change is given the form of the table it is made to. -/
def editAt? (dotted : Bool) (edit : TableForm → Table → Option Table) (form : TableForm)
    (entries : Table) : (path : List String) → Option Table
  | [] => edit form entries
  | key :: path =>
    match entries.lookup key with
    | none => do
      let form' := if dotted then TableForm.byDottedKeys else .insideHeaders
      let inner ← editAt? dotted edit form' [] path
      return entries ++ [(key, .table form' inner)]
    | some (.table form' inner) =>
      if form' = .inBraces ∨ (dotted ∧ form' = .underHeader) then none
      else do
        let inner' ← editAt? dotted edit form' inner path
        return replace key (.table form' inner') entries
    | some (.tables elements) =>
      match elements.getLast? with
      | some (.table form' inner) => do
        let inner' ← editAt? dotted edit form' inner path
        return replace key (.tables (elements.dropLast ++ [.table form' inner'])) entries
      | _ => none
    | some _ => none

/-- Adds a key to the table that is open, under a path of dotted keys. A key is given once. -/
def addKey? (path : List String) (key : String) (v : Toml) (entries : Table) : Option Table :=
  editAt? true (fun form inner =>
    if (form = .byDottedKeys) = path.isEmpty then none
    else if (inner.lookup key).isSome then none
    else some (inner ++ [(key, v)])) .underHeader entries path

/-- Opens the table of a header. A table gets its place among the others by its own header. -/
def openTable? (path : List String) (key : String) (entries : Table) : Option Table :=
  editAt? false (fun _ outer =>
    match outer.lookup key with
    | none => some (outer ++ [(key, .table .underHeader [])])
    | some (.table .insideHeaders inner) =>
      some (outer.filter (·.1 ≠ key) ++ [(key, .table .underHeader inner)])
    | some _ => none) .underHeader entries path

/-- Opens a new table of a header in double brackets. -/
def openElement? (path : List String) (key : String) (entries : Table) : Option Table :=
  editAt? false (fun _ outer =>
    match outer.lookup key with
    | none => some (outer ++ [(key, .tables [.table .underHeader []])])
    | some (.tables elements) =>
      some (replace key (.tables (elements ++ [.table .underHeader []])) outer)
    | some _ => none) .underHeader entries path

end Toml

end SchemaCut
