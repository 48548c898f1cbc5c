import SchemaCut.Toml.NumberReader

/-!
# Reading settings files

A settings file is read line by line: a header opens a table, a key gives a value to the open table,
and a number sign starts a comment. Within brackets an array may run over several lines and end with
a comma; a table in braces stays on one line and does not.

A table may stand for a moment: then its first key is a marker, and the value of that key is the
text of the moment.

`Toml.ofText?` gives the table that a text stands for, and nothing if the text is no settings file.
-/

namespace SchemaCut.Toml

/-- The number of arrays and tables in braces that may stand inside one another. -/
def maxDepth : Nat := 79

/-- Whether a character may stand in a key without quotes. -/
def isBare (c : Char) : Bool := c.isAlphanum || c = '_' || c = '-'

/-- The text from its first character on that is no white space of a line. -/
def skipGap (cs : List Char) : Rest cs.length := skipWhile isGap cs

/-- The text from its first character on that is no white space, line break or comment. -/
def skipLines (cs : List Char) : Rest cs.length :=
  match cs with
  | [] => Rest.all []
  | c :: cs =>
    if isGap c || c = '\n' then (skipLines cs).behind
    else if c = '\r' ∧ cs.head? = some '\n' then (skipLines cs).behind
    else if c = '#' then
      let ⟨ds, h⟩ := skipWhile isPlain cs
      ((skipLines ds).widen h).behind
    else Rest.all (c :: cs)
termination_by cs.length
decreasing_by
  · simp
  · simp
  · simp only [List.length_cons]; omega

/-- The text behind the end of a line, at whose end a comment may stand. -/
def endLine? (cs : List Char) : Option (Rest cs.length) :=
  let ⟨ds, h⟩ := skipGap cs
  let ⟨es, h'⟩ : Rest ds.length :=
    if ds.head? = some '#' then skipWhile isPlain ds else Rest.all ds
  match es, h' with
  | [], _ => some ⟨[], Nat.zero_le _⟩
  | e :: es, h' => (readBreak (e :: es)).map fun p => ⟨p.rest, by have := p.shorter; omega⟩

/-! ## Keys -/

/-- Reads a key that is no dotted key. -/
def readSimpleKey : Reader String
  | [] => none
  | c :: cs =>
    if c = '"' ∨ c = '\'' then readLineString (c :: cs)
    else if isBare c then
      some (.ofRest (String.ofList (c :: cs.takeWhile isBare)) (skipWhile isBare cs))
    else none

/-- Reads what follows the first part of a key: the further parts, each after a dot. -/
def readDotted (cs : List Char) : Option (List String × Rest cs.length) :=
  match skipGap cs with
  | ⟨c :: ds, h⟩ =>
    if c = '.' then
      match skipGap ds with
      | ⟨es, h'⟩ =>
        match readSimpleKey es with
        | none => none
        | some p =>
          have hp : p.rest.length < cs.length := by
            have := p.shorter; simp only [List.length_cons] at h; omega
          match readDotted p.rest with
          | none => none
          | some (parts, ⟨rest, h''⟩) =>
            some (p.value :: parts, ⟨rest, Nat.le_trans h'' (Nat.le_of_lt hp)⟩)
    else some ([], ⟨c :: ds, h⟩)
  | ⟨[], _⟩ => some ([], ⟨[], Nat.zero_le _⟩)
termination_by cs.length

/-- The number of parts that a key may have. -/
def maxParts : Nat := 79

/-- Reads a key: the parts before the last, and the last. -/
def readKey : Reader (List String × String) := fun cs => do
  let ⟨ds, h⟩ := skipGap cs
  let p ← readSimpleKey ds
  let (parts, ⟨rest, h'⟩) ← readDotted p.rest
  let all := p.value :: parts
  if maxParts < all.length then failure
  return ⟨(all.dropLast, all.getLastD ""), rest, by have := p.shorter; omega⟩

/-! ## Values -/

/-- Reads the elements of an array from behind the opening bracket or a comma. -/
def readElements (read : Reader Toml) (n : Nat) (done : List Toml) (cs : List Char)
    (h : cs.length < n) : Option (Parsed (List Toml) n) :=
  match skipLines cs with
  | ⟨[], _⟩ => none
  | ⟨c :: ds, h₁⟩ =>
    if c = ']' then some ⟨done.reverse, ds, length_lt_of_cons h h₁⟩
    else
      match read (c :: ds) with
      | none => none
      | some p =>
        match skipLines p.rest with
        | ⟨[], _⟩ => none
        | ⟨d :: es, h₂⟩ =>
          have hes : es.length < cs.length := by
            have := p.shorter; simp only [List.length_cons] at *; omega
          if d = ']' then some ⟨(p.value :: done).reverse, es, Nat.lt_trans hes h⟩
          else if d = ',' then
            readElements read n (p.value :: done) es (Nat.lt_trans hes h)
          else none
termination_by cs.length

/-- Reads a key and its value. -/
def readPair (read : Reader Toml) : Reader ((List String × String) × Toml) := fun cs => do
  let k ← readKey cs
  let p ← readChar '=' k.rest
  let ⟨ds, h⟩ := skipGap p.rest
  let v ← read ds
  return ⟨(k.value, v.value), v.rest, by
    have := k.shorter; have := p.shorter; have := v.shorter; omega⟩

/-- Reads the keys of a table in braces from behind the opening brace or a comma. -/
def readPairs (read : Reader Toml) (n : Nat) (entries : Table) (cs : List Char)
    (h : cs.length < n) : Option (Parsed Table n) :=
  match readPair read cs with
  | none => none
  | some p =>
    match addKey? p.value.1.1 p.value.1.2 p.value.2 entries with
    | none => none
    | some entries' =>
      match skipGap p.rest with
      | ⟨[], _⟩ => none
      | ⟨c :: ds, h₁⟩ =>
        have hds : ds.length < cs.length := by
          have := p.shorter; simp only [List.length_cons] at *; omega
        if c = '}' then some ⟨entries', ds, Nat.lt_trans hds h⟩
        else if c = ',' then readPairs read n entries' ds (Nat.lt_trans hds h)
        else none
termination_by cs.length

/-- Reads one of the words for truth values. -/
def readTruth : Reader Toml
  | 't' :: 'r' :: 'u' :: 'e' :: cs =>
    some (Parsed.ofRest (.boolean true) (Rest.all cs)).behind.behind.behind
  | 'f' :: 'a' :: 'l' :: 's' :: 'e' :: cs =>
    some (Parsed.ofRest (.boolean false) (Rest.all cs)).behind.behind.behind.behind
  | _ => none

/-- Reads a value; `room` arrays and tables in braces may be opened. -/
def readValue (room : Nat) (cs : List Char) : Option (Parsed Toml cs.length) :=
  match cs with
  | [] => none
  | c :: ds =>
    if c = '[' then
      match room with
      | 0 => none
      | room + 1 => (readElements (readValue room) (c :: ds).length [] ds (length_lt_cons c ds)).map
          fun p => p.map Toml.array
    else if c = '{' then
      match room with
      | 0 => none
      | room + 1 =>
        match skipGap ds with
        | ⟨[], _⟩ => none
        | ⟨e :: es, h⟩ =>
          if e = '}' then
            some ⟨.table .inBraces [], es, by simp only [List.length_cons] at *; omega⟩
          else
            (readPairs (readValue room) (ds.length + 1) [] (e :: es) (Nat.lt_succ_of_le h)).map
              fun p => p.map (Toml.table .inBraces)
    else if c = '"' ∨ c = '\'' then (readString (c :: ds)).map fun p => p.map Toml.text
    else if c = 't' ∨ c = 'f' then readTruth (c :: ds)
    else
      match readMoment (c :: ds) with
      | some p => some p
      | none => readNumber (c :: ds)

/-! ## Lines -/

/-- What the lines read so far say. -/
structure Draft where
  root : Table := []
  /-- The path of the header that is open. -/
  header : List String := []

/-- Adds a key to the open table. -/
def Draft.addKey? (d : Draft) (path : List String) (key : String) (v : Toml) : Option Draft := do
  let root ← editAt? false (fun _ entries => Toml.addKey? path key v entries) .underHeader d.root
    d.header
  return { d with root }

/-- Opens the table of a header. -/
def Draft.open? (d : Draft) (double : Bool) (path : List String) (key : String) : Option Draft := do
  let root ← if double then openElement? path key d.root else openTable? path key d.root
  return { root, header := path ++ [key] }

/-- Reads a header from behind its first bracket. -/
def readHeader : Reader (Bool × List String × String)
  | [] => none
  | c :: cs =>
    if c = '[' then do
      let k ← readKey cs
      let p ← readChar ']' k.rest
      let q ← readChar ']' p.rest
      return ⟨(true, k.value), q.rest, by
        have := k.shorter; have := p.shorter; have := q.shorter; simp; omega⟩
    else do
      let k ← readKey (c :: cs)
      let p ← readChar ']' k.rest
      return ⟨(false, k.value), p.rest, by have := k.shorter; have := p.shorter; omega⟩

/-- Reads a line that is not empty: a header or a key with its value. -/
def readLine (d : Draft) : Reader Draft
  | [] => none
  | c :: cs =>
    if c = '[' then do
      let p ← readHeader cs
      let ⟨rest, h⟩ ← endLine? p.rest
      let d' ← d.open? p.value.1 p.value.2.1 p.value.2.2
      return ⟨d', rest, by have := p.shorter; simp; omega⟩
    else do
      let p ← readPair (readValue maxDepth) (c :: cs)
      let ⟨rest, h⟩ ← endLine? p.rest
      let d' ← d.addKey? p.value.1.1 p.value.1.2 p.value.2
      return ⟨d', rest, by have := p.shorter; omega⟩

/-- Reads the lines that are left. -/
def readRest (d : Draft) (cs : List Char) : Option Draft :=
  match skipLines cs with
  | ⟨[], _⟩ => some d
  | ⟨c :: ds, _h⟩ =>
    match readLine d (c :: ds) with
    | none => none
    | some p => readRest p.value p.rest
termination_by cs.length
decreasing_by have := p.shorter; omega

/-! ## Tables that stand for moments -/

/-- The first key of a table that stands for a moment. -/
def momentKey : String := "$__toml_private_datetime"

mutual

/-- Puts moments in the place of the tables that stand for them. -/
def settle? : Toml → Option Toml
  | .table form entries =>
    match entries.head? with
    | some (key, .text s) =>
      if key = momentKey then momentOfText? s else (settleEntries? entries).map (.table form)
    | some (key, _) =>
      if key = momentKey then none else (settleEntries? entries).map (.table form)
    | none => some (.table form [])
  | .array items => (settleItems? items).map .array
  | .tables elements => (settleItems? elements).map .tables
  | v => some v
termination_by structural v => v

/-- `settle?` at every element. -/
def settleItems? : List Toml → Option (List Toml)
  | [] => some []
  | v :: vs => do return (← settle? v) :: (← settleItems? vs)
termination_by structural vs => vs

/-- `settle?` at every entry. -/
def settleEntries? : List (String × Toml) → Option (List (String × Toml))
  | [] => some []
  | (n, v) :: es => do return (n, ← settle? v) :: (← settleEntries? es)
termination_by structural es => es

end

/-- The table that a text stands for. A byte order mark at its start does not count. -/
def ofText? (text : String) : Option Table := do
  let cs := match text.toList with
    | '\ufeff' :: cs => cs
    | cs => cs
  let draft ← readRest {} cs
  match ← settle? (.table .underHeader draft.root) with
  | .table _ entries => some entries
  | _ => none

end SchemaCut.Toml
