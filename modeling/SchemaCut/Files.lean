/-!
# Files

A `FileTree` is what a program sees of a file system: directories, texts, and files whose bytes are
no text. A path is written with slashes between its steps; the step `.` stays where it is and `..`
goes up. Each step but the last has to be a directory. A path that starts with a slash starts at the
root of the file system, and any other path at the working directory.

Entries are found under names. The names of the root are `/`, those of the working directory are
empty, and the directories above it have `..` for each level.

Writing replaces what a file held or makes a new file in a directory that exists; it makes no
directory.
-/

namespace SchemaCut

/-- The parts of a text that a character separates. -/
def Text.parts (separator : Char) (s : String) : List String :=
  (s.toList.splitOn separator).map String.ofList

/-- What a path may lead to. -/
inductive FileEntry where
  | text (content : String)
  /-- A file whose bytes are no UTF-8 text. -/
  | binary
  | directory
  deriving DecidableEq, Repr

/-- Why a file cannot be read or written. -/
inductive FileFault where
  | notFound
  | isDirectory
  | notDirectory
  | notText
  | nulInName
  | nameTooLong
  deriving DecidableEq, Repr

/-- The wording of a fault. -/
def FileFault.message : FileFault → String
  | .notFound => "No such file or directory (os error 2)"
  | .isDirectory => "Is a directory (os error 21)"
  | .notDirectory => "Not a directory (os error 20)"
  | .notText => "stream did not contain valid UTF-8"
  | .nulInName => "file name contained an unexpected NUL byte"
  | .nameTooLong => "File name too long (os error 36)"

/-- The files that there are, each under the names that lead to it. -/
structure FileTree where
  entries : List (List String × FileEntry)
  deriving Repr

namespace FileTree

/-- The tree with nothing in it. -/
def empty : FileTree := ⟨[]⟩

/-- Whether names are those of a directory that is always there: the root, the working directory, or
one above it. -/
def isLandmark (names : List String) : Bool := names = ["/"] || names.all (· = "..")

/-- What stands under the given names. Whatever holds an entry is a directory. -/
def entry? (t : FileTree) (names : List String) : Option FileEntry :=
  match t.entries.lookup names with
  | some e => some e
  | none =>
    if isLandmark names || t.entries.any fun e => names.isPrefixOf e.1 then some .directory
    else none

/-- Puts an entry under the given names. -/
def put (t : FileTree) (names : List String) (e : FileEntry) : FileTree :=
  ⟨(names, e) :: t.entries.filter (·.1 ≠ names)⟩

/-- The steps of a path. -/
def steps (path : String) : List String := Text.parts '/' path

/-- The names of the directory one level up. Nothing is above the root. -/
def above (names : List String) : List String :=
  if names = ["/"] then names
  else if names.all (· = "..") then names ++ [".."]
  else names.dropLast

/-- The names that a step leads to. An empty step stays where it is. -/
def enter (names : List String) (step : String) : List String :=
  if step = "" ∨ step = "." then names
  else if step = ".." then above names
  else names ++ [step]

/-- Whether a path starts at the root of the file system. -/
def isRooted (path : String) : Bool := path.toList.head? = some '/'

/-- Where a path starts, and its steps from there. -/
def start (path : String) : List String × List String :=
  if isRooted path then (["/"], (steps path).tail) else ([], steps path)

/-- Follows the steps of a path. Gives the names that lead to its end, where the last of them may
not exist, and whether the path asks for a directory there. -/
def follow (t : FileTree) (names : List String) :
    List String → Except FileFault (List String × Bool)
  | [] => .ok (names, false)
  | step :: rest =>
    match t.entry? names with
    | none => if step = "" ∧ rest.all (· = "") then .ok (names, true) else .error .notFound
    | some .directory =>
      if 255 < step.utf8ByteSize then .error .nameTooLong
      else if rest.isEmpty then .ok (enter names step, step ∈ ["", ".", ".."])
      else follow t (enter names step) rest
    | some _ => .error .notDirectory

/-- The names that a path leads to, and whether it asks for a directory. -/
def locate (t : FileTree) (path : String) : Except FileFault (List String × Bool) :=
  if path.toList.contains (Char.ofNat 0) then .error .nulInName
  else if path.isEmpty then .error .notFound
  else if 4096 ≤ path.utf8ByteSize then .error .nameTooLong
  else t.follow (start path).1 (start path).2

/-- What a path leads to. -/
def find (t : FileTree) (path : String) : Except FileFault FileEntry := do
  let (names, _) ← t.locate path
  match t.entry? names with
  | some e => return e
  | none => .error .notFound

/-- Whether a path leads to a file. -/
def isFile (t : FileTree) (path : String) : Bool :=
  match t.find path with
  | .ok .directory | .error _ => false
  | .ok _ => true

/-- Whether a path leads anywhere. -/
def hasEntry (t : FileTree) (path : String) : Bool := (t.find path).isOk

/-- The text of a file. -/
def read (t : FileTree) (path : String) : Except FileFault String := do
  match ← t.find path with
  | .text s => return s
  | .binary => .error .notText
  | .directory => .error .isDirectory

/-- A path without the slashes at its end. -/
def withoutEndSlashes (path : String) : String :=
  String.ofList (path.toList.reverse.dropWhile (· = '/')).reverse

/-- Writes a file. A path with a slash at its end asks for a directory, whatever it leads to. -/
def write (t : FileTree) (path content : String) : Except FileFault FileTree := do
  let stem := withoutEndSlashes path
  if stem.isEmpty && !path.isEmpty then .error .isDirectory
  else
    let (names, asDirectory) ← t.locate stem
    if stem ≠ path ∨ asDirectory ∨ t.entry? names = some .directory then .error .isDirectory
    else return t.put names (.text content)

end FileTree

end SchemaCut
