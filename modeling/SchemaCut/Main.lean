import SchemaCut.CommandLine

/-!
# The program

`main` looks at the files that a call may use, lets `CommandLine.run` say what the call does, and
does it. It brings no readers for further formats of settings files, so it can use settings in the
TOML format and documents, and refuses the others.
-/

namespace SchemaCut.Main

open CommandLine

/-- What stands at a path of the file system. A file that cannot be read is as good as none. -/
def entryAt (path : String) : IO (Option FileEntry) := do
  try
    let bytes ← IO.FS.readBinFile path
    return some (match String.fromUTF8? bytes with
      | some text => .text text
      | none => .binary)
  catch
    | .inappropriateType _ 21 _ => return some .directory
    | _ => return none

/-- The names that the steps of a path lead to, one after the other. -/
def namesOn (path : String) : List (List String) :=
  let (start, steps) := FileTree.start path
  (List.range (steps.length + 1)).map fun n => (steps.take n).foldl FileTree.enter start

/-- The paths where settings may stand that are asked for at a path. -/
def settingsAt (path : String) : List String :=
  path :: (Config.candidates Setting.Format.all path).map Prod.fst

/-- The paths that a call may use. -/
def pathsOf (userFile : Option String) (args : List String) : List String :=
  let asked : List String := match Call.read args with
    | some (.subset a) =>
      a.schemaPath :: (a.output.toList ++
        a.config.toList.flatMap settingsAt)
    | _ => []
  (Config.standardPaths ++ userFile.toList).flatMap settingsAt ++ asked

/-- The part of the file system that the paths lead to. -/
def filesAt (paths : List String) : IO FileTree := do
  let mut tree := FileTree.empty
  for names in (paths.flatMap namesOn).eraseDups do
    if let some entry ← entryAt ("/".intercalate names) then
      tree := tree.put names entry
  return tree

/-- The variables of the environment, as the system gives them: each with its value behind an equals
sign, and with a zero character at its end. -/
def readEnvironment : IO (List (String × String)) := do
  try
    let bytes ← IO.FS.readBinFile "/proc/self/environ"
    let texts := ((String.fromUTF8? bytes).getD "").splitOn (String.singleton (Char.ofNat 0))
    return texts.filterMap fun text =>
      match text.splitOn "=" with
      | name :: first :: more => some (name, "=".intercalate (first :: more))
      | _ => none
  catch _ => return []

end SchemaCut.Main

open SchemaCut SchemaCut.Main

/-- Runs the program. -/
def main (args : List String) : IO UInt32 := do
  let environment ← readEnvironment
  let userFile :=
    Config.userFile? (environment.lookup "XDG_CONFIG_HOME") (environment.lookup "HOME")
  let files ← filesAt (pathsOf userFile args)
  let directory := (← IO.currentDir).toString
  let outcome := CommandLine.run { files, directory, environment, userFile } args
  let written ← match outcome.written with
    | some (path, content) =>
      try
        IO.FS.writeFile path content
        pure none
      catch e => pure (some (CommandLine.failed ("failed to write " ++ path ++ ": " ++ toString e)))
    | none => pure none
  let outcome := written.getD outcome
  IO.print outcome.stdout
  IO.eprint outcome.stderr
  return UInt32.ofNat outcome.code
