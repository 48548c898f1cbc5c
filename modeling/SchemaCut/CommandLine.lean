import SchemaCut.Config

/-!
# The command line

The program reads a schema from a file and writes the subset that one entity needs. `Call.read`
understands its arguments, and `run` gives everything that a call of the program does: its exit
code, what it prints, and the file that it writes. A call fails with the first of these that goes
wrong: the configuration, the schema, the root entity, the output file. Nothing is written before
all of the others have gone well.

An option that takes a value takes it from behind an equals sign or from the next argument, if that
does not look like an option. The two switches that may have a value are on without one. The
arguments are read from left to right; a call for help is answered if everything before it is in
order.
-/

namespace SchemaCut.CommandLine

/-- What a call asks for. -/
structure Arguments where
  schemaPath : String
  root : Entity
  fullParents : Bool := false
  shorten : Bool := false
  maxLength : Option Nat := none
  fill : Option String := none
  /-- The file to write; without one the subset is printed. -/
  output : Option String := none
  compact : Bool := false
  config : Option String := none
  deriving DecidableEq, Repr

/-- How an option takes a value. -/
inductive Arity where
  | never
  | maybe
  | always
  deriving DecidableEq, Repr

/-- An option, as it is written and as it is explained. -/
structure Flag where
  name : String
  letter : Option Char := none
  arity : Arity
  /-- What the value is called. -/
  value : String := ""
  /-- Whether a text is good as the value. -/
  accepts : String → Bool := fun _ => true
  about : String

/-- Whether a text is one of the values of a switch. -/
def isTruth (s : String) : Bool := s = "true" || s = "false"

/-- Whether a text is a path. -/
def isPath (s : String) : Bool := !s.isEmpty

/-- The options. -/
def flags : List Flag :=
  [{ name := "schema-path", arity := .always, value := "SCHEMA_PATH", accepts := isPath
     about := "Path to the provider schema JSON" },
    { name := "name", arity := .always, value := "NAME"
      about := "Qualified name of the root entity" },
    { name := "context", arity := .always, value := "CONTEXT"
      accepts := fun s => (Kind.ofWord? s).isSome
      about := "Kind of the root entity: type, resource or function" },
    { name := "load-full-parents", arity := .maybe, value := "LOAD_FULL_PARENTS", accepts := isTruth
      about := "Also include every entity that references into the subset" },
    { name := "shorten-descriptions", arity := .maybe, value := "SHORTEN_DESCRIPTIONS"
      accepts := isTruth
      about := "Shorten description strings" },
    { name := "max-length", arity := .always, value := "MAX_LENGTH"
      accepts := fun s => (Text.natural? s).isSome
      about := "Length of shortened descriptions (overrides config)" },
    { name := "fill", arity := .always, value := "FILL"
      about := "Marker replacing the removed part of a description (overrides config)" },
    { name := "output", letter := some 'o', arity := .always, value := "OUTPUT", accepts := isPath
      about := "Output file (defaults to stdout)" },
    { name := "compact", arity := .never
      about := "Single-line JSON" },
    { name := "config", arity := .always, value := "CONFIG", accepts := isPath
      about := "Config file, layered over the default locations" },
    { name := "help", letter := some 'h', arity := .never
      about := "Print help" }]

/-- Whether an argument can be the value of the option before it. -/
def isValue (arg : String) : Bool := !arg.startsWith "-" || arg = "-"

/-- An argument taken apart: an option with the value that is attached to it. The letter of an
option that takes no value may have further letters behind it. -/
def splitOption? (arg : String) : Option (Flag × Option String) :=
  match arg.toList with
  | '-' :: '-' :: cs => do
    let flag ← flags.find? (·.name = String.ofList (cs.takeWhile (· ≠ '=')))
    match cs.dropWhile (· ≠ '=') with
    | _ :: value => if flag.arity = .never then none else some (flag, some (String.ofList value))
    | [] => some (flag, none)
  | '-' :: c :: cs => do
    let flag ← flags.find? (·.letter = some c)
    match cs with
    | [] => some (flag, none)
    | '=' :: value => some (flag, some (String.ofList value))
    | value => some (flag, some (String.ofList value))
  | _ => none

/-- The options that are given, with their values. -/
abbrev Given := List (String × Option String)

/-- Adds an option; `none` if it is given already or its value is no good. -/
def Given.add? (g : Given) (flag : Flag) (value : Option String) : Option Given :=
  if (g.lookup flag.name).isSome || !value.all flag.accepts then none
  else some ((flag.name, value) :: g)

/-- Whether an option is given and, if it may have the value of a switch, not off. -/
def Given.isOn (g : Given) (name : String) : Bool :=
  match g.lookup name with
  | none | some (some "false") => false
  | some _ => true

/-- The value of an option. -/
def Given.value? (g : Given) (name : String) : Option String := (g.lookup name).join

/-- What a call is for. -/
inductive Call where
  | help
  | subset (arguments : Arguments)
  deriving DecidableEq, Repr

/-- The call that options stand for; three of them have to be given. -/
def Given.call? (g : Given) : Option Call := do
  let schemaPath ← g.value? "schema-path"
  let name ← g.value? "name"
  let kind ← (g.value? "context").bind Kind.ofWord?
  return .subset {
    schemaPath
    root := ⟨kind, name⟩
    fullParents := g.isOn "load-full-parents"
    shorten := g.isOn "shorten-descriptions"
    maxLength := (g.value? "max-length").bind Text.natural?
    fill := g.value? "fill"
    output := g.value? "output"
    compact := g.isOn "compact"
    config := g.value? "config" }

/-- The option that arguments begin with, its value, and the arguments behind the two. -/
def takeOption? (arg : String) (rest : List String) :
    Option (Flag × Option String × List String) :=
  match splitOption? arg with
  | none => none
  | some (flag, some value) => some (flag, some value, rest)
  | some (flag, none) =>
    match rest with
    | next :: behind =>
      if flag.arity ≠ .never && isValue next then some (flag, some next, behind)
      else if flag.arity = .always then none
      else some (flag, none, rest)
    | [] => if flag.arity = .always then none else some (flag, none, [])

theorem length_le_of_takeOption? {arg : String} {rest behind : List String} {flag : Flag}
    {value : Option String} (h : takeOption? arg rest = some (flag, value, behind)) :
    behind.length ≤ rest.length := by
  grind [takeOption?]

/-- Reads the arguments behind those that have given the options `g`. -/
def readArguments (g : Given) (args : List String) : Option Call :=
  match args with
  | [] | ["--"] => g.call?
  | arg :: rest =>
    match _h : takeOption? arg rest with
    | none => none
    | some (flag, value, behind) =>
      if flag.name = "help" then some .help
      else (g.add? flag value).bind fun g => readArguments g behind
termination_by args.length
decreasing_by exact Nat.lt_succ_of_le (length_le_of_takeOption? _h)

/-- Understands the arguments of a call; `none` if they are not in order. -/
def Call.read (args : List String) : Option Call := readArguments [] args

/-- What a call does. -/
structure Outcome where
  code : Nat
  stdout : String := ""
  stderr : String := ""
  /-- The file that is written, by its path and its content. -/
  written : Option (String × String) := none
  deriving DecidableEq, Repr

/-- The files after a call. -/
def Outcome.files (o : Outcome) (before : FileTree) : FileTree :=
  match o.written with
  | some (path, content) => ((before.write path content).toOption).getD before
  | none => before

/-- What a failing call does. -/
def failed (reason : String) : Outcome := { code := 1, stderr := "Error: " ++ reason ++ "\n" }

/-- What a call with arguments that are not in order does. -/
def misused : Outcome :=
  { code := 2
    stderr := "error: the arguments are not in order\n\nFor more information, try '--help'.\n" }

/-- The wording of a failure with what was being done, and with the text of its cause. -/
def explain (doing : String) (f : Failure) : String :=
  doing ++ ": " ++ f.message ++
    match f.cause? with
    | some cause => ": " ++ cause
    | none => ""

/-- The text that a call has to give out, or why it fails. -/
def product (around : Config.Surroundings) (a : Arguments) : Except String String := do
  let config ← (Config.load around a.config).mapError (explain "failed to load configuration")
  let schema ← (Schema.ofFile around.files a.schemaPath).mapError
    (explain ("failed to load schema " ++ a.schemaPath))
  let shorten : ShortenOptions :=
    { config.shorten with
      maxLength := a.maxLength.getD config.shorten.maxLength
      fill := a.fill.getD config.shorten.fill }
  let request : Request :=
    { root := a.root, fullParents := a.fullParents
      shorten := if a.shorten then some shorten else none }
  let part ← (schema.subset request).mapError Failure.message
  return part.text (if a.compact then .compact else config.layout) ++ "\n"

/-- What a call for a subset does. -/
def runSubset (around : Config.Surroundings) (a : Arguments) : Outcome :=
  match product around a with
  | .error reason => failed reason
  | .ok text =>
    match a.output with
    | none => { code := 0, stdout := text }
    | some path =>
      match around.files.write path text with
      | .ok _ => { code := 0, written := some (path, text) }
      | .error fault => failed ("failed to write " ++ path ++ ": " ++ fault.message)

/-- How an option is written, in the explanation of the options. -/
def Flag.heading (f : Flag) : String :=
  (match f.letter with
    | some c => "  -" ++ c.toString ++ ", --"
    | none => "      --") ++ f.name ++
  match f.arity with
  | .never => ""
  | .maybe => " [<" ++ f.value ++ ">]"
  | .always => " <" ++ f.value ++ ">"

/-- The text that explains the options. -/
def helpText : String :=
  let width := (flags.map (·.heading.length)).foldl max 0 + 2
  let lines := flags.map fun f =>
    f.heading ++ String.ofList (List.replicate (width - f.heading.length) ' ') ++ f.about ++ "\n"
  "Extract the subset of a provider schema reachable from one entity\n\n" ++
    "Usage: schema-subset [OPTIONS] --schema-path <SCHEMA_PATH> --name <NAME> " ++
    "--context <CONTEXT>\n\n" ++
    "Options:\n" ++ String.join lines

/-- What a call with the given arguments does. -/
def run (around : Config.Surroundings) (args : List String) : Outcome :=
  match Call.read args with
  | none => misused
  | some .help => { code := 0, stdout := helpText }
  | some (.subset a) => runSubset around a

end SchemaCut.CommandLine
