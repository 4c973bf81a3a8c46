/-
The command line: the commands, what they are asked to do by their
arguments, and what they answer.

`check` reads a query and reports on it, `docs` and `doc` show the manual.
A command that cannot be understood is refused as a whole, before anything
is read.
-/
import InlineQuery.Check
import InlineQuery.Command.Arguments
import InlineQuery.Config.Format
import InlineQuery.Json.Writer
import InlineQuery.Manual
import InlineQuery.Report

namespace InlineQuery

-- ================================================================ commands

/-- The arguments of the command `check`. -/
structure CheckRequest where
  /-- The query; without one it is read from standard input. -/
  query : Option Text := none
  /-- The file that holds the configuration. -/
  configPath : Option Text := none
  defaultNamespaces : Option (List NamespaceId) := none
  prints : List Text := []
  prune : Bool := false
  maxSize : Option Nat := none
  maxDepth : Option Nat := none
  json : Bool := false
  pretty : Bool := false
deriving Repr, DecidableEq

/-- What the program is asked to do. -/
inductive Command
  | version
  | docs
  | doc (topic : Text)
  | check (request : CheckRequest)
deriving Repr, DecidableEq

namespace Command

-- =============================================================== arguments

/-- The option that any command takes: to tell more about the work. -/
inductive CommonOption
  | verbose
deriving Repr, DecidableEq

/-- The options of `check`. -/
inductive CheckOption
  | verbose
  | config
  | defaultNamespaces
  | print
  | prune
  | maxSize
  | maxDepth
  | json
  | pretty
deriving Repr, DecidableEq

/-- How the common options are written. -/
def commonForms : List (OptionForm CommonOption) :=
  [⟨.verbose, "verbose".toList, some 'v', false⟩]

/-- How the options of `check` are written. -/
def checkForms : List (OptionForm CheckOption) :=
  [ ⟨.verbose, "verbose".toList, some 'v', false⟩,
    ⟨.config, "config".toList, some 'c', true⟩,
    ⟨.defaultNamespaces, "default-ns".toList, none, true⟩,
    ⟨.print, "print".toList, none, true⟩,
    ⟨.prune, "prune".toList, none, false⟩,
    ⟨.maxSize, "max-size".toList, none, true⟩,
    ⟨.maxDepth, "max-depth".toList, none, true⟩,
    ⟨.json, "json".toList, none, false⟩,
    ⟨.pretty, "pretty".toList, some 'p', false⟩ ]

/-- A setting that may be given once: its value, unless it has one
already. -/
def once? {α : Type} (old : Option α) (value : Option α) : Option (Option α) :=
  match old, value with
  | none, some value => some (some value)
  | _, _ => none

/-- A switch that may be turned on once. -/
def turnOn? (old : Bool) : Option Bool := if old then none else some true

/-- The request with one more argument, given whether the program was told
to be verbose. -/
def addArgument? (verbose : Bool) (request : CheckRequest) :
    Argument CheckOption → Option (Bool × CheckRequest)
  | .operand t => do
    let query ← once? request.query (some t)
    return (verbose, { request with query })
  | .option option value =>
    match option, value with
    | .verbose, _ => do return (← turnOn? verbose, request)
    | .config, some path => do
      if path.isEmpty then failure
      let configPath ← once? request.configPath (some path)
      return (verbose, { request with configPath })
    | .defaultNamespaces, some value => do
      let ids ← (Text.splitAll ',' value).mapM (Text.intWithin? (1 <<< 31))
      return (verbose, { request with
        defaultNamespaces := some (request.defaultNamespaces.getD [] ++ ids) })
    | .print, some value => some (verbose, { request with prints := request.prints ++ [value] })
    | .prune, _ => do
      let prune ← turnOn? request.prune
      return (verbose, { request with prune })
    | .maxSize, some value => do
      let maxSize ← once? request.maxSize (Text.natBelow? (1 <<< 64) value)
      return (verbose, { request with maxSize })
    | .maxDepth, some value => do
      let maxDepth ← once? request.maxDepth (Text.natBelow? (1 <<< 64) value)
      return (verbose, { request with maxDepth })
    | .json, _ => do
      let json ← turnOn? request.json
      return (verbose, { request with json })
    | .pretty, _ => do
      let pretty ← turnOn? request.pretty
      return (verbose, { request with pretty })
    | _, none => none

/-- The request that the arguments of `check` make. -/
def readCheck? (arguments : List Text) : Option Command := do
  let found ← Argument.read? checkForms none arguments
  let (_, request) ← found.foldlM (fun sofar argument =>
    addArgument? sofar.1 sofar.2 argument) (false, ({} : CheckRequest))
  return .check request

/-- The operands of a command with no options but the common ones. -/
def readOperands? (arguments : List Text) : Option (List Text) := do
  let found ← Argument.read? commonForms none arguments
  let (_, operands) ← found.foldlM (fun (sofar : Bool × List Text) argument =>
    match argument with
    | .operand t => some (sofar.1, sofar.2 ++ [t])
    | .option .verbose _ => (turnOn? sofar.1).map fun verbose => (verbose, sofar.2))
    (false, [])
  return operands

/-- The command that a name and the arguments behind it give. -/
def ofName? (name : Text) (arguments : List Text) : Option Command :=
  if name = "check".toList then readCheck? arguments
  else if name = "docs".toList then
    match readOperands? arguments with
    | some [] => some .docs
    | _ => none
  else if name = "doc".toList then
    match readOperands? arguments with
    | some [topic] => some (.doc topic)
    | _ => none
  else none

/-- What letters run together in front of the name of a command mean: `v`
asks for more about the work, `V` for the version, which settles the matter
at once. The outcome is none if they mean nothing, and otherwise tells
whether the version is wanted. -/
def readCommonLetters? (verbose : Bool) : Text → Option (Bool × Bool)
  | [] => some (verbose, false)
  | 'v' :: rest => if verbose then none else readCommonLetters? true rest
  | 'V' :: _ => some (verbose, true)
  | _ => none

/-- What the program is asked to do by its arguments, given whether those in
front of them asked for more about the work already, which may be asked for
once; none if they cannot be understood. -/
def read? (verbose : Bool) : List Text → Option Command
  | [] => none
  | argument :: rest =>
    if argument = "--version".toList then some .version
    else if argument = "--verbose".toList then
      if verbose then none else read? true rest
    else match argument with
      | '-' :: '-' :: _ => none
      | '-' :: letter :: letters =>
        match readCommonLetters? verbose (letter :: letters) with
        | none => none
        | some (_, true) => some .version
        | some (verbose, false) => read? verbose rest
      | name => ofName? name rest

/-- What the program is asked to do by the arguments it was started with. -/
def ofArguments? (arguments : List Text) : Option Command := read? false arguments

end Command

-- ================================================================= answers

/-- Why a file cannot be read. -/
inductive FileError
  | missing
  | other (reason : Text)
deriving Repr, DecidableEq

/-- The reason in English. -/
def FileError.message : FileError → Text
  | .missing => "No such file or directory (os error 2)".toList
  | .other reason => reason

/-- Why a command cannot be carried out. -/
inductive CommandError
  | config (error : ConfigError)
  | unreadable (path : Text) (error : FileError)
  | check (error : CheckError)
  | unknownTopic (name : Text)
deriving Repr, DecidableEq

/-- What is wrong, in English. -/
def CommandError.message : CommandError → Text
  | .config error => "Configuration error: ".toList ++ error.message
  | .unreadable path error =>
    "Configuration error: cannot read config file ".toList ++ path ++ ": ".toList ++
      error.message
  | .check error => error.message
  | .unknownTopic name =>
    "Unknown category: '".toList ++ name ++
      "'\nRun 'wikiq docs' to see available categories.".toList

/-- The name and the version of the program. -/
def versionText : Text := "wikiq 0.2.0\n".toList

namespace Command

/-- The page of the manual that is called by a name. -/
def manualPage (name : Text) : Except CommandError Text :=
  match Topic.ofName? name with
  | some topic => .ok topic.page
  | none => .error (.unknownTopic name)

/-- A report on a query, in the form asked for. -/
def writeReport (request : CheckRequest) (q : Query) : Text :=
  if request.pretty then q.report.writePretty ++ ['\n']
  else if request.json then q.report.write ++ ['\n']
  else q.reportText

/-- The configuration that a request names, or the standard one. -/
def readConfig (readFile : Text → Except FileError Text) (path : Option Text) :
    Except CommandError Config :=
  match path with
  | none => .ok {}
  | some path =>
    match readFile path with
    | .error e => .error (.unreadable path e)
    | .ok document =>
      match Config.read document with
      | .error e => .error (.config e)
      | .ok config => .ok config

/-- The answer to `check`. The configuration is read first, so that what is
wrong with it comes before what is wrong with the query. -/
def runCheck (standardInput : Text) (readFile : Text → Except FileError Text)
    (request : CheckRequest) : Except CommandError Text := do
  let config ← readConfig readFile request.configPath
  let check : Check := {
    query := request.query.getD standardInput
    config
    defaultNamespaces := request.defaultNamespaces
    prints := request.prints
    prune := request.prune
    maxSize := request.maxSize
    maxDepth := request.maxDepth }
  match check.run with
  | .error e => .error (.check e)
  | .ok q => .ok (writeReport request q)

/-- The answer to a command. -/
def run (standardInput : Text) (readFile : Text → Except FileError Text) :
    Command → Except CommandError Text
  | .version => .ok versionText
  | .docs => .ok overview
  | .doc name => manualPage name
  | .check request => runCheck standardInput readFile request

/-- The command has to be given the standard input. -/
def wantsInput : Command → Bool
  | .check request => request.query.isNone
  | _ => false

/-- The file that the command has to be given. -/
def wantsFile? : Command → Option Text
  | .check request => request.configPath
  | _ => none

end Command

end InlineQuery
