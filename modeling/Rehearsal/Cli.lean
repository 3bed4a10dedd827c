import Rehearsal.Cli.Arguments
import Rehearsal.Client.DryRun
import Rehearsal.Compile
import Rehearsal.Definition.Diagnostic
import Rehearsal.Definition.Summary
import Rehearsal.Report.Table
import Rehearsal.Run

/-!
# The command line

The commands read a definition, the index of its operations and the variables of the caller, and
say what the definition would do or what became of it in a dry run.

* `Cli.inferVariable`: the variable that a value in a file of variables makes;
* `Cli.plan`, `Cli.run`: the commands;
* `Cli.execute`: reads the arguments and does what they say.
-/

namespace Rehearsal.Cli

/-- Why a value makes no variable. -/
inductive InferenceError where
  /-- No kind of variable holds it. -/
  | unsupported (name : String) (value : Json)
  /-- It has a type but is no declaration. -/
  | malformed (name : String)

/-- The wording of an error. -/
def InferenceError.message : InferenceError → String
  | .unsupported name value => "unsupported value for variable " ++ name ++ ": " ++ value.compact
  | .malformed name =>
    "invalid declaration for variable " ++ name ++
      ": data did not match any variant of untagged enum RawVariable"

/-- The variable that a value makes: what has a type is a declaration, and of other values the
shape decides. -/
def inferVariable (name : String) (value : Json) : Except InferenceError Variable :=
  if (value.field? "type").isSome then
    match Declaration.ofJson? value with
    | some declaration => .ok declaration.toVariable
    | none => .error (.malformed name)
  else
    match value with
    | .null | .float _ => .error (.unsupported name value)
    | .int n => if Json.inSigned64 n then .ok (.int (some n)) else .error (.unsupported name value)
    | value => .ok (.ofShape value)

/-- Why a command fails. -/
inductive Failure where
  /-- A file cannot be used. -/
  | load (path : String) (cause : LoadCause)
  /-- A file holds no index of operations. -/
  | invalidIndex (path : String)
  /-- An operation cannot be registered. -/
  | index (error : IndexError)
  /-- The definition does not compile. -/
  | compile (error : CompileError)
  /-- A file holds no variables. -/
  | noVariables (path : String)
  /-- A value makes no variable. -/
  | inference (error : InferenceError)
  /-- A file holds no options. -/
  | invalidOptions (path : String)
  /-- The definition cannot run with the given variables. -/
  | validation
  /-- A scenario failed. -/
  | scenarios

/-- The wording of a failure. -/
def Failure.message : Failure → String
  | .load path cause => (CompileError.load path cause).message
  | .invalidIndex path => "invalid operation index '" ++ path ++ "'"
  | .index error => error.message
  | .compile error => error.message
  | .noVariables path => "variables file '" ++ path ++ "' must be a map"
  | .inference error => error.message
  | .invalidOptions path => "invalid runner options in '" ++ path ++ "'"
  | .validation => "validation failed"
  | .scenarios => "one or more scenarios failed"

/-- What a command prints, and why it fails. -/
structure Outcome where
  /-- The output. -/
  output : String := ""
  /-- The failure. -/
  failure : Option Failure := none
deriving Inhabited

/-! ### Reading -/

/-- Reads a file as a document. -/
def document (files : Files) (path : String) : Except Failure Json :=
  (files.document path).mapError (.load path)

/-- Reads the index of operations. -/
def readIndex (files : Files) (path : String) : Except Failure OperationIndex := do
  match OperationIndex.Document.ofJson? (← document files path) with
  | some specs => (OperationIndex.ofDocument specs).mapError .index
  | none => throw (.invalidIndex path)

/-- Sets the variables in a file, in the order of their names. -/
def readVariables (files : Files) (path : String) (layer : Layer) : Except Failure Layer := do
  match (← document files path).dict? with
  | some values => values.entries.foldlM (fun layer (name, value) =>
      ((inferVariable name value).mapError .inference).map (layer.set name)) layer
  | none => throw (.noVariables path)

/-- The variables of the caller: those in a file, and then those in the arguments. -/
def callerEnvironment (files : Files) (setup : Setup) : Except Failure Environment := do
  let layer ← match setup.envFile with
    | some path => readVariables files path {}
    | none => pure {}
  let layer := setup.vars.foldl (fun layer (name, value) => layer.set name (.string value)) layer
  let layer := setup.secrets.foldl (fun layer (name, value) => layer.set name (.secureString value)) layer
  return { inner := layer }

/-- Reads what all commands need: the compiled definition and the variables of the caller. -/
def load (files : Files) (setup : Setup) : Except Failure (Definition × Environment) := do
  let index ← readIndex files setup.operations
  let definition ← (({ index, files } : Sources).compileFile setup.input).mapError .compile
  return (definition, ← callerEnvironment files setup)

/-- Reads the options of a run. -/
def readOptions (files : Files) (how : RunSetup) : Except Failure Options := do
  let options ← match how.config with
    | none => pure {}
    | some path =>
      match Options.ofJson? (← document files path) with
      | some options => pure options
      | none => throw (.invalidOptions path)
  return { resolveVariables := options.resolveVariables && !how.noResolve,
           skipCleanup := options.skipCleanup || how.skipCleanup, seed := how.seed <|> options.seed }

/-! ### Printing -/

/-- A JSON document as output. -/
def printed (json : Json) : String := json.pretty ++ "\n"

/-- The diagnostics as text, if there are any. -/
def diagnosticsText (diagnostics : List Diagnostic) : String :=
  if diagnostics.isEmpty then ""
  else "Diagnostics:\n" ++ String.join (diagnostics.map Diagnostic.line) ++ "\n"

/-- The output of a plan. -/
def planText (setup : Setup) (summary : Summary) (diagnostics : List Diagnostic) : String :=
  if setup.json then
    printed (Json.ofMembers
      [("summary", summary.toJson), ("diagnostics", Json.ofListWith Diagnostic.toJson diagnostics)])
  else diagnosticsText diagnostics ++ summary.toText ++ "\n"

/-- The line on a scenario that failed. -/
def errorLine (r : ScenarioReport) : String :=
  match r.error with
  | some error => "[error] " ++ r.scenario ++ ": " ++ error ++ "\n"
  | none => ""

/-- The output of a run. -/
def runText (setup : Setup) (summary : Summary) (report : Report) : String :=
  if setup.json then
    printed (Json.ofMembers [("summary", summary.toJson), ("execution", report.toJson)])
  else
    summary.toText ++ "\n" ++ report.toTable.toText ++ "\n" ++ String.join (report.scenarios.map errorLine) ++
      (if report.hasFailures then "\n[warn] some scenarios failed\n" else "")

/-! ### Commands -/

/-- Compiles a definition and checks its variables. -/
def plan (files : Files) (setup : Setup) : Outcome :=
  match load files setup with
  | .error e => { failure := some e }
  | .ok (definition, env) =>
    let diagnostics := definition.diagnose env
    { output := planText setup definition.summary diagnostics,
      failure := if diagnostics.any Diagnostic.isError then some .validation else none }

/-- Compiles a definition and runs it against a client that does nothing, unless its variables
are not what it requires. Without a seed the given one is used. -/
def run (files : Files) (fallbackSeed : Nat) (setup : Setup) (how : RunSetup) : Outcome :=
  match load files setup with
  | .error e => { failure := some e }
  | .ok (definition, env) =>
    let diagnostics := definition.diagnose env
    if diagnostics.any Diagnostic.isError then
      { output := diagnosticsText diagnostics, failure := some .validation }
    else
      match readOptions files how with
      | .error e => { failure := some e }
      | .ok options =>
        let session := Session.new options (options.seed.getD fallbackSeed)
        let (_, report) := session.runDefinition ({} : DryRun).client definition env
        { output := runText setup definition.summary report,
          failure := if report.hasFailures then some .scenarios else none }

/-- How the program is used. -/
def usage : String :=
  "plan INPUT --operations FILE [--var KEY=VALUE]... [--secret KEY=VALUE]... [--env-file FILE] [--json]\n" ++
    "run INPUT --operations FILE [--var KEY=VALUE]... [--secret KEY=VALUE]... [--env-file FILE] [--json]\n" ++
    "    [--config FILE] [--skip-cleanup] [--no-resolve] [--seed N]\n"

/-- Does what a command says. -/
def perform (files : Files) (fallbackSeed : Nat) : Command → Outcome
  | .help => { output := usage }
  | .plan setup => plan files setup
  | .run setup how => run files fallbackSeed setup how

/-- The status that a program ends with. -/
def Outcome.status (outcome : Outcome) : Nat := if outcome.failure.isSome then 1 else 0

end Rehearsal.Cli
