import Rehearsal.Text.Lines
import Rehearsal.Text.Numeral

/-!
# Command-line arguments

    plan INPUT --operations FILE [--var KEY=VALUE]... [--secret KEY=VALUE]... [--env-file FILE] [--json]
    run  INPUT --operations FILE ... [--config FILE] [--skip-cleanup] [--no-resolve] [--seed N]

An option is given as `--name value` or `--name=value`. A value that begins with a dash needs the
second form. Behind `--` there are no options. `--verbose` is understood everywhere.

* `Cli.scan`: the arguments one by one;
* `Cli.Command.parse`: what is to be done.
-/

namespace Rehearsal.Cli

/-- Why arguments are not understood. -/
inductive UsageError where
  /-- There is no command. -/
  | noCommand
  /-- There is no such command. -/
  | unknownCommand (name : String)
  /-- There is no such option. -/
  | unknownOption (text : String)
  /-- An option has no value. -/
  | noValue (name : String)
  /-- An option has a value although it takes none. -/
  | unexpectedValue (name : String)
  /-- An option is given more than once. -/
  | repeated (name : String)
  /-- Something is missing. -/
  | missing (name : String)
  /-- There is an argument too many. -/
  | unexpected (text : String)
  /-- A value is not what it should be. -/
  | invalidValue (name reason : String)
deriving DecidableEq

/-- The wording of an error. -/
def UsageError.message : UsageError → String
  | .noCommand => "a command is required: plan or run"
  | .unknownCommand name => "unrecognized command '" ++ name ++ "'"
  | .unknownOption text => "unexpected argument '" ++ text ++ "'"
  | .noValue name => "a value is required for '--" ++ name ++ "'"
  | .unexpectedValue name => "'--" ++ name ++ "' takes no value"
  | .repeated name => "'--" ++ name ++ "' cannot be used multiple times"
  | .missing name => "a value is required for '" ++ name ++ "'"
  | .unexpected text => "unexpected argument '" ++ text ++ "'"
  | .invalidValue name reason => "invalid value for '" ++ name ++ "': " ++ reason

/-- One argument, with its value if it is an option that takes one. -/
inductive Argument where
  /-- An option that takes no value. -/
  | flag (name : String)
  /-- An option with its value. -/
  | value (name text : String)
  /-- No option. -/
  | positional (text : String)
  /-- Asks how the program is used. -/
  | help
deriving DecidableEq

/-- The options that may be given, each with whether it takes a value. -/
abbrev Known := List (String × Bool)

/-- Whether an argument is written as an option. -/
def looksLikeOption (text : String) : Bool := text.startsWith "-" && text != "-"

/-- The name of a long option, and the value that is written behind it. -/
def splitOption (text : String) : String × Option String :=
  let chars := text.toList.drop 2
  let name := String.ofList (chars.takeWhile (· != '='))
  match chars.dropWhile (· != '=') with
  | _ :: value => (name, some (String.ofList value))
  | [] => (name, none)

/-- Reads arguments; `open?` is the option in front of them whose value comes next. What stands
behind a call for help does not matter. -/
def scan (known : Known) : (open? : Option String) → List String → Except UsageError (List Argument)
  | none, [] => .ok []
  | some name, [] => .error (.noValue name)
  | some name, text :: rest =>
    if looksLikeOption text then .error (.noValue name)
    else (scan known none rest).map (.value name text :: ·)
  | none, text :: rest =>
    if text = "--" then .ok (rest.map .positional)
    else if text = "--help" || text = "-h" then .ok [.help]
    else if !looksLikeOption text then (scan known none rest).map (.positional text :: ·)
    else if !text.startsWith "--" then .error (.unknownOption text)
    else
      let (name, value) := splitOption text
      match known.lookup name, value with
      | none, _ => .error (.unknownOption text)
      | some false, none => (scan known none rest).map (.flag name :: ·)
      | some false, some _ => .error (.unexpectedValue name)
      | some true, none => scan known (some name) rest
      | some true, some value => (scan known none rest).map (.value name value :: ·)

/-- The values of an option, in order. -/
def values (name : String) (arguments : List Argument) : List String :=
  arguments.filterMap fun
    | .value other text => if other = name then some text else none
    | _ => none

/-- The value of an option that may be given once. -/
def value? (name : String) (arguments : List Argument) : Except UsageError (Option String) :=
  match values name arguments with
  | [] => .ok none
  | [text] => .ok (some text)
  | _ => .error (.repeated name)

/-- The value of an option that names a file. -/
def file? (name : String) (arguments : List Argument) : Except UsageError (Option String) := do
  match ← value? name arguments with
  | some "" => throw (.missing name)
  | path => return path

/-- Whether an option without a value is given; it may be given once. -/
def flag (name : String) (arguments : List Argument) : Except UsageError Bool :=
  match arguments.filter (· == .flag name) with
  | [] => .ok false
  | [_] => .ok true
  | _ => .error (.repeated name)

/-- Reads `KEY=VALUE`; blanks around the key do not count, and a key there has to be. -/
def keyValue (text : String) : Except String (String × String) :=
  let chars := text.toList
  let key := Text.trim (String.ofList (chars.takeWhile (· != '=')))
  match chars.dropWhile (· != '=') with
  | _ :: value =>
    if key = "" then .error ("expected KEY=VALUE, got '" ++ text ++ "'") else .ok (key, String.ofList value)
  | [] => .error ("expected KEY=VALUE, got '" ++ text ++ "'")

/-- The pairs that an option gives. -/
def pairs (name : String) (arguments : List Argument) : Except UsageError (List (String × String)) :=
  (values name arguments).mapM fun text => (keyValue text).mapError (.invalidValue name)

/-- What all commands are told. -/
structure Setup where
  /-- The path of the definition. -/
  input : String
  /-- The path of the index of operations. -/
  operations : String
  /-- Variables. -/
  vars : List (String × String) := []
  /-- Secret variables. -/
  secrets : List (String × String) := []
  /-- The path of a file of variables. -/
  envFile : Option String := none
  /-- Whether the output is a JSON document. -/
  json : Bool := false
deriving DecidableEq, Inhabited

/-- How a definition is to be run. -/
structure RunSetup where
  /-- The path of a file of options. -/
  config : Option String := none
  /-- Whether scopes are left as they are. -/
  skipCleanup : Bool := false
  /-- Whether placeholders are left to the client. -/
  noResolve : Bool := false
  /-- The seed of generated suffixes. -/
  seed : Option Nat := none
deriving DecidableEq, Inhabited

/-- What is to be done. -/
inductive Command where
  /-- To say how the program is used. -/
  | help
  /-- To compile a definition and check its variables. -/
  | plan (setup : Setup)
  /-- To compile a definition and run it against a client that does nothing. -/
  | run (setup : Setup) (how : RunSetup)
deriving DecidableEq

/-- The options of all commands. -/
def setupOptions : Known :=
  [("operations", true), ("var", true), ("secret", true), ("env-file", true), ("json", false),
    ("verbose", false)]

/-- The options of a run. -/
def runOptions : Known :=
  setupOptions ++ [("config", true), ("skip-cleanup", false), ("no-resolve", false), ("seed", true)]

/-- What all commands are told. -/
def Setup.ofArguments (arguments : List Argument) : Except UsageError Setup := do
  let texts := arguments.filterMap fun
    | .positional text => some text
    | _ => none
  let input ← match texts with
    | [] | [""] => throw (.missing "INPUT")
    | [input] => pure input
    | _ :: text :: _ => throw (.unexpected text)
  let operations ← match ← file? "operations" arguments with
    | some path => pure path
    | none => throw (.missing "operations")
  let _verbose ← flag "verbose" arguments
  return { input, operations, vars := ← pairs "var" arguments, secrets := ← pairs "secret" arguments,
           envFile := ← file? "env-file" arguments, json := ← flag "json" arguments }

/-- How a definition is to be run. -/
def RunSetup.ofArguments (arguments : List Argument) : Except UsageError RunSetup := do
  let seed ← match ← value? "seed" arguments with
    | none => pure none
    | some text =>
      match Text.numeralBelow? (Nat.pow 2 64) text with
      | some seed => pure (some seed)
      | none => throw (.invalidValue "seed" ("expected a number, got '" ++ text ++ "'"))
  return { config := ← file? "config" arguments, skipCleanup := ← flag "skip-cleanup" arguments,
           noResolve := ← flag "no-resolve" arguments, seed }

namespace Command

/-- Reads the arguments of the command `plan`. -/
def parsePlan (texts : List String) : Except UsageError Command := do
  let arguments ← scan setupOptions none texts
  if arguments.contains .help then return .help
  else return .plan (← Setup.ofArguments arguments)

/-- Reads the arguments of the command `run`. -/
def parseRun (texts : List String) : Except UsageError Command := do
  let arguments ← scan runOptions none texts
  if arguments.contains .help then return .help
  else return .run (← Setup.ofArguments arguments) (← RunSetup.ofArguments arguments)

/-- Reads what help is asked for about: at most one command. -/
def parseHelp : List String → Except UsageError Command
  | [] => .ok .help
  | text :: rest =>
    if ["plan", "run", "help"].contains text then (rest.head?.map .unknownCommand).elim (.ok .help) .error
    else .error (.unknownCommand text)

/-- Reads a command that is asked for by name. -/
def parseNamed (name : String) (texts : List String) : Except UsageError Command :=
  match name with
  | "plan" => parsePlan texts
  | "run" => parseRun texts
  | "help" => parseHelp texts
  | _ => .error (.unknownCommand name)

/-- Reads all arguments; `verbose` says whether more output was asked for already. -/
def parseFrom (verbose : Bool) : List String → Except UsageError Command
  | [] => .error .noCommand
  | text :: rest =>
    if text = "--verbose" then if verbose then .error (.repeated "verbose") else parseFrom true rest
    else if ["--help", "-h", "--version", "-V"].contains text then .ok .help
    else if looksLikeOption text then .error (.unknownOption text)
    else parseNamed text rest

/-- Reads all arguments. -/
def parse (texts : List String) : Except UsageError Command := parseFrom false texts

end Command

end Rehearsal.Cli
