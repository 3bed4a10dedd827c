import Rehearsal.Cli
import Rehearsal.Directory

/-!
# The program

Everything is decided by `Cli.perform`; here the files it may ask for are read, and its output is
printed.
-/

namespace Rehearsal.Cli

/-- What reading files came to, by path. -/
abbrev Snapshot := List (String × Except LoadCause String)

/-- A snapshot as a place that texts are read from. -/
def Snapshot.files (snapshot : Snapshot) : Files where
  read path := (snapshot.lookup path).getD (.error (.refused SystemError.notFound.text))

/-- The wording of a failure to read a file. -/
def refusal : IO.Error → LoadCause
  | .noFileOrDirectory .. => .refused SystemError.notFound.text
  | .permissionDenied .. => .refused SystemError.denied.text
  | .inappropriateType _ 21 _ => .refused SystemError.isADirectory.text
  | .inappropriateType .. => .refused SystemError.notADirectory.text
  | .invalidArgument _ 22 _ => .malformed
  | .invalidArgument .. => .refused SystemError.nameTooLong.text
  | e => .refused (toString e)

/-- Reads a file. -/
def readText (path : String) : IO (Except LoadCause String) := do
  try
    return .ok (← IO.FS.readFile path)
  catch e =>
    return .error (refusal e)

/-- Reads files on top of those that were read. -/
def readAll (snapshot : Snapshot) (paths : List String) : IO Snapshot :=
  paths.foldlM (fun snapshot path => do return (path, ← readText path) :: snapshot) snapshot

/-- The files that arguments name. -/
def namedFiles : Command → List String
  | .help => []
  | .plan setup => [setup.operations, setup.input] ++ setup.envFile.toList
  | .run setup how => [setup.operations, setup.input] ++ setup.envFile.toList ++ how.config.toList

/-- The path of the definition that a command is about. -/
def definitionPath? : Command → Option String
  | .help => none
  | .plan setup | .run setup _ => some setup.input

/-- The files that the steps of a draft refer to, as seen from where the draft is. -/
def referencedFiles (path : String) (draft : Draft.Definition) : List String :=
  draft.allSteps.flatMap fun step =>
    (step.exampleFile.toList ++ step.template.toList ++ step.script.toList).map fun file =>
      (Path.resolve (Path.parse path).parent? (Path.parse file)).toText

/-- The files that a definition refers to, given the files that were read. -/
def neededFiles (files : Files) (command : Command) : List String :=
  match definitionPath? command with
  | none => []
  | some path =>
    match (files.document path).toOption >>= Draft.Definition.ofJson? with
    | some draft => referencedFiles path draft
    | none => []

end Rehearsal.Cli

open Rehearsal in
/-- Runs the program. -/
def main (args : List String) : IO UInt32 := do
  match Cli.Command.parse args with
  | .error e =>
    IO.eprintln ("error: " ++ e.message ++ "\n\n" ++ Cli.usage)
    return 2
  | .ok command =>
    let named ← Cli.readAll [] (Cli.namedFiles command)
    let files ← Cli.readAll named (Cli.neededFiles named.files command)
    let outcome := Cli.perform files.files (← IO.rand 0 (Nat.pow 2 32 - 1)) command
    IO.print outcome.output
    if let some failure := outcome.failure then
      IO.eprintln ("Error: " ++ failure.message)
    return UInt32.ofNat outcome.status
