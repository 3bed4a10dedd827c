import Rehearsal.Definition.Step
import Rehearsal.Text.Lines

/-!
# Reports

A report says what became of the steps of each scenario that ran.

* `StepReport`, `ScenarioReport`, `Report`: one step, one scenario, all of them;
* `ScenarioReport.hasFailures`, `Report.hasFailures`: whether anything failed;
* `Report.toText`: as text; `Report.toJson`, `Report.ofJson?`: the written form.
-/

namespace Rehearsal

/-- What became of a step. -/
inductive StepStatus where
  /-- It ran to its end. -/
  | completed
  /-- It did not run. -/
  | skipped
  /-- It failed. -/
  | failed
deriving DecidableEq, Inhabited

namespace StepStatus

/-- The name in a written report. -/
def name : StepStatus → String
  | .completed => "Completed"
  | .skipped => "Skipped"
  | .failed => "Failed"

/-- The word in a text. -/
def word : StepStatus → String
  | .completed => "completed"
  | .skipped => "skipped"
  | .failed => "failed"

/-- The status of a name. -/
def ofJson? (json : Json) : Option StepStatus := do
  let text ← json.constant?
  [StepStatus.completed, .skipped, .failed].find? (·.name == text)

end StepStatus

/-- The report on a step. -/
structure StepReport where
  /-- The name of the step. -/
  name : String
  /-- Its kind. -/
  kind : StepKind
  /-- When it was to run. -/
  phase : Phase
  /-- What became of it. -/
  status : StepStatus
  /-- What else there is to say. -/
  message : Option String := none
deriving DecidableEq, Inhabited

namespace StepReport

/-- The report on a step. -/
def ofStep (step : Step) (phase : Phase) (status : StepStatus) (message : String) : StepReport :=
  { name := step.name, kind := step.kind, phase, status, message := some message }

/-- The written form. -/
def toJson (r : StepReport) : Json :=
  Json.ofMembers
    [("name", .str r.name), ("kind", .str r.kind.name), ("phase", .str r.phase.name),
      ("status", .str r.status.name), ("message", Json.ofString? r.message)]

/-- Reads the written form. -/
def ofJson? (json : Json) : Option StepReport := do
  let fields ← json.record? ["name", "kind", "phase", "status", "message"] []
  return { name := ← fields.required "name" Json.str?, kind := ← fields.required "kind" StepKind.ofJson?,
           phase := ← fields.required "phase" Phase.ofJson?,
           status := ← fields.required "status" StepStatus.ofJson?,
           message := ← fields.optional "message" Json.str? }

/-- The lines on a step. -/
def toText (r : StepReport) : String :=
  "  - [" ++ r.status.word ++ "] " ++ r.phase.name ++ " " ++ r.name ++ " (" ++ r.kind.name ++ ")\n" ++
    String.join ((Text.lines (r.message.getD "")).map fun line => "      " ++ line ++ "\n")

end StepReport

/-- The report on a scenario. -/
structure ScenarioReport where
  /-- The name of the scenario. -/
  scenario : String
  /-- The name of the scope it ran in; empty if there was none. -/
  scope : String := ""
  /-- When it was started, for those who have a clock. -/
  startedAt : String := ""
  /-- How many milliseconds it took, for those who have a clock. -/
  durationMs : Nat := 0
  /-- The steps in the order in which they were done with. -/
  steps : List StepReport := []
  /-- Why the scenario failed. -/
  error : Option String := none
deriving DecidableEq, Inhabited

namespace ScenarioReport

/-- Whether the scenario or one of the steps failed. -/
def hasFailures (r : ScenarioReport) : Bool :=
  r.error.isSome || r.steps.any fun step => step.status == .failed

/-- The report on the first step of a name. -/
def step? (r : ScenarioReport) (name : String) : Option StepReport := r.steps.find? (·.name == name)

/-- The written form. -/
def toJson (r : ScenarioReport) : Json :=
  Json.ofMembers
    [("scenario", .str r.scenario), ("scope", .str r.scope), ("started_at", .str r.startedAt),
      ("duration_ms", .int r.durationMs), ("steps", Json.ofListWith StepReport.toJson r.steps),
      ("error", Json.ofString? r.error)]

/-- A duration takes at most 64 bits. -/
def durationOfJson? (json : Json) : Option Nat := do
  let duration ← json.nat?
  if duration < Nat.pow 2 64 then some duration else none

/-- Reads the written form. -/
def ofJson? (json : Json) : Option ScenarioReport := do
  let fields ← json.record? ["scenario", "scope", "started_at", "duration_ms", "steps", "error"] []
  return { scenario := ← fields.required "scenario" Json.str?,
           scope := ← fields.required "scope" Json.str?,
           startedAt := ← fields.required "started_at" Json.str?,
           durationMs := ← fields.required "duration_ms" durationOfJson?,
           steps := ← fields.required "steps" (Json.listOf? StepReport.ofJson?),
           error := ← fields.optional "error" Json.str? }

/-- The lines on a scenario. -/
def toText (r : ScenarioReport) : String :=
  "Scenario " ++ r.scenario ++ " (scope " ++ r.scope ++ ", " ++ toString r.durationMs ++ " ms):\n" ++
    (if r.steps.isEmpty then "  No steps executed.\n" else "") ++
    String.join (r.steps.map StepReport.toText) ++
    (match r.error with
      | some error => "  error: " ++ error ++ "\n"
      | none => "")

end ScenarioReport

/-- The report on the scenarios of a definition. -/
structure Report where
  /-- The path of the definition. -/
  filePath : String
  /-- The scenarios in the order in which they ran. -/
  scenarios : List ScenarioReport := []
deriving DecidableEq, Inhabited

namespace Report

/-- Whether anything failed. -/
def hasFailures (r : Report) : Bool := r.scenarios.any ScenarioReport.hasFailures

/-- The written form. -/
def toJson (r : Report) : Json :=
  Json.ofMembers
    [("file_path", .str r.filePath), ("scenarios", Json.ofListWith ScenarioReport.toJson r.scenarios)]

/-- Reads the written form. -/
def ofJson? (json : Json) : Option Report := do
  let fields ← json.record? ["file_path", "scenarios"] []
  return { filePath := ← fields.required "file_path" Json.str?,
           scenarios := ← fields.required "scenarios" (Json.listOf? ScenarioReport.ofJson?) }

/-- The report as text. -/
def toText (r : Report) : String :=
  if r.scenarios.isEmpty then "No scenarios to execute.\n"
  else "Execution results for " ++ r.filePath ++ ":\n" ++ String.join (r.scenarios.map ScenarioReport.toText)

end Report

end Rehearsal
