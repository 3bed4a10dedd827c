import Rehearsal.Definition

/-!
# Summaries

A summary lists the steps of a definition and the variables it requires.

* `Definition.summary`: the summary of a definition;
* `Summary.toText`: as text; `Summary.toJson`, `Summary.ofJson?`: the written form.
-/

namespace Rehearsal

/-- A step in a summary. -/
structure StepSummary where
  /-- Its name. -/
  name : String
  /-- Its kind. -/
  kind : StepKind
  /-- What it calls or deploys. -/
  target : String
deriving DecidableEq, Inhabited

namespace StepSummary

/-- The summary of a step. -/
def ofStep (s : Step) : StepSummary := ⟨s.name, s.kind, s.target⟩

/-- The written form. -/
def toJson (s : StepSummary) : Json :=
  Json.ofMembers [("name", .str s.name), ("kind", .str s.kind.name), ("target", .str s.target)]

/-- Reads the written form. -/
def ofJson? (json : Json) : Option StepSummary := do
  let fields ← json.record? ["name", "kind", "target"] []
  return { name := ← fields.required "name" Json.str?, kind := ← fields.required "kind" StepKind.ofJson?,
           target := ← fields.required "target" Json.str? }

/-- The line of a step. -/
def line (s : StepSummary) : String := "  - " ++ s.name ++ " (" ++ s.kind.name ++ ") -> " ++ s.target ++ "\n"

end StepSummary

/-- A scenario in a summary. -/
structure ScenarioSummary where
  /-- Its name. -/
  name : String
  /-- Whether it uses the scope that others use. -/
  shareScope : Bool
  /-- The names it requires. -/
  required : List String
  /-- Its steps. -/
  steps : List StepSummary
deriving DecidableEq, Inhabited

namespace ScenarioSummary

/-- The summary of a scenario. -/
def ofScenario (s : Scenario) : ScenarioSummary :=
  ⟨s.name, s.shareScope, s.vars.required, s.steps.map .ofStep⟩

/-- The written form. -/
def toJson (s : ScenarioSummary) : Json :=
  Json.ofMembers
    [("name", .str s.name), ("share_scope", .bool s.shareScope),
      ("required_variables", Json.ofStrings s.required),
      ("steps", Json.ofListWith StepSummary.toJson s.steps)]

/-- Reads the written form. -/
def ofJson? (json : Json) : Option ScenarioSummary := do
  let fields ← json.record? ["name", "share_scope", "required_variables", "steps"] []
  return { name := ← fields.required "name" Json.str?,
           shareScope := ← fields.required "share_scope" Json.bool?,
           required := ← fields.required "required_variables" Json.strings?,
           steps := ← fields.required "steps" (Json.listOf? StepSummary.ofJson?) }

/-- The lines of a scenario. -/
def toText (s : ScenarioSummary) : String :=
  "Scenario " ++ s.name ++ (if s.shareScope then " (shared scope):\n" else " (own scope):\n") ++
    (if s.required.isEmpty then "" else "  requires: " ++ ", ".intercalate s.required ++ "\n") ++
    String.join (s.steps.map StepSummary.line)

end ScenarioSummary

/-- The steps of a definition and the names it requires. -/
structure Summary where
  /-- The path of the draft. -/
  filePath : String
  /-- What the scenarios run in. -/
  scope : ScopeKind
  /-- The names the definition requires. -/
  required : List String
  /-- The steps that prepare the scope. -/
  prepareSteps : List StepSummary
  /-- The steps that clean the scope up. -/
  cleanupSteps : List StepSummary
  /-- The scenarios. -/
  scenarios : List ScenarioSummary
deriving DecidableEq, Inhabited

namespace Summary

/-- The written form. -/
def toJson (s : Summary) : Json :=
  Json.ofMembers
    [("file_path", .str s.filePath), ("scope", .str s.scope.name),
      ("required_variables", Json.ofStrings s.required),
      ("prepare_steps", Json.ofListWith StepSummary.toJson s.prepareSteps),
      ("cleanup_steps", Json.ofListWith StepSummary.toJson s.cleanupSteps),
      ("scenarios", Json.ofListWith ScenarioSummary.toJson s.scenarios)]

/-- Reads the written form. -/
def ofJson? (json : Json) : Option Summary := do
  let fields ← json.record?
    ["file_path", "scope", "required_variables", "prepare_steps", "cleanup_steps", "scenarios"] []
  return { filePath := ← fields.required "file_path" Json.str?,
           scope := ← fields.required "scope" ScopeKind.ofJson?,
           required := ← fields.required "required_variables" Json.strings?,
           prepareSteps := ← fields.required "prepare_steps" (Json.listOf? StepSummary.ofJson?),
           cleanupSteps := ← fields.required "cleanup_steps" (Json.listOf? StepSummary.ofJson?),
           scenarios := ← fields.required "scenarios" (Json.listOf? ScenarioSummary.ofJson?) }

/-- The lines of a list of steps under a title, if there are any. -/
def stepsText (title : String) (steps : List StepSummary) : String :=
  if steps.isEmpty then "" else title ++ ":\n" ++ String.join (steps.map StepSummary.line)

/-- The summary as text. -/
def toText (s : Summary) : String :=
  "Definition: " ++ s.filePath ++ "\n" ++ "Scope: " ++ s.scope.name ++ "\n" ++
    (if s.required.isEmpty then "" else "Required variables: " ++ ", ".intercalate s.required ++ "\n") ++
    stepsText "Prepare steps" s.prepareSteps ++ stepsText "Cleanup steps" s.cleanupSteps ++
    String.join (s.scenarios.map ScenarioSummary.toText)

end Summary

/-- The summary of a definition. -/
def Definition.summary (d : Definition) : Summary where
  filePath := d.filePath
  scope := d.scope
  required := d.vars.required
  prepareSteps := d.prepareSteps.map .ofStep
  cleanupSteps := d.cleanupSteps.map .ofStep
  scenarios := d.scenarios.map .ofScenario

end Rehearsal
