import Rehearsal.Definition
import Rehearsal.Environment.Basic

/-!
# Diagnostics

Before a definition runs, an environment can be checked to supply whatever the definition
requires.

* `Definition.supplies`: whether a required name is supplied;
* `Definition.diagnose`: what an environment lacks, and what else is remarkable.
-/

namespace Rehearsal

/-- How serious a diagnostic is. -/
inductive Severity where
  /-- The definition cannot run. -/
  | error
  /-- The definition may not do what its author expects. -/
  | warning
deriving DecidableEq, Inhabited

/-- The name of a severity in a written diagnostic. -/
def Severity.name : Severity → String
  | .error => "error"
  | .warning => "warning"

/-- The word for a severity in a text. -/
def Severity.word : Severity → String
  | .error => "error"
  | .warning => "warn"

/-- A part of a definition that diagnostics are about. -/
inductive DiagnosticPlace where
  /-- What the definition itself requires. -/
  | definition
  /-- A scenario. -/
  | scenario (name : String)
deriving DecidableEq, Inhabited

/-- The wording of a place. -/
def DiagnosticPlace.text : DiagnosticPlace → String
  | .definition => "variables"
  | .scenario name => "scenario " ++ name

/-- What a diagnostic says. -/
inductive Finding where
  /-- Nobody supplies a required name. -/
  | noValue (name : String)
  /-- A scenario does nothing. -/
  | noSteps
deriving DecidableEq, Inhabited

namespace Finding

/-- How serious a finding is. -/
def severity : Finding → Severity
  | .noValue _ => .error
  | .noSteps => .warning

/-- The wording of a finding. -/
def message : Finding → String
  | .noValue name => "required variable '" ++ name ++ "' has no value"
  | .noSteps => "scenario has no steps"

end Finding

/-- A finding and where it was made. -/
structure Diagnostic where
  /-- Where. -/
  place : DiagnosticPlace
  /-- What. -/
  finding : Finding
deriving DecidableEq, Inhabited

namespace Diagnostic

/-- Whether the definition cannot run. -/
def isError (d : Diagnostic) : Bool := d.finding.severity == .error

/-- The written form. -/
def toJson (d : Diagnostic) : Json :=
  Json.ofMembers
    [("level", .str d.finding.severity.name), ("location", .str d.place.text),
      ("message", .str d.finding.message)]

/-- The line of a diagnostic. -/
def line (d : Diagnostic) : String :=
  "  - [" ++ d.finding.severity.word ++ "] " ++ d.place.text ++ ": " ++ d.finding.message ++ "\n"

end Diagnostic

namespace Definition

/-- Whether a variable has a value, or gets one when the definition runs. -/
def isBound (v : Variable) : Bool := v.hasValue || v.stem?.isSome

/-- Whether the environment or one of the scopes supplies a name; a scope of the definition's kind
may supply it by itself. -/
def supplies (d : Definition) (env : Environment) (scopes : List Declarations) (name : String) : Bool :=
  (d.scope.needsContainer && name == ReservedName.container) || (env.get? name).any isBound ||
    scopes.any fun scope => (scope.get? name).any isBound

/-- What the definition itself requires and nobody supplies. -/
def diagnoseVariables (d : Definition) (env : Environment) : List Diagnostic :=
  (d.vars.required.filter fun name => !d.supplies env [d.vars] name).map
    fun name => ⟨.definition, .noValue name⟩

/-- The findings about a scenario, what the definition requires aside. -/
def diagnoseScenario (d : Definition) (env : Environment) (s : Scenario) : List Diagnostic :=
  let lacking := s.vars.required.filter fun name =>
    !d.vars.isRequired name && !d.supplies env [s.vars, d.vars] name
  let findings := (if s.steps.isEmpty then [Finding.noSteps] else []) ++ lacking.map Finding.noValue
  findings.map (⟨.scenario s.name, ·⟩)

/-- All findings about a definition and the environment it is to run in. -/
def diagnose (d : Definition) (env : Environment) : List Diagnostic :=
  d.diagnoseVariables env ++ d.scenarios.flatMap (d.diagnoseScenario env)

end Definition

end Rehearsal
