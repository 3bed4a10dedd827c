import Rehearsal.Environment.Error
import Rehearsal.Request

/-!
# Why a run fails

What fails inside a step carries the scenario and the step, what fails outside of steps carries
the scenario, and a failed cleanup behind a failure carries both.

* `RunError.message`: the wording;
* `RunError.inStep`, `RunError.inScenario`: adding where an error arose;
* `RunError.stepName?`: the step an error is about.
-/

namespace Rehearsal

/-- Why a run fails. -/
inductive RunError where
  /-- A variable cannot be used. -/
  | variable (error : VariableError)
  /-- A step makes no request. -/
  | request (error : RequestError)
  /-- The client refused a call. -/
  | client (operation reason : String)
  /-- The scope could not be provisioned before. -/
  | provisioning (scope message : String)
  /-- A step failed. -/
  | step (scenario step : String) (cause : RunError)
  /-- A scenario failed outside of its steps. -/
  | scenario (name : String) (cause : RunError)
  /-- A scenario failed, and so did the cleanup behind it. -/
  | cleanupAfterFailure (scenario : String) (failure cleanup : RunError)
deriving Inhabited, DecidableEq

namespace RunError

/-- The wording of an error. -/
def message : RunError → String
  | .variable error => error.message
  | .request error => error.message
  | .client operation reason => "client rejected " ++ operation ++ ": " ++ reason
  | .provisioning scope message => "provisioning of scope '" ++ scope ++ "' failed: " ++ message
  | .step scenarioName stepName cause =>
    "step '" ++ stepName ++ "' in scenario '" ++ scenarioName ++ "' failed: " ++ cause.message
  | .scenario name cause => "scenario '" ++ name ++ "' failed: " ++ cause.message
  | .cleanupAfterFailure scenarioName failure cleanup =>
    "scenario '" ++ scenarioName ++ "' failed: " ++ failure.message ++ "; cleanup also failed: " ++
      cleanup.message

/-- Adds the step that an error arose in, unless it carries one already. -/
def inStep (error : RunError) (scenario step : String) : RunError :=
  match error with
  | .step .. => error
  | _ => .step scenario step error

/-- Adds the scenario that an error arose in, unless it carries one already. -/
def inScenario (error : RunError) (name : String) : RunError :=
  match error with
  | .step .. | .scenario .. | .cleanupAfterFailure .. => error
  | _ => .scenario name error

/-- The step that an error is about. -/
def stepName? : RunError → Option String
  | .step _ name _ => some name
  | .cleanupAfterFailure _ failure _ => failure.stepName?
  | _ => none

end RunError

end Rehearsal
