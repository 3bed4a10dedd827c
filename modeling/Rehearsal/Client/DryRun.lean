import Rehearsal.Client

/-!
# Dry runs

A dry run does nothing. It refuses what it is told to refuse, answers what it is told to answer,
and otherwise makes up an answer: a request is answered as its step expects, and a deployment has
an output of the right kind for each that its template declares.
-/

namespace Rehearsal

/-- What a dry run refuses and answers. -/
structure DryRun where
  /-- Steps whose calls are refused. -/
  failSteps : List String := []
  /-- Whether getting ready for a scenario is refused. -/
  failPrepare : Bool := false
  /-- Whether the creation of containers is refused. -/
  failCreation : Bool := false
  /-- Whether the deletion of containers is refused. -/
  failDeletion : Bool := false
  /-- The answers to requests, by step. -/
  responses : Dict Response := ∅
  /-- The outputs of deployments, by step. -/
  outputs : Dict (Dict Json) := ∅
deriving Inhabited

namespace DryRun

/-- Refuses an operation if it is to be refused. -/
def checkOperation (name : String) (fails : Bool) : Except String Unit :=
  if fails then .error (name ++ " rejected") else .ok ()

/-- Refuses a call if the calls of its step are to be refused. -/
def checkStep (d : DryRun) (step : String) : Except String Unit :=
  if step ∈ d.failSteps then .error ("step '" ++ step ++ "' rejected") else .ok ()

/-- The first response that a step expects and that is no error. -/
def expected? (step : RestCallStep) : Option Response :=
  step.responses.entries.findSome? fun (status, assertion) =>
    if HttpStatus.isError status then none
    else (HttpStatus.ofText? status).map fun status => { status, body := assertion.body }

/-- The answer to a request: what was set, or what the step expects, or what was sent. -/
def response (d : DryRun) (step : RestCallStep) (request : Request) : Response :=
  match d.responses.get? step.header.name with
  | some response => response
  | none => (expected? step).getD { status := 200, body := request.body.getD .null }

/-- The value that is made up for an output. -/
def madeUp (name : String) : VariableKind → Json
  | .bool => .bool false
  | .int => .int 0
  | .array => .arr []
  | .object | .secureObject => .obj []
  | .string | .secureString => .str ("dryrun-" ++ name)

/-- The outputs of a deployment: what was set, or something for each output of the template. -/
def outputsOf (d : DryRun) (step : DeploymentStep) : Dict Json :=
  match d.outputs.get? step.header.name with
  | some outputs => outputs
  | none => step.template.outputs.mapValues fun name output => madeUp name output.kind

/-- The client of a dry run. -/
def client (d : DryRun) : Client where
  answer _history
    | .prepare .. => checkOperation "Prepare" d.failPrepare
    | .createContainer .. => checkOperation "CreateContainer" d.failCreation
    | .deleteContainer .. => checkOperation "DeleteContainer" d.failDeletion
    | .send step request _ => (d.checkStep step.header.name).map fun _ => d.response step request
    | .deploy step .. => (d.checkStep step.header.name).map fun _ => d.outputsOf step

end DryRun

end Rehearsal
