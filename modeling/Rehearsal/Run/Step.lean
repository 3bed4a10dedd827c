import Rehearsal.Options
import Rehearsal.Run.State

/-!
# Running a step

A step runs in an environment of its own around which the scope or the scenario stands. What it
takes from a response or from the outputs of a deployment is set there, outside of its own
environment, for the steps that follow. Whether it completes or fails, there is one report on it,
in which secrets are covered.

* `Run.stepEnvironment`: the environment of a step;
* `Run.sendRequest`, `Run.deploy`: what the two kinds of steps do;
* `Run.step`: runs a step and reports on it.
-/

namespace Rehearsal.Run

/-- The environment of a step: its own declarations inside what is visible in its phase. Names
are generated, and unless placeholders are left to the client every variable is resolved. -/
def stepEnvironment (options : Options) (phase : Phase) (step : Step) : Runs Environment := do
  let parent := (← get).environment phase
  let layer ← ofVariables (Layer.within parent step.header.vars)
  let layer ← materialize layer
  let env := parent.child layer
  if options.resolveVariables then ofVariables env.resolveAll else return env

/-- What a value is in an environment, unless placeholders are left to the client. -/
def resolved (options : Options) (env : Environment) (value : Json) : Except VariableError Json :=
  if options.resolveVariables then env.resolve .strict value else .ok value

/-- The variables that a step takes from the body of a response. -/
def captured (step : RestCallStep) (body : Json) : List (String × Variable) :=
  step.header.outputs.entries.filterMap fun (name, output) => do
    let pointer ← output.fromResponse >>= Pointer.parse
    let value ← body.partAt? pointer
    return (name, Variable.ofValue output.kind value)

/-- The kind of variable that an output of a deployment makes: what the template says, or what the
step says, or a text. -/
def outputKind (step : DeploymentStep) (name : String) : VariableKind :=
  match step.template.outputs.get? name, step.header.outputs.get? name with
  | some output, _ => output.kind
  | none, some output => output.kind
  | none, none => .string

/-- Sets variables where a phase belongs. -/
def outputs (phase : Phase) (vars : List (String × Variable)) : Runs Unit :=
  vars.forM fun (name, v) => output phase name v

/-- Sends the request of a step, sets what is taken from the response, and says what happened. -/
def sendRequest (options : Options) (client : Client) (phase : Phase) (step : RestCallStep)
    (env : Environment) : Runs String := do
  let request ← match Request.ofStep step with
    | .ok request => pure request
    | .error e => throw (.request e)
  let request ← if options.resolveVariables then ofVariables (request.resolve env) else pure request
  let response ← ask client phase (.send step request env)
  outputs phase (captured step response.body)
  return request.method.name ++ " " ++ request.path ++ " -> " ++ toString response.status

/-- The values of the parameters of a template that have a value in an environment. -/
def deploymentParameters (options : Options) (template : Template) (env : Environment) :
    Except VariableError (Dict Json) :=
  let values := template.parameters.names.filterMap fun name => (env.value? name).map (name, ·)
  (Dict.ofList values).mapM fun _ value => resolved options env value

/-- Deploys the template of a step, sets the outputs, and says what happened. -/
def deploy (options : Options) (client : Client) (phase : Phase) (step : DeploymentStep)
    (env : Environment) : Runs String := do
  let subscription ← ofVariables (env.requireString ReservedName.subscription)
  let container ← ofVariables (env.requireString ReservedName.container)
  let suffix ← drawSuffix
  let template ← ofVariables (resolved options env step.template.toJson)
  let parameters ← ofVariables (deploymentParameters options step.template env)
  let deployment : Deployment :=
    { subscription, container, name := step.header.name ++ "_" ++ suffix, parameters }
  let produced ← ask client phase (.deploy step template deployment env)
  outputs phase (produced.entries.map fun (name, value) =>
    (name, Variable.ofValue (outputKind step name) value))
  return "deployment " ++ deployment.name ++ " to " ++ deployment.container

/-- Does what a step is for. -/
def dispatch (options : Options) (client : Client) (phase : Phase) (step : Step) (env : Environment) :
    Runs String :=
  match step with
  | .rest step => sendRequest options client phase step env
  | .deployment step => deploy options client phase step env

/-- Reports that a step failed and fails; secrets of the environment are covered. -/
def failStep (phase : Phase) (step : Step) (env : Environment) (e : RunError) : Runs Unit := do
  report step phase .failed (env.mask e.message)
  throw (e.inStep (← get).scenario step.name)

/-- Runs a step and reports on it. -/
def step (options : Options) (client : Client) (phase : Phase) (step : Step) : Runs Unit := do
  match ← attempt (stepEnvironment options phase step) with
  | .error e => failStep phase step ((← get).environment phase) e
  | .ok env =>
    match ← attempt (dispatch options client phase step env) with
    | .error e => failStep phase step env e
    | .ok message =>
      -- The outputs that the step has just set may hold secrets.
      let env := ((← get).environment phase).child env.inner
      report step phase .completed (env.mask message)

end Rehearsal.Run
