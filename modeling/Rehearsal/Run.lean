import Rehearsal.Run.Step

/-!
# Running scenarios

A session runs scenarios one after the other against a client. Scenarios that share a scope find
it as the one before left it; a scope is provisioned once, and if that fails every later scenario
in it fails for the same reason. Behind each scenario its scope is cleaned up.

* `Run.provision`, `Run.scenarioSteps`, `Run.cleanup`, `Run.perform`: a run and its parts;
* `Session.openScope`: the scope of a scenario;
* `Session.runScenario`, `Session.runDefinition`: one scenario, and all of a definition;
* `Session.resolvedParameters?`: the parameters that a step was called with.
-/

namespace Rehearsal

namespace Run

/-- Creates the container of the scope, if it needs one, and runs the steps that prepare it. -/
def provisionOnce (options : Options) (client : Client) : Runs Unit := do
  let scope := (← get).scope
  if scope.kind.needsContainer then
    let env := scope.environment
    let subscription ← ofVariables (env.requireString ReservedName.subscription)
    let name ← ofVariables (env.requireString ReservedName.container)
    let location ← ofVariables (env.requireString ReservedName.location)
    ask client .prepare (.createContainer subscription name location)
  scope.prepareSteps.forM (step options client .prepare)

/-- Provisions the scope unless that was done before; a failure is remembered with its secrets
covered. -/
def provision (options : Options) (client : Client) : Runs Unit := do
  let scope := (← get).scope
  match scope.status with
  | .provisioned => return
  | .failed message => throw (.provisioning scope.name message)
  | .unprovisioned | .provisioning =>
    setStatus .provisioning
    match ← attempt (provisionOnce options client) with
    | .ok () => setStatus .provisioned
    | .error e =>
      setStatus (.failed ((← get).scope.environment.mask e.message))
      throw e

/-- Reports that steps were skipped. -/
def skip (phase : Phase) (message : String) (steps : List Step) : Runs Unit :=
  steps.forM fun step => report step phase .skipped message

/-- Runs the steps of a scenario; behind one that fails all are skipped. -/
def scenarioSteps (options : Options) (client : Client) : List Step → Runs Unit
  | [] => return
  | first :: rest => do
    match ← attempt (step options client .scenario first) with
    | .ok () => scenarioSteps options client rest
    | .error e =>
      skip .scenario "previous step failed" rest
      throw e

/-- Provisions the scope and runs the steps of a scenario. -/
def body (options : Options) (client : Client) (scenario : Scenario) : Runs Unit := do
  match ← attempt (provision options client) with
  | .ok () => scenarioSteps options client scenario.steps
  | .error e =>
    skip .scenario "scope provisioning failed" scenario.steps
    throw e

/-- Runs the steps that clean the scope up, until one fails, and deletes the container. -/
def cleanup (options : Options) (client : Client) : Runs Unit := do
  (← get).scope.cleanupSteps.forM (step options client .cleanup)
  let scope := (← get).scope
  if scope.kind.needsContainer then
    let env := scope.environment
    let subscription ← ofVariables (env.requireString ReservedName.subscription)
    let name ← ofVariables (env.requireString ReservedName.container)
    ask client .cleanup (.deleteContainer subscription name)

/-- Cleans up, unless scopes are to be left as they are. -/
def finish (options : Options) (client : Client) : Runs Unit := do
  if options.skipCleanup then skip .cleanup "cleanup disabled" (← get).scope.cleanupSteps
  else cleanup options client

/-- What a run comes to, given what its body and its cleanup came to. -/
def settle (scenario : String) (body cleanup : Except RunError Unit) : Except RunError Unit :=
  match body, cleanup with
  | .ok (), .ok () => .ok ()
  | .error failure, .ok () => .error (failure.inScenario scenario)
  | .ok (), .error cleanup => .error (cleanup.inScenario scenario)
  | .error failure, .error cleanup => .error (.cleanupAfterFailure scenario failure cleanup)

/-- Runs a scenario: the client gets ready, then come its body and the cleanup, which failures of
the body do not prevent. -/
def perform (options : Options) (client : Client) (scenario : Scenario) : Runs Unit := do
  let env := (← get).environment .scenario
  match ← attempt (ask client .scenario (.prepare scenario env)) with
  | .error e => throw (e.inScenario scenario.name)
  | .ok () =>
    let body ← attempt (body options client scenario)
    let cleanup ← attempt (finish options client)
    match settle scenario.name body cleanup with
    | .ok () => return
    | .error e => throw e

end Run

/-- What lasts from one run to the next. -/
structure Session where
  /-- How scenarios are run. -/
  options : Options := {}
  /-- The generator of suffixes. -/
  suffixes : Suffixes
  /-- The scopes by name. -/
  scopes : Dict RuntimeScope := ∅
  /-- Everything exchanged with the client. -/
  trace : List Exchange := []
deriving Inhabited

/-- What a run of a scenario comes to. -/
structure Result where
  /-- The session behind it. -/
  session : Session
  /-- The report. -/
  report : ScenarioReport
  /-- Why it failed. -/
  outcome : Except RunError Unit := .ok ()

namespace Session

/-- A session in which nothing has run. -/
def new (options : Options) (seed : Nat) : Session := { options, suffixes := .ofSeed seed }

/-- The name of a scope within a definition: one for all scenarios that share, and a generated one
for each run of a scenario that does not. Answers the generator behind the name as well. -/
def scopeLabel (session : Session) (scenario : Scenario) : String × Suffixes :=
  if scenario.shareScope then ("default", session.suffixes)
  else
    let (suffix, suffixes) := session.suffixes.next
    ("scope_" ++ suffix, suffixes)

/-- The scope of a scenario, which is built if there is none of its name, and the session that has
it. If it cannot be built the session has the scopes it had. -/
def openScope (session : Session) (definition : Definition) (scenario : Scenario) (caller : Environment) :
    Except VariableError RuntimeScope × Session :=
  let (label, suffixes) := session.scopeLabel scenario
  let session := { session with suffixes }
  let name := definition.filePath ++ "#" ++ label
  match session.scopes.get? name with
  | some scope => (.ok scope, session)
  | none =>
    match RuntimeScope.build definition name caller suffixes with
    | .ok (scope, suffixes) =>
      (.ok scope, { session with suffixes, scopes := session.scopes.insert name scope })
    | .error e => (.error e, session)

/-- The failure of a scenario that did not begin. -/
def failed (session : Session) (scenario : Scenario) (scope : String) (env : Environment)
    (e : VariableError) : Result :=
  let e := (RunError.variable e).inScenario scenario.name
  { session, report := { scenario := scenario.name, scope, error := some (env.mask e.message) },
    outcome := .error e }

/-- The run of a scenario in its scope, before its first step. -/
def start (session : Session) (scenario : Scenario) (scope : RuntimeScope) : Except VariableError Run := do
  let layer ← Layer.within scope.environment scenario.vars
  let (layer, _, suffixes) := layer.materialize session.suffixes
  return { scenario := scenario.name, position := scenario.position, scope, layer, suffixes,
           trace := session.trace }

/-- The session behind a run. -/
def resume (session : Session) (run : Run) : Session :=
  { session with
    suffixes := run.suffixes
    trace := run.trace
    scopes := session.scopes.insert run.scope.name run.scope }

/-- Runs a scenario of a definition for a caller's environment. -/
def runScenario (session : Session) (client : Client) (definition : Definition) (scenario : Scenario)
    (caller : Environment) : Result :=
  match session.openScope definition scenario caller with
  | (.error e, session) => session.failed scenario "" caller e
  | (.ok scope, session) =>
    match session.start scenario scope with
    | .error e => session.failed scenario scope.name scope.environment e
    | .ok run =>
      let (outcome, run) := Run.perform session.options client scenario run
      let error := match outcome with
        | .ok () => none
        | .error e => some ((run.environment .scenario).mask e.message)
      { session := session.resume run,
        report := { scenario := scenario.name, scope := scope.name, steps := run.steps, error },
        outcome }

/-- Runs scenarios in order, whether they fail or not. -/
def runScenarios (session : Session) (client : Client) (definition : Definition) (caller : Environment) :
    List Scenario → Session × List ScenarioReport
  | [] => (session, [])
  | scenario :: rest =>
    let result := session.runScenario client definition scenario caller
    let (session, reports) := result.session.runScenarios client definition caller rest
    (session, result.report :: reports)

/-- Runs all scenarios of a definition. -/
def runDefinition (session : Session) (client : Client) (definition : Definition) (caller : Environment) :
    Session × Report :=
  let (session, scenarios) := session.runScenarios client definition caller definition.scenarios
  (session, { filePath := definition.filePath, scenarios })

/-- The parameters of the step of an exchange as it was sent, if the exchange was a request of
this step of this scenario and the client answered it. -/
def sentParameters? (position : Nat) (name : String) (exchange : Exchange) : Option (Dict Json) :=
  match exchange with
  | { call := .send step _ env, answer := .ok _, .. } =>
    if exchange.position = position ∧ exchange.phase = .scenario ∧ step.header.name = name then
      some (step.parameters.mapValues fun _ value => env.resolveDeferred value)
    else none
  | _ => none

/-- The parameters that a step of a scenario was first answered for, as far as they could be
resolved. -/
def resolvedParameters? (session : Session) (position : Nat) (name : String) : Option (Dict Json) :=
  session.trace.findSome? (sentParameters? position name)

end Session

end Rehearsal
