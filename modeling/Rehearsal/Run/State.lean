import Rehearsal.Report
import Rehearsal.Environment.Secrets
import Rehearsal.Run.Error
import Rehearsal.Run.Scope

/-!
# The state of a run

While a scenario runs, its scope, its own layer of variables, the generator of suffixes, the
exchanges with the client and the reports on its steps change. Steps that prepare or clean up
belong to the scope, the others to the scenario: what they set is set there, and what they see is
what is visible from there.

* `Run`, `Runs`: the state, and what changes it and may fail;
* `Run.ask`, `Run.report`, `Run.output`: the changes.
-/

namespace Rehearsal

/-- The state of a run of a scenario. -/
structure Run where
  /-- The name of the scenario. -/
  scenario : String
  /-- Its place in the definition. -/
  position : Nat
  /-- The scope it runs in. -/
  scope : RuntimeScope
  /-- The variables of the scenario itself. -/
  layer : Layer := {}
  /-- The generator of suffixes. -/
  suffixes : Suffixes
  /-- Everything exchanged with the client so far, also in earlier runs. -/
  trace : List Exchange := []
  /-- The reports on the steps that are done with. -/
  steps : List StepReport := []
deriving Inhabited

/-- What changes a run and may fail; a failure keeps the changes. -/
abbrev Runs := ExceptT RunError (StateM Run)

namespace Run

/-- The variables that are visible in a phase. -/
def environment (run : Run) : Phase → Environment
  | .scenario => run.scope.environment.child run.layer
  | .prepare | .cleanup => run.scope.environment

/-- Changes the layer that a phase belongs to. -/
def modifyLayer (run : Run) (phase : Phase) (f : Layer → Layer) : Run :=
  match phase with
  | .scenario => { run with layer := f run.layer }
  | .prepare | .cleanup => { run with scope := { run.scope with layer := f run.scope.layer } }

/-- The exchange of a call and its answer as things stand. -/
def exchange (run : Run) (phase : Phase) (call : Call) (answer : Except String call.Answer) : Exchange :=
  { scope := run.scope.name, status := run.scope.status, position := run.position, phase, call, answer }

/-- Asks the client, and keeps what was exchanged. -/
def ask (client : Client) (phase : Phase) (call : Call) : Runs call.Answer := do
  let run ← get
  let answer := client.answer run.trace call
  set { run with trace := run.trace ++ [run.exchange phase call answer] }
  match answer with
  | .ok answer => return answer
  | .error reason => throw (.client call.name reason)

/-- Adds the report on a step. -/
def report (step : Step) (phase : Phase) (status : StepStatus) (message : String) : Runs Unit :=
  modify fun run => { run with steps := run.steps ++ [.ofStep step phase status message] }

/-- Sets a variable where a phase belongs. -/
def output (phase : Phase) (name : String) (v : Variable) : Runs Unit :=
  modify fun run => run.modifyLayer phase fun layer => layer.set name v

/-- Says how far the scope is. -/
def setStatus (status : ProvisionStatus) : Runs Unit :=
  modify fun run => { run with scope := { run.scope with status } }

/-- Draws a suffix. -/
def drawSuffix : Runs String :=
  modifyGet fun run =>
    let (suffix, suffixes) := run.suffixes.next
    (suffix, { run with suffixes })

/-- Generates the values of a layer that are due. -/
def materialize (layer : Layer) : Runs Layer :=
  modifyGet fun run =>
    let (layer, _, suffixes) := layer.materialize run.suffixes
    (layer, { run with suffixes })

/-- What does not depend on the run, as far as it concerns variables. -/
def ofVariables {α : Type} : Except VariableError α → Runs α
  | .ok value => return value
  | .error e => throw (.variable e)

/-- Does something and goes on, whether it failed or not. -/
def attempt {α : Type} (act : Runs α) : Runs (Except RunError α) := fun run =>
  let (result, run) := act run
  (.ok result, run)

end Run

end Rehearsal
