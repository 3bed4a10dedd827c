import Rehearsal.Compile.Step

/-!
# Compilation

A draft becomes a definition: references are looked up, steps get names, and every scope learns
which variables it demands from outside. Steps to prepare and to clean up belong to the
definition; each scenario sees the definition as it is behind them and changes nothing of it.

* `Compile.steps`: a list of steps that run together, whose names differ;
* `Compile.scenario`, `Sources.compile`: scenarios and whole drafts;
* `Sources.compileFile`: the draft in a file.
-/

namespace Rehearsal

namespace Compile

/-- Compiled steps, the declarations of their owner behind them, and the files that describe the
operations they call. -/
structure Batch where
  /-- The steps. -/
  steps : List Step := []
  /-- The declarations of their owner. -/
  owner : Declarations
  /-- The files, in the order of the steps. -/
  specs : List String := []
deriving Inhabited

/-- Compiles a step under a name that is not taken. A step without a name is called after its
place, which `label` states, and what it refers to. -/
def labelledStep (setting : Setting) (phase : Phase) (outer : Option Declarations) (taken : List String)
    (owner : Declarations) (label : String) (draft : Draft.Step) : Except CompileError Outcome :=
  match draft.reference with
  | .error e => .error ((CompileError.invalidStep (.reference e)).inStep (draft.name.getD label) draft)
  | .ok reference =>
    let name := draft.name.getD (label ++ "_" ++ nameOfReference reference)
    if name ∈ taken then .error ((CompileError.duplicateStepName name).inStep name draft)
    else (step setting phase outer owner draft reference name).mapError fun e => e.inStep name draft

/-- Compiles steps that run together, the first of which has place `index`. -/
def steps (setting : Setting) (phase : Phase) (outer : Option Declarations) (label : String) :
    (index : Nat) → (taken : List String) → Declarations → List Draft.Step → Except CompileError Batch
  | _, _, owner, [] => .ok { owner }
  | index, taken, owner, draft :: rest => do
    let outcome ← labelledStep setting phase outer taken owner (label ++ "_" ++ toString index) draft
    let batch ← steps setting phase outer label (index + 1) (outcome.step.name :: taken) outcome.owner rest
    return { steps := outcome.step :: batch.steps, owner := batch.owner,
             specs := outcome.source.toList ++ batch.specs }

/-- Compiles the scenario in place `index` of a definition that declares `outer`. It demands
whatever the definition demands. -/
def scenario (setting : Setting) (outer : Declarations) (index : Nat) (draft : Draft.Scenario) :
    Except CompileError (Scenario × List String) := do
  let label := "scenario_" ++ toString index
  let vars ← declareAll [outer] draft.vars
  let batch ← steps setting .scenario (some outer) label 0 [] vars draft.steps
  let scenario : Scenario :=
    { position := index, name := draft.name.getD label, description := draft.description,
      shareScope := draft.shareScope, steps := batch.steps,
      vars := outer.required.foldl Declarations.require batch.owner }
  return (scenario, batch.specs)

/-- Compiles the scenarios of a definition that declares `outer`, the first of which has place
`index`. -/
def scenarios (setting : Setting) (outer : Declarations) :
    (index : Nat) → List Draft.Scenario → Except CompileError (List (Scenario × List String))
  | _, [] => .ok []
  | index, draft :: rest => do
    return (← scenario setting outer index draft) :: (← scenarios setting outer (index + 1) rest)

/-- The declarations of a definition before its steps: its variables, and the names that every
scope of its kind demands. -/
def definitionScope (scope : ScopeKind) (vars : Dict Declaration) : Except CompileError Declarations :=
  (declareAll [] vars).map (scope.impliedRequirements.foldl Declarations.require)

end Compile

/-- Compiles a draft; `path` says where it was written, and files are named as seen from there. -/
def Sources.compile (sources : Sources) (draft : Draft.Definition) (path : String) :
    Except CompileError Definition := do
  let scope ← match ScopeKind.parse draft.scope with
    | some scope => pure scope
    | none => throw (.unsupportedScope (draft.scope.getD ""))
  let own ← Compile.definitionScope scope draft.vars
  let setting : Compile.Setting := { sources, scope, directory := (Path.parse path).parent? }
  let prepare ← Compile.steps setting .prepare none "prepare" 0 [] own draft.prepareSteps
  let taken := prepare.steps.map Step.name
  let cleanup ← Compile.steps setting .cleanup none "cleanup" 0 taken prepare.owner draft.cleanupSteps
  let scenarios ← Compile.scenarios setting cleanup.owner 0 draft.scenarios
  let specs := prepare.specs ++ cleanup.specs ++ scenarios.flatMap Prod.snd
  return { scope, prepareSteps := prepare.steps, cleanupSteps := cleanup.steps,
           scenarios := scenarios.map Prod.fst, vars := cleanup.owner, filePath := path,
           referencedSpecs := specs.foldl Declarations.appendNew [] }

/-- Compiles the draft in a file. -/
def Sources.compileFile (sources : Sources) (path : String) : Except CompileError Definition := do
  let document ← (sources.files.document path).mapError (.load path)
  match Draft.Definition.ofJson? document with
  | some draft => sources.compile draft path
  | none => throw (.load path .malformed)

end Rehearsal
