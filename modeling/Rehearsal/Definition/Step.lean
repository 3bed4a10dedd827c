import Rehearsal.Operation
import Rehearsal.Template.Script

/-!
# Steps of a definition

A step either calls an operation or deploys a template. It runs in one of three phases: before
the scenarios of a scope, as part of a scenario, or after it.

* `Phase`, `StepHeader`: what all steps have;
* `RestCallStep`, `DeploymentStep`, `Step`: the two kinds;
* `Step.toJson`: the written form.
-/

namespace Rehearsal

/-- When a step runs. -/
inductive Phase where
  /-- Before the scenarios of a scope. -/
  | prepare
  /-- As part of a scenario. -/
  | scenario
  /-- After a scenario. -/
  | cleanup
deriving DecidableEq, Inhabited

namespace Phase

/-- The name of a phase. -/
def name : Phase → String
  | .prepare => "prepare"
  | .scenario => "scenario"
  | .cleanup => "cleanup"

/-- The phase of a name. -/
def ofJson? (json : Json) : Option Phase := do
  let text ← json.constant?
  [Phase.prepare, .scenario, .cleanup].find? (·.name == text)

end Phase

/-- A variable that a step sets. -/
structure OutputVariable where
  /-- The kind of variable it makes. -/
  kind : VariableKind
  /-- The pointer to the value in the response, as written. -/
  fromResponse : Option String := none
deriving Inhabited, DecidableEq

/-- The written form. -/
def OutputVariable.toJson (v : OutputVariable) : Json :=
  Json.ofFields [("type", some (.str v.kind.name)), ("fromResponse", v.fromResponse.map .str)]

/-- What all steps have. -/
structure StepHeader where
  /-- The name, unique among the steps it runs with. -/
  name : String
  /-- The description. -/
  description : Option String := none
  /-- What the step declares. -/
  vars : Declarations := {}
  /-- When the step runs. -/
  phase : Phase := .scenario
  /-- The variables that the step sets, by name. -/
  outputs : Dict OutputVariable := ∅
deriving Inhabited

/-- The written form of a header, as fields of its step. -/
def StepHeader.toFields (h : StepHeader) : List (String × Option Json) :=
  [("name", some (.str h.name)), ("description", h.description.map .str),
    ("variables", some h.vars.toJson), ("isPrepareStep", some (.bool (h.phase == .prepare))),
    ("isCleanupStep", some (.bool (h.phase == .cleanup))),
    ("outputVariables",
      if h.outputs.isEmpty then none else some (Json.ofDictWith OutputVariable.toJson h.outputs))]

/-- What a response is expected to be. -/
structure ResponseAssertion where
  /-- The body; null expects nothing. -/
  body : Json := .null
  /-- The headers. -/
  headers : Dict Json := ∅
deriving Inhabited

namespace ResponseAssertion

/-- The written form. -/
def toJson (a : ResponseAssertion) : Json :=
  Json.ofFields
    [("body", if a.body.isNull then none else some a.body),
      ("headers", if a.headers.isEmpty then none else some (Json.ofDict a.headers))]

/-- Reads the written form. -/
def ofJson? (json : Json) : Option ResponseAssertion := do
  let fields ← json.record? [] ["body", "headers"]
  return { body := ← fields.withDefault "body" .null some,
           headers := ← fields.withDefault "headers" ∅ Json.dict? }

end ResponseAssertion

/-- A step that calls an operation. -/
structure RestCallStep where
  /-- What all steps have. -/
  header : StepHeader
  /-- The tag of the catalog that describes the operation. -/
  externalReference : Option String := none
  /-- The path of the example fixture. -/
  exampleFile : Option String := none
  /-- The operation. -/
  operation : Operation
  /-- The values of parameters, by name. -/
  parameters : Dict Json := ∅
  /-- The expected responses, by status. -/
  responses : Dict ResponseAssertion := ∅
deriving Inhabited

/-- A step that deploys a template. -/
structure DeploymentStep where
  /-- What all steps have. -/
  header : StepHeader
  /-- The template. -/
  template : Template
  /-- The path of the template or script. -/
  sourceFile : String
  /-- The shell, if the template runs a script. -/
  scriptKind : Option ScriptKind := none
deriving Inhabited

/-- The kinds of steps. -/
inductive StepKind where
  /-- Calls an operation. -/
  | restCall
  /-- Deploys a template. -/
  | deployment
deriving DecidableEq, Inhabited

namespace StepKind

/-- The name of a kind. -/
def name : StepKind → String
  | .restCall => "RestCall"
  | .deployment => "ArmTemplateDeployment"

/-- The kind of a name. -/
def ofJson? (json : Json) : Option StepKind := do
  let text ← json.constant?
  [StepKind.restCall, .deployment].find? (·.name == text)

end StepKind

/-- A step. -/
inductive Step where
  /-- Calls an operation. -/
  | rest (step : RestCallStep)
  /-- Deploys a template. -/
  | deployment (step : DeploymentStep)
deriving Inhabited

namespace Step

/-- What all steps have. -/
def header : Step → StepHeader
  | .rest step => step.header
  | .deployment step => step.header

/-- The step with its header changed. -/
def modifyHeader (f : StepHeader → StepHeader) : Step → Step
  | .rest step => .rest { step with header := f step.header }
  | .deployment step => .deployment { step with header := f step.header }

/-- The name. -/
def name (s : Step) : String := s.header.name

/-- The kind. -/
def kind : Step → StepKind
  | .rest _ => .restCall
  | .deployment _ => .deployment

/-- What the step calls or deploys. -/
def target : Step → String
  | .rest step => step.operation.id
  | .deployment step => step.sourceFile

/-- The written form. -/
def toJson (s : Step) : Json :=
  let particular := match s with
    | .rest step =>
      [("operationId", some (.str step.operation.id)), ("externalReference", step.externalReference.map .str),
        ("exampleFile", step.exampleFile.map .str), ("parameters", some (Json.ofDict step.parameters)),
        ("responses", if step.responses.isEmpty then none
          else some (Json.ofDictWith ResponseAssertion.toJson step.responses))]
    | .deployment step =>
      [("template", some step.template.toJson), ("sourceFile", some (.str step.sourceFile)),
        ("scriptKind", step.scriptKind.map fun kind => .str kind.name)]
  Json.ofFields ([("type", some (.str s.kind.name))] ++ s.header.toFields ++ particular)

end Step

end Rehearsal
