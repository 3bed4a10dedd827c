import Rehearsal.Variable

/-!
# Drafts

A draft is a definition as its author writes it: variables, steps to prepare and to clean up, and
scenarios made of steps. It refers to operations by id and to fixtures, templates and scripts by
path, and it says nothing about what these are.

* `Draft.Step.reference`: what a step refers to; every step has exactly one reference;
* `Draft.Definition.ofJson?`, `Draft.Definition.toJson`: the document of a draft.
-/

namespace Rehearsal.Draft

/-- A variable of a script's environment. -/
structure ScriptVariable where
  /-- Its name. -/
  name : String
  /-- Its value. -/
  value : String := ""
deriving Inhabited

namespace ScriptVariable

/-- The written form. -/
def toJson (v : ScriptVariable) : Json := Json.ofMembers [("name", .str v.name), ("value", .str v.value)]

/-- Reads the written form. -/
def ofJson? (json : Json) : Option ScriptVariable := do
  let fields ← json.record? ["name"] ["value"]
  return { name := ← fields.required "name" Json.str?,
           value := ← fields.withDefault "value" "" Json.str? }

end ScriptVariable

/-- A variable that a step sets from its response. -/
structure OutputVariable where
  /-- The kind of variable it makes. -/
  kind : Option VariableKind := none
  /-- The pointer to the value in the response. -/
  fromResponse : Option String := none
deriving Inhabited

namespace OutputVariable

/-- The written form. -/
def toJson (v : OutputVariable) : Json :=
  Json.ofFields [("type", v.kind.map fun kind => .str kind.name), ("fromResponse", v.fromResponse.map .str)]

/-- Reads the written form. -/
def ofJson? (json : Json) : Option OutputVariable := do
  let fields ← json.record? [] ["type", "fromResponse"]
  return { kind := ← fields.optional "type" VariableKind.ofJson?,
           fromResponse := ← fields.optional "fromResponse" Json.str? }

end OutputVariable

/-- A step. -/
structure Step where
  /-- The name. -/
  name : Option String := none
  /-- The description. -/
  description : Option String := none
  /-- The id of an operation. -/
  operationId : Option String := none
  /-- The path of an example fixture. -/
  exampleFile : Option String := none
  /-- The path of a deployment template. -/
  template : Option String := none
  /-- The path of a script. -/
  script : Option String := none
  /-- The tag of the catalog that describes the operation. -/
  externalReference : Option String := none
  /-- The values of parameters. -/
  parameters : Dict Json := ∅
  /-- The expected responses, by status. -/
  responses : Dict Json := ∅
  /-- Edits of the parameters. -/
  requestUpdate : List Json := []
  /-- Edits of the expected responses. -/
  responseUpdate : List Json := []
  /-- The arguments of a script. -/
  arguments : Option String := none
  /-- The environment of a script. -/
  environmentVariables : List ScriptVariable := []
  /-- The variables of the step. -/
  vars : Dict Declaration := ∅
  /-- The variables that the step sets. -/
  outputVariables : Dict OutputVariable := ∅
deriving Inhabited

/-- What a step refers to. -/
inductive Reference where
  /-- An operation by id. -/
  | operation (id : String)
  /-- An example fixture by path. -/
  | fixture (path : String)
  /-- A deployment template by path. -/
  | template (path : String)
  /-- A script by path. -/
  | script (path : String)
deriving DecidableEq, Inhabited

/-- Why a step has no usable reference. -/
inductive ReferenceError where
  /-- There is none. -/
  | missing
  /-- There are several. -/
  | several
deriving DecidableEq

/-- The wording of an error. -/
def ReferenceError.message : ReferenceError → String
  | .missing => "step must reference an operationId, exampleFile, armTemplate or armDeploymentScript"
  | .several => "step references more than one of operationId, exampleFile, armTemplate, armDeploymentScript"

namespace Step

/-- The references that a step has. -/
def references (s : Step) : List Reference :=
  (s.operationId.map .operation).toList ++ (s.exampleFile.map .fixture).toList ++
    (s.template.map .template).toList ++ (s.script.map .script).toList

/-- The reference of a step. A fixture may name its operation beside the file. -/
def reference (s : Step) : Except ReferenceError Reference :=
  match s.references with
  | [reference] => .ok reference
  | [.operation _, .fixture path] => .ok (.fixture path)
  | [] => .error .missing
  | _ => .error .several

/-- The written form of a dictionary, unless it is empty. -/
def nonEmptyDict {α : Type} (write : α → Json) (dict : Dict α) : Option Json :=
  if dict.isEmpty then none else some (Json.ofDictWith write dict)

/-- The written form of a list, unless it is empty. -/
def nonEmptyList {α : Type} (write : α → Json) (items : List α) : Option Json :=
  if items.isEmpty then none else some (Json.ofListWith write items)

/-- The written form, without the fields that are empty. -/
def toJson (s : Step) : Json :=
  Json.ofFields
    [("step", s.name.map .str), ("description", s.description.map .str),
      ("operationId", s.operationId.map .str), ("exampleFile", s.exampleFile.map .str),
      ("armTemplate", s.template.map .str), ("armDeploymentScript", s.script.map .str),
      ("externalReference", s.externalReference.map .str), ("parameters", nonEmptyDict id s.parameters),
      ("responses", nonEmptyDict id s.responses), ("requestUpdate", nonEmptyList id s.requestUpdate),
      ("responseUpdate", nonEmptyList id s.responseUpdate), ("arguments", s.arguments.map .str),
      ("environmentVariables", nonEmptyList ScriptVariable.toJson s.environmentVariables),
      ("variables", nonEmptyDict Declaration.toJson s.vars),
      ("outputVariables", nonEmptyDict OutputVariable.toJson s.outputVariables)]

/-- The names of the fields, in the order in which an array has them. -/
def fieldNames : List String :=
  ["step", "description", "operationId", "exampleFile", "armTemplate", "armDeploymentScript",
    "externalReference", "parameters", "responses", "requestUpdate", "responseUpdate", "arguments",
    "environmentVariables", "variables", "outputVariables"]

/-- The fields of a step. -/
def fields? (json : Json) : Option Fields := do
  (← json.record? [] fieldNames).unify "externalReference" "readmeTag"

/-- Reads the written form. -/
def ofJson? (json : Json) : Option Step := do
  let fields ← fields? json
  return { name := ← fields.optional "step" Json.str?,
           description := ← fields.optional "description" Json.str?,
           operationId := ← fields.optional "operationId" Json.str?,
           exampleFile := ← fields.optional "exampleFile" Json.str?,
           template := ← fields.optional "armTemplate" Json.str?,
           script := ← fields.optional "armDeploymentScript" Json.str?,
           externalReference := ← fields.optional "externalReference" Json.str?,
           parameters := ← fields.withDefault "parameters" ∅ Json.dict?,
           responses := ← fields.withDefault "responses" ∅ Json.dict?,
           requestUpdate := ← fields.withDefault "requestUpdate" [] Json.items?,
           responseUpdate := ← fields.withDefault "responseUpdate" [] Json.items?,
           arguments := ← fields.optional "arguments" Json.str?,
           environmentVariables := ←
             fields.withDefault "environmentVariables" [] (Json.listOf? ScriptVariable.ofJson?),
           vars := ← fields.withDefault "variables" ∅ (Json.dictOf? Declaration.ofJson?),
           outputVariables := ←
             fields.withDefault "outputVariables" ∅ (Json.dictOf? OutputVariable.ofJson?) }

end Step

/-- A scenario. -/
structure Scenario where
  /-- The name. -/
  name : Option String := none
  /-- The description. -/
  description : Option String := none
  /-- Whether the scenario uses the scope that others of the definition use. -/
  shareScope : Bool := true
  /-- The variables of the scenario. -/
  vars : Dict Declaration := ∅
  /-- The steps. -/
  steps : List Step := []
deriving Inhabited

namespace Scenario

/-- The written form. -/
def toJson (s : Scenario) : Json :=
  Json.ofFields
    [("scenario", s.name.map .str), ("description", s.description.map .str),
      ("shareScope", some (.bool s.shareScope)),
      ("variables", some (Json.ofDictWith Declaration.toJson s.vars)),
      ("steps", some (Json.ofListWith Step.toJson s.steps))]

/-- Reads the written form. -/
def ofJson? (json : Json) : Option Scenario := do
  let fields ← json.record? [] ["scenario", "description", "shareScope", "variables", "steps"]
  return { name := ← fields.optional "scenario" Json.str?,
           description := ← fields.optional "description" Json.str?,
           shareScope := ← fields.withDefault "shareScope" true Json.bool?,
           vars := ← fields.withDefault "variables" ∅ (Json.dictOf? Declaration.ofJson?),
           steps := ← fields.withDefault "steps" [] (Json.listOf? Step.ofJson?) }

end Scenario

/-- A definition. -/
structure Definition where
  /-- The name of the scope's kind. -/
  scope : Option String := none
  /-- The variables of the definition. -/
  vars : Dict Declaration := ∅
  /-- The steps that prepare the scope. -/
  prepareSteps : List Step := []
  /-- The steps that clean the scope up. -/
  cleanupSteps : List Step := []
  /-- The scenarios. -/
  scenarios : List Scenario := []
deriving Inhabited

namespace Definition

/-- The written form. -/
def toJson (d : Definition) : Json :=
  Json.ofFields
    [("scope", d.scope.map .str), ("variables", some (Json.ofDictWith Declaration.toJson d.vars)),
      ("prepareSteps", some (Json.ofListWith Step.toJson d.prepareSteps)),
      ("cleanUpSteps", some (Json.ofListWith Step.toJson d.cleanupSteps)),
      ("scenarios", some (Json.ofListWith Scenario.toJson d.scenarios))]

/-- The fields of a definition. -/
def fields? (json : Json) : Option Fields := do
  (← json.record? [] ["scope", "variables", "prepareSteps", "cleanUpSteps", "scenarios"]).unify
    "cleanUpSteps" "cleanupSteps"

/-- Reads the written form. -/
def ofJson? (json : Json) : Option Definition := do
  let fields ← fields? json
  return { scope := ← fields.optional "scope" Json.str?,
           vars := ← fields.withDefault "variables" ∅ (Json.dictOf? Declaration.ofJson?),
           prepareSteps := ← fields.withDefault "prepareSteps" [] (Json.listOf? Step.ofJson?),
           cleanupSteps := ← fields.withDefault "cleanUpSteps" [] (Json.listOf? Step.ofJson?),
           scenarios := ← fields.withDefault "scenarios" [] (Json.listOf? Scenario.ofJson?) }

/-- All steps of a definition. -/
def allSteps (d : Definition) : List Step :=
  d.prepareSteps ++ d.cleanupSteps ++ d.scenarios.flatMap (·.steps)

end Definition

end Rehearsal.Draft
