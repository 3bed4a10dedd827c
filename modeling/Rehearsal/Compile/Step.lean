import Rehearsal.Compile.Scopes
import Rehearsal.Placeholder
import Rehearsal.Definition.Step
import Rehearsal.Json.MergePatch

/-!
# Compiled steps

A step is compiled within the scopes it sees. Whatever it takes from the environment and nobody
declares is demanded of its owner, and what it sets is declared there for the steps that follow.

* `Compile.bindParameter`: where the value of an operation's parameter comes from;
* `Compile.operationStep`, `Compile.fixtureStep`: steps that call an operation, with parameters
  of their own or those of a recorded example;
* `Compile.templateStep`, `Compile.scriptStep`: steps that deploy;
* `Compile.step`: any step.
-/

namespace Rehearsal

/-- What drafts are compiled against. -/
structure Sources where
  /-- The operations. -/
  index : OperationIndex := {}
  /-- The files. -/
  files : Files
  /-- The response body that a resource has, given the schema of the response. -/
  shape : Json → Option Json → Json := fun resource _ => resource

namespace Compile

/-- What all steps of a draft are compiled against. -/
structure Setting where
  /-- The operations and files. -/
  sources : Sources
  /-- What the scenarios run in. -/
  scope : ScopeKind
  /-- The directory of the draft. -/
  directory : Option Path := none

/-- A compiled step, the declarations of its owner behind it, and the file that describes the
operation it calls. -/
structure Outcome where
  /-- The step. -/
  step : Step
  /-- The declarations of its owner. -/
  owner : Declarations
  /-- The file that describes the operation. -/
  source : Option String := none
deriving Inhabited

namespace Setting

/-- Whether every scope binds the name by itself, as it does for its container. -/
def provides (setting : Setting) (name : String) : Bool :=
  name == ReservedName.container && setting.scope.needsContainer

/-- Whether the environment of a step has the name. -/
def binds (setting : Setting) (scopes : Scopes) (name : String) : Bool :=
  scopes.isDeclared name || setting.provides name

/-- Demands a name of the owner, unless every scope binds it. -/
def demand (setting : Setting) (scopes : Scopes) (name : String) : Scopes :=
  if setting.provides name then scopes else scopes.require name

/-- The path of a file that a draft refers to. -/
def resolve (setting : Setting) (path : String) : String :=
  (Path.resolve setting.directory (Path.parse path)).toText

/-- The document of a file. -/
def document (setting : Setting) (path : String) : Except CompileError Json :=
  (setting.sources.files.document path).mapError (.load path)

/-- The text of a file. -/
def text (setting : Setting) (path : String) : Except CompileError String :=
  (setting.sources.files.read path).mapError (.load path)

/-- The catalog of a tag. -/
def catalog (setting : Setting) (tag : Option String) : Except CompileError Catalog :=
  (setting.sources.index.catalog tag).mapError .index

/-- An operation and the file that describes it. -/
def operation (setting : Setting) (id : String) (tag : Option String) :
    Except CompileError (Operation × Option String) := do
  let catalog ← setting.catalog tag
  let op ← (catalog.find id).mapError .index
  return (op, catalog.source? id)

end Setting

/-! ### Updates -/

/-- Edits the members of an object. -/
def updateDict (dict : Dict Json) (patch : List Json) : Except CompileError (Dict Json) :=
  match Patch.apply (Json.ofDict dict) patch with
  | .error e => .error (.update (.patch e))
  | .ok (.obj members) => .ok (Dict.ofList members)
  | .ok _ => .error (.update .noObject)

/-- Reads the expected responses. -/
def assertions (responses : Dict Json) : Except CompileError (Dict ResponseAssertion) :=
  responses.mapM fun status response =>
    (ResponseAssertion.ofJson? response).elim (.error (.invalidStep (.response status))) .ok

/-! ### Steps that call an operation -/

/-- The parameters with the version of the API. -/
def withApiVersion (op : Operation) (parameters : Dict Json) : Dict Json :=
  parameters.insert Operation.apiVersionName (.str op.apiVersion)

/-- The value that is taken from the environment when the step runs. -/
def fromEnvironment (name : String) : Json := .str (Placeholder.token name)

/-- Finds the value of one parameter: the step gives it, or the environment has it, or the
request cannot do without it and the environment is made to have it; otherwise it is left out. -/
def bindParameter (setting : Setting) (draft : Draft.Step) (op : Operation)
    (bound : Dict Json × Scopes) (parameter : Parameter) : Except CompileError (Dict Json × Scopes) :=
  let (values, scopes) := bound
  let name := parameter.name
  let given := draft.parameters.get? name
  if name = Operation.apiVersionName then .ok bound
  else if !parameter.location.isSupported then
    if given.isSome || parameter.required then .error (.unsupportedLocation op.id name parameter.location)
    else .ok bound
  else
    match given with
    | some value => .ok (values.insert name value, scopes)
    | none =>
      if setting.binds scopes name then .ok (values.insert name (fromEnvironment name), scopes)
      else if parameter.location = .path || parameter.required then
        .ok (values.insert name (fromEnvironment name), setting.demand scopes name)
      else .ok bound

/-- Compiles a step that names its operation. -/
def operationStep (setting : Setting) (draft : Draft.Step) (id : String) (scopes : Scopes)
    (header : StepHeader) : Except CompileError Outcome := do
  let (op, source) ← setting.operation id draft.externalReference
  let (values, scopes) ← op.parameters.foldlM (bindParameter setting draft op) (∅, scopes)
  let parameters ← updateDict (withApiVersion op values) draft.requestUpdate
  let responses ← updateDict draft.responses draft.responseUpdate >>= assertions
  let step := .rest
    { header, externalReference := draft.externalReference, operation := op, parameters, responses }
  return { step, owner := scopes.owner, source }

/-- Takes one parameter of a recorded example from the environment if that has it. -/
def rebindParameter (setting : Setting) (scopes : Scopes) (op : Operation) (values : Dict Json)
    (parameter : Parameter) : Except CompileError (Dict Json) :=
  let name := parameter.name
  if name = Operation.apiVersionName then .ok values
  else if !parameter.location.isSupported then
    if values.contains name || parameter.required then
      .error (.unsupportedLocation op.id name parameter.location)
    else .ok values
  else if setting.binds scopes name then .ok (values.insert name (fromEnvironment name))
  else .ok values

/-- The only operation that a fixture belongs to. -/
def fixtureOperation (setting : Setting) (resolved declared : String) (tag : Option String) :
    Except CompileError String := do
  let catalog ← setting.catalog tag
  let ids := catalog.operationsForFixture resolved
  match if ids.isEmpty then catalog.operationsForFixture declared else ids with
  | [] => throw (.fixtureNotMatched declared)
  | [id] => return id
  | candidates => throw (.fixtureAmbiguous declared candidates)

/-- The members of a member of a fixture, if that is an object. -/
def fixtureMembers (fixture : Json) (name : String) : Dict Json :=
  (fixture.field? name >>= Json.dict?).getD ∅

/-- The expected response after the resource it shows was changed. -/
def reshape (setting : Setting) (op : Operation) (change : Json) (status : String) (response : Json) : Json :=
  match response, response.field? "body" with
  | .obj members, some body =>
    if HttpStatus.isError status then response
    else
      let body := setting.sources.shape (body.mergePatch change) (op.responseSchema? status)
      .obj (Assoc.insert "body" body members)
  | _, _ => response

/-- The expected responses of a recorded example after its parameters were changed. A write that
may be repeated answers the resource, so what changes in the body it sends changes in the body it
receives. -/
def reshapeAll (setting : Setting) (op : Operation) (before after responses : Dict Json) : Dict Json :=
  if op.method.isIdempotentWrite then
    match op.bodyParameter? with
    | none => responses
    | some body =>
      match before.get? body.name with
      | none => responses
      | some sent => responses.mapValues
          (reshape setting op (sent.mergeDiff ((after.get? body.name).getD .null)))
  else responses

/-- Compiles a step that repeats a recorded example. -/
def fixtureStep (setting : Setting) (draft : Draft.Step) (declared : String) (scopes : Scopes)
    (header : StepHeader) : Except CompileError Outcome := do
  let path := setting.resolve declared
  let fixture ← setting.document path
  let id ← match draft.operationId <|> (fixture.field? "operationId" >>= Json.str?) with
    | some id => pure id
    | none => fixtureOperation setting path declared draft.externalReference
  let (op, source) ← setting.operation id draft.externalReference
  let values ← op.parameters.foldlM (rebindParameter setting scopes op)
    (fixtureMembers fixture "parameters")
  let before := withApiVersion op values
  let recorded := fixtureMembers fixture "responses"
  let parameters ← updateDict before draft.requestUpdate
  let expected :=
    if draft.requestUpdate.isEmpty then recorded else reshapeAll setting op before parameters recorded
  let responses ← updateDict expected draft.responseUpdate >>= assertions
  let step := .rest
    { header, externalReference := draft.externalReference, exampleFile := some path, operation := op,
      parameters, responses }
  return { step, owner := scopes.owner, source }

/-! ### Steps that deploy -/

/-- Demands a parameter of a template that has no default and that nobody declares. Only texts
can be demanded. -/
def demandTemplateParameter (setting : Setting) (scopes : Scopes) (name : String)
    (parameter : TemplateParameter) : Except CompileError Scopes :=
  if parameter.default?.isSome || scopes.isDeclared name then .ok scopes
  else if parameter.isString then .ok (setting.demand scopes name)
  else .error (.unsupportedTemplateParameter name parameter.typeName)

/-- Compiles a step that deploys a template. -/
def templateStep (setting : Setting) (declared : String) (scopes : Scopes) (header : StepHeader) :
    Except CompileError Outcome := do
  let path := setting.resolve declared
  let document ← setting.document path
  let template ← (Template.ofJson? document).elim (.error (.load path .malformed)) .ok
  let scopes ← template.parameters.entries.foldlM (fun scopes (name, parameter) =>
    demandTemplateParameter setting scopes name parameter) scopes
  let owner := template.outputs.entries.foldl (fun owner (name, output) =>
    owner.declareOutput name output.kind) scopes.owner
  return { step := .deployment { header, template, sourceFile := path }, owner }

/-- An entry of a script's environment; it is secret if its value refers to a secret name. -/
def scriptEntry (scopes : Scopes) (entry : Draft.ScriptVariable) : ScriptEntry :=
  { name := entry.name, value := entry.value, secret := (Placeholder.names entry.value).any scopes.isSecret }

/-- Compiles a step that runs a script. -/
def scriptStep (setting : Setting) (draft : Draft.Step) (declared : String) (scopes : Scopes)
    (header : StepHeader) : Except CompileError Outcome := do
  let path := setting.resolve declared
  let content ← setting.text path
  let kind := ScriptKind.ofPath path
  let script : Script :=
    { name := header.name, kind, content, arguments := draft.arguments,
      environment := draft.environmentVariables.map (scriptEntry scopes) }
  let step := .deployment { header, template := script.template, sourceFile := path, scriptKind := some kind }
  return { step, owner := scopes.owner }

/-! ### All steps -/

/-- What makes a name for a step that has none. -/
def nameOfReference : Draft.Reference → String
  | .operation id => id
  | .fixture path => (Path.parse path).stem?.getD "example"
  | .template _ => "ArmTemplate"
  | .script _ => "ArmDeploymentScript"

/-- Compiles what is particular to a kind of step. -/
def particular (setting : Setting) (draft : Draft.Step) (reference : Draft.Reference) (scopes : Scopes)
    (header : StepHeader) : Except CompileError Outcome :=
  match reference with
  | .operation id => operationStep setting draft id scopes header
  | .fixture path => fixtureStep setting draft path scopes header
  | .template path => templateStep setting path scopes header
  | .script path => scriptStep setting draft path scopes header

/-- The kind of variable that an output makes. -/
def outputVariable (output : Draft.OutputVariable) : OutputVariable :=
  { kind := output.kind.getD .string, fromResponse := output.fromResponse }

/-- Compiles a step under its name: its variables, what is particular to its kind, and the
outputs it declares. What its variables demand is demanded of its owner. -/
def step (setting : Setting) (phase : Phase) (outer : Option Declarations) (owner : Declarations)
    (draft : Draft.Step) (reference : Draft.Reference) (name : String) : Except CompileError Outcome := do
  let vars ← declareAll (owner :: outer.toList) draft.vars
  let header : StepHeader := { name, description := draft.description, phase }
  let outcome ← particular setting draft reference { step := vars, owner, outer } header
  let outputs := draft.outputVariables.mapValues fun _ output => outputVariable output
  let owner := outputs.entries.foldl (fun owner (name, output) =>
    owner.declareOutput name output.kind) outcome.owner
  return { outcome with
    step := outcome.step.modifyHeader fun header => { header with outputs, vars }
    owner := vars.required.foldl Declarations.require owner }

end Compile

end Rehearsal
