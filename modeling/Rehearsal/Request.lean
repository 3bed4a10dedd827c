import Rehearsal.Definition.Step
import Rehearsal.Environment.Resolve

/-!
# Requests

A request is what a step that calls an operation sends. It is built from the operation and the
values of its parameters, and its placeholders are resolved before it is sent. The path of the
request refers to the path parameters by placeholders, which hide all other variables there.

* `Request.ofStep`: the request of a step, with its placeholders;
* `Request.resolve`: the request without placeholders;
* `Request.ofJson?`, `Request.toJson`: the written form.
-/

namespace Rehearsal

/-- What is sent to call an operation. -/
structure Request where
  /-- The method. -/
  method : HttpMethod
  /-- The path. -/
  path : String
  /-- The values that the path refers to. -/
  pathParameters : Dict Json := ∅
  /-- The query. -/
  query : Dict Json := ∅
  /-- The headers. -/
  headers : Dict Json := ∅
  /-- The body. -/
  body : Option Json := none
deriving Inhabited

/-- Why a step makes no request. -/
inductive RequestError where
  /-- A parameter that the request cannot do without has no value. -/
  | missingParameter (operation parameter : String)
  /-- A parameter goes where no request can carry it. -/
  | unsupportedLocation (operation parameter : String) (location : ParameterLocation)
deriving DecidableEq

/-- The wording of an error. -/
def RequestError.message : RequestError → String
  | .missingParameter operation parameter =>
    "missing required parameter '" ++ parameter ++ "' for operation '" ++ operation ++ "'"
  | .unsupportedLocation operation parameter location =>
    "unsupported location '" ++ location.name ++ "' for parameter '" ++ parameter ++ "' of operation '" ++
      operation ++ "'"

/-! ### Paths of operations -/

namespace PathTemplate

/-- Whether the character may stand in the name of a path parameter. -/
def isNameChar (c : Char) : Bool := c != '{' && c != '}'

/-- The name in braces at the front, if one stands there. -/
def nameAt? : List Char → Option (List Char)
  | '{' :: rest =>
    let name := rest.takeWhile isNameChar
    if !name.isEmpty && (rest.dropWhile isNameChar).head? == some '}' then some name else none
  | _ => none

/-- Puts placeholders in place of the names in braces, in what follows the next `skip`
characters. -/
def placeholdersAfter : (skip : Nat) → List Char → List Char
  | _, [] => []
  | skip + 1, _ :: rest => placeholdersAfter skip rest
  | 0, c :: rest =>
    match nameAt? (c :: rest) with
    | some name => "$(".toList ++ name ++ ')' :: placeholdersAfter (name.length + 1) rest
    | none => c :: placeholdersAfter 0 rest

/-- The path with a placeholder in place of every name in braces. -/
def toPlaceholders (path : String) : String := String.ofList (placeholdersAfter 0 path.toList)

end PathTemplate

namespace Request

/-- Puts the value of a parameter where the parameter goes. -/
def addParameter (op : Operation) (values : Dict Json) (request : Request) (parameter : Parameter) :
    Except RequestError Request :=
  match values.get? parameter.name with
  | none =>
    if parameter.required || parameter.location == .path then
      .error (.missingParameter op.id parameter.name)
    else .ok request
  | some value =>
    match parameter.location with
    | .path => .ok { request with pathParameters := request.pathParameters.insert parameter.name value }
    | .query => .ok { request with query := request.query.insert parameter.name value }
    | .header => .ok { request with headers := request.headers.insert parameter.name value }
    | .body => .ok { request with body := some value }
    | .formData => .error (.unsupportedLocation op.id parameter.name parameter.location)

/-- The request of a step, with placeholders. -/
def ofStep (step : RestCallStep) : Except RequestError Request :=
  let op := step.operation
  op.parameters.foldlM (addParameter op step.parameters)
    { method := op.method, path := PathTemplate.toPlaceholders op.path }

/-- Resolves the values of a dictionary. -/
def resolveValues (env : Environment) (values : Dict Json) : Except VariableError (Dict Json) :=
  values.mapM fun _ value => env.resolve .strict value

/-- The environment in which the path is resolved: path parameters hide other variables. -/
def pathEnvironment (env : Environment) (values : Dict Json) : Environment :=
  env.child { vars := values.mapValues fun _ value => Variable.ofValue .string value }

/-- The request with all placeholders resolved. -/
def resolve (request : Request) (env : Environment) : Except VariableError Request := do
  let pathParameters ← resolveValues env request.pathParameters
  let path ← (pathEnvironment env pathParameters).resolveText request.path
  let query ← resolveValues env request.query
  let headers ← resolveValues env request.headers
  let body ← request.body.mapM fun body => env.resolve .strict body
  return { request with path := path.plainText, pathParameters, query, headers, body }

/-- The written form. -/
def toJson (r : Request) : Json :=
  Json.ofFields
    [("method", some (.str r.method.lowerName)), ("path", some (.str r.path)),
      ("pathParameters", some (Json.ofDict r.pathParameters)), ("query", some (Json.ofDict r.query)),
      ("headers", some (Json.ofDict r.headers)), ("body", r.body)]

/-- Reads the written form. -/
def ofJson? (json : Json) : Option Request := do
  let fields ← json.record? ["method", "path", "pathParameters", "query", "headers", "body"] []
  return { method := ← fields.required "method" HttpMethod.ofJson?,
           path := ← fields.required "path" Json.str?,
           pathParameters := ← fields.required "pathParameters" Json.dict?,
           query := ← fields.required "query" Json.dict?,
           headers := ← fields.required "headers" Json.dict?,
           body := ← fields.optional "body" some }

end Request

end Rehearsal
