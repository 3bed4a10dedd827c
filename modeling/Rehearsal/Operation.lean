import Rehearsal.Json.Fields
import Rehearsal.Text.Numeral

/-!
# API operations

An operation is one call an API offers: a method, a path template with `{name}` parts, and its
parameters and responses.

* `HttpStatus.ofText?`: the numbers that stand for outcomes;
* `Operation.parameter?`, `Operation.bodyParameter?`: its parameters;
* `Operation.responseSchema?`: the schema of a response, by status;
* `Operation.ofJson?`, `Operation.toJson`: the written form.
-/

namespace Rehearsal

/-- The methods of HTTP that an operation may use. -/
inductive HttpMethod where
  /-- Reads a resource. -/
  | get
  /-- Creates or replaces a resource. -/
  | put
  /-- Changes a resource. -/
  | patch
  /-- Submits to a resource. -/
  | post
  /-- Removes a resource. -/
  | delete
  /-- Reads the headers of a resource. -/
  | head
  /-- Asks what a resource offers. -/
  | options
deriving DecidableEq, Inhabited

namespace HttpMethod

/-- All methods. -/
def all : List HttpMethod := [.get, .put, .patch, .post, .delete, .head, .options]

/-- The name in a request. -/
def name : HttpMethod → String
  | .get => "GET"
  | .put => "PUT"
  | .patch => "PATCH"
  | .post => "POST"
  | .delete => "DELETE"
  | .head => "HEAD"
  | .options => "OPTIONS"

/-- The name in a document. -/
def lowerName : HttpMethod → String
  | .get => "get"
  | .put => "put"
  | .patch => "patch"
  | .post => "post"
  | .delete => "delete"
  | .head => "head"
  | .options => "options"

/-- Whether the method writes a resource and may be repeated. -/
def isIdempotentWrite : HttpMethod → Bool
  | .put | .patch => true
  | _ => false

/-- The method of a name in a document. -/
def ofJson? (json : Json) : Option HttpMethod := do
  let text ← json.constant?
  all.find? (·.lowerName == text)

end HttpMethod

namespace HttpStatus

/-- The status that a text names; it takes at most 16 bits. -/
def ofText? (text : String) : Option Nat := Text.numeralBelow? (Nat.pow 2 16) text

/-- Whether a status stands for an error, as every text does that names no status. -/
def isError (text : String) : Bool := (ofText? text).all (400 ≤ ·)

end HttpStatus

/-- Where in a request a parameter goes. -/
inductive ParameterLocation where
  /-- Into the path. -/
  | path
  /-- Into the query. -/
  | query
  /-- Into a header. -/
  | header
  /-- The body. -/
  | body
  /-- A field of a form, which no request can carry. -/
  | formData
deriving DecidableEq, Inhabited

namespace ParameterLocation

/-- All locations. -/
def all : List ParameterLocation := [.path, .query, .header, .body, .formData]

/-- The name of a location. -/
def name : ParameterLocation → String
  | .path => "path"
  | .query => "query"
  | .header => "header"
  | .body => "body"
  | .formData => "formData"

/-- Whether a request can carry a parameter there. -/
def isSupported : ParameterLocation → Bool
  | .formData => false
  | _ => true

/-- The location of a name. -/
def ofJson? (json : Json) : Option ParameterLocation := do
  let text ← json.constant?
  all.find? (·.name == text)

end ParameterLocation

/-- A parameter of an operation. -/
structure Parameter where
  /-- Its name. -/
  name : String
  /-- Where it goes. -/
  location : ParameterLocation
  /-- Whether a request has to have it. -/
  required : Bool := false
  /-- What it looks like. -/
  schema : Option Json := none
deriving Inhabited

namespace Parameter

/-- The written form. -/
def toJson (p : Parameter) : Json :=
  Json.ofFields
    [("name", some (.str p.name)), ("in", some (.str p.location.name)), ("required", some (.bool p.required)),
      ("schema", p.schema)]

/-- Reads the written form. -/
def ofJson? (json : Json) : Option Parameter := do
  let fields ← json.record? ["name", "in"] ["required", "schema"]
  return { name := ← fields.required "name" Json.str?,
           location := ← fields.required "in" ParameterLocation.ofJson?,
           required := ← fields.withDefault "required" false Json.bool?,
           schema := ← fields.optional "schema" some }

end Parameter

/-- A call an API offers. -/
structure Operation where
  /-- The id, unique in an index. -/
  id : String
  /-- The method. -/
  method : HttpMethod
  /-- The path, with `{name}` where a path parameter goes. -/
  path : String
  /-- The version of the API. -/
  apiVersion : String
  /-- The parameters in the order of their declaration. -/
  parameters : List Parameter := []
  /-- The schema of a response, by status or `default`. -/
  responses : Dict (Option Json) := ∅
  /-- The paths of example fixtures. -/
  examples : List String := []
deriving Inhabited

namespace Operation

/-- The name of the parameter that carries the version of the API. -/
def apiVersionName : String := "api-version"

/-- The parameter of a name. -/
def parameter? (op : Operation) (name : String) : Option Parameter :=
  op.parameters.find? (·.name == name)

/-- The first parameter that is the body. -/
def bodyParameter? (op : Operation) : Option Parameter :=
  op.parameters.find? (·.location == .body)

/-- The schema of the response to a status; a status that is not listed has the default one. -/
def responseSchema? (op : Operation) (status : String) : Option Json :=
  ((op.responses.get? status).or (op.responses.get? "default")).join

/-- The written form of a response. -/
def responseToJson (schema : Option Json) : Json := Json.ofFields [("schema", schema)]

/-- Reads a response. -/
def responseOfJson? (json : Json) : Option (Option Json) := do
  (← json.record? [] ["schema"]).optional "schema" some

/-- The written form. -/
def toJson (op : Operation) : Json :=
  Json.ofFields
    [("operationId", some (.str op.id)), ("method", some (.str op.method.lowerName)),
      ("path", some (.str op.path)), ("apiVersion", some (.str op.apiVersion)),
      ("parameters", some (Json.ofListWith Parameter.toJson op.parameters)),
      ("responses", some (Json.ofDictWith responseToJson op.responses)),
      ("examples", if op.examples.isEmpty then none else some (Json.ofStrings op.examples))]

/-- Reads the written form. -/
def ofJson? (json : Json) : Option Operation := do
  let fields ←
    json.record? ["operationId", "method", "path", "apiVersion"] ["parameters", "responses", "examples"]
  return { id := ← fields.required "operationId" Json.str?,
           method := ← fields.required "method" HttpMethod.ofJson?,
           path := ← fields.required "path" Json.str?,
           apiVersion := ← fields.required "apiVersion" Json.str?,
           parameters := ← fields.withDefault "parameters" [] (Json.listOf? Parameter.ofJson?),
           responses := ← fields.withDefault "responses" ∅ (Json.dictOf? responseOfJson?),
           examples := ← fields.withDefault "examples" [] Json.strings? }

end Operation

end Rehearsal
