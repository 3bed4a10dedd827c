import Rehearsal.Variable

/-!
# Deployment templates

A template declares parameters and outputs and lists resources. Whatever else its document says
is kept, at the top as well as in parameters and outputs.

* `Template.ofJson?`, `Template.toJson`: the document of a template.
-/

namespace Rehearsal

/-- A parameter of a template. -/
structure TemplateParameter where
  /-- The name of its type. -/
  typeName : String
  /-- The value it has if nobody gives one. -/
  default? : Option Json := none
  /-- What else is said about it. -/
  rest : Dict Json := ∅
deriving Inhabited

namespace TemplateParameter

/-- The kind of variable that the type stands for. -/
def kind? (p : TemplateParameter) : Option VariableKind := VariableKind.parse p.typeName

/-- Whether it takes texts. -/
def isString (p : TemplateParameter) : Bool := p.kind?.any VariableKind.isString

/-- The written form. -/
def toJson (p : TemplateParameter) : Json :=
  Json.ofMembers (p.rest.entries ++ [("type", .str p.typeName)] ++
    (p.default?.map fun value => ("defaultValue", value)).toList)

/-- Reads the written form. -/
def ofJson? (json : Json) : Option TemplateParameter := do
  let fields ← json.fields?
  return { typeName := ← fields.required "type" Json.str?,
           default? := ← fields.optional "defaultValue" some,
           rest := Dict.ofList (fields.without ["type", "defaultValue"]) }

end TemplateParameter

/-- An output of a template. -/
structure TemplateOutput where
  /-- The name of its type. -/
  typeName : String := "string"
  /-- What else is said about it. -/
  rest : Dict Json := ∅
deriving Inhabited

namespace TemplateOutput

/-- The kind of variable that the output makes; an unknown type makes a text. -/
def kind (o : TemplateOutput) : VariableKind := (VariableKind.parse o.typeName).getD .string

/-- The written form. -/
def toJson (o : TemplateOutput) : Json :=
  Json.ofMembers (o.rest.entries ++ [("type", .str o.typeName)])

/-- Reads the written form. -/
def ofJson? (json : Json) : Option TemplateOutput := do
  let fields ← json.fields?
  return { typeName := ← fields.withDefault "type" "string" Json.str?,
           rest := Dict.ofList (fields.without ["type"]) }

end TemplateOutput

/-- A deployment template. -/
structure Template where
  /-- The parameters by name. -/
  parameters : Dict TemplateParameter := ∅
  /-- The outputs by name. -/
  outputs : Dict TemplateOutput := ∅
  /-- The resources. -/
  resources : List Json := []
  /-- What else the document says. -/
  rest : Dict Json := ∅
deriving Inhabited

namespace Template

/-- The document of a template. -/
def toJson (t : Template) : Json :=
  Json.ofMembers (t.rest.entries ++
    [("parameters", Json.ofDictWith TemplateParameter.toJson t.parameters),
      ("outputs", Json.ofDictWith TemplateOutput.toJson t.outputs), ("resources", .arr t.resources)])

/-- Reads the document of a template. -/
def ofJson? (json : Json) : Option Template := do
  let fields ← json.fields?
  return { parameters := ← fields.withDefault "parameters" ∅ (Json.dictOf? TemplateParameter.ofJson?),
           outputs := ← fields.withDefault "outputs" ∅ (Json.dictOf? TemplateOutput.ofJson?),
           resources := ← fields.withDefault "resources" [] Json.items?,
           rest := Dict.ofList (fields.without ["parameters", "outputs", "resources"]) }

end Template

end Rehearsal
