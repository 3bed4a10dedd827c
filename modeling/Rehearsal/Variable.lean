import Rehearsal.Json.Fields
import Rehearsal.Json.Printer

/-!
# Variables

A variable has a kind and, as a rule, a value. A text without a value may have a stem, from
which a value is generated; an array or object without a value may have patches, which are
applied to an inherited value.

* `VariableKind`, `VariableKind.parse`: the kinds and their spellings;
* `Variable.ofValue`: the variable that a captured value makes;
* `Variable.withValue`: the variable with another value;
* `Declaration`: a variable as an author writes it;
* `Declarations`: the variables a scope declares, with the names it requires and keeps secret.
-/

namespace Rehearsal

/-- The kinds of variables. -/
inductive VariableKind where
  /-- A truth value. -/
  | bool
  /-- A signed 64-bit integer. -/
  | int
  /-- A text. -/
  | string
  /-- A text that is kept secret. -/
  | secureString
  /-- An array. -/
  | array
  /-- An object. -/
  | object
  /-- An object that is kept secret. -/
  | secureObject
deriving DecidableEq, Inhabited, Repr

namespace VariableKind

/-- The name of a kind. -/
def name : VariableKind → String
  | .bool => "bool"
  | .int => "int"
  | .string => "string"
  | .secureString => "secureString"
  | .array => "array"
  | .object => "object"
  | .secureObject => "secureObject"

/-- All kinds. -/
def all : List VariableKind :=
  [.bool, .int, .string, .secureString, .array, .object, .secureObject]

/-- The kind of exactly this name. -/
def ofName? (name : String) : Option VariableKind := all.find? (·.name == name)

/-- Reads the name of a kind. -/
def ofJson? (json : Json) : Option VariableKind := json.constant? >>= ofName?

/-- Reads the tag of a kind, which is its name. -/
def ofTag? (json : Json) : Option VariableKind := json.str? >>= ofName?

/-- Reads the tag of a kind where it may also be the place of the kind among all kinds. -/
def ofTagOrPlace? (json : Json) : Option VariableKind :=
  match json.nat? with
  | some place => all[place]?
  | none => ofTag? json

/-- The kind of a name in any case, where `boolean` and `integer` count too. -/
def parse (name : String) : Option VariableKind :=
  match String.ofList (name.toList.map Char.toLower) with
  | "bool" | "boolean" => some .bool
  | "int" | "integer" => some .int
  | "string" => some .string
  | "securestring" => some .secureString
  | "array" => some .array
  | "object" => some .object
  | "secureobject" => some .secureObject
  | _ => none

/-- Whether values of the kind are secret. -/
def isSecure : VariableKind → Bool
  | .secureString | .secureObject => true
  | _ => false

/-- Whether values of the kind are texts. -/
def isString : VariableKind → Bool
  | .string | .secureString => true
  | _ => false

end VariableKind

/-- What a text variable holds. -/
structure TextParts where
  /-- The text. -/
  value : Option String := none
  /-- What a generated text begins with. -/
  stem : Option String := none
deriving DecidableEq, Inhabited

/-- The kinds of containers. -/
inductive ContainerKind where
  /-- An array. -/
  | array
  /-- An object. -/
  | object
  /-- An object that is kept secret. -/
  | secureObject
deriving DecidableEq, Inhabited

/-- What a container variable holds. Its value may be of any shape. -/
structure ContainerParts where
  /-- The value. -/
  value : Option Json := none
  /-- Edits of an inherited value. -/
  patches : Option (List Json) := none
deriving Inhabited

/-- A variable. -/
inductive Variable where
  /-- A truth value. -/
  | bool (value : Option Bool)
  /-- A signed 64-bit integer. -/
  | int (value : Option Int)
  /-- A text, secret or not. -/
  | text (secure : Bool) (parts : TextParts)
  /-- An array or object. -/
  | container (kind : ContainerKind) (parts : ContainerParts)
deriving Inhabited

namespace Variable

/-- The kind of a variable. -/
def kind : Variable → VariableKind
  | .bool _ => .bool
  | .int _ => .int
  | .text false _ => .string
  | .text true _ => .secureString
  | .container .array _ => .array
  | .container .object _ => .object
  | .container .secureObject _ => .secureObject

/-- Whether the value is secret by its kind. -/
def isSecure (v : Variable) : Bool := v.kind.isSecure

/-- The value, if there is one. -/
def value? : Variable → Option Json
  | .bool value => value.map .bool
  | .int value => value.map .int
  | .text _ parts => parts.value.map .str
  | .container _ parts => parts.value

/-- Whether there is a value. -/
def hasValue (v : Variable) : Bool := v.value?.isSome

/-- What a generated value begins with. -/
def stem? : Variable → Option String
  | .text _ parts => parts.stem
  | _ => none

/-- The edits of an inherited value. -/
def patches? : Variable → Option (List Json)
  | .container _ parts => parts.patches
  | _ => none

/-- Whether the variable is a container. -/
def isContainer : Variable → Bool
  | .container .. => true
  | _ => false

/-- The text variable with a value. -/
def string (value : String) : Variable := .text false { value := some value }

/-- The secret text variable with a value. -/
def secureString (value : String) : Variable := .text true { value := some value }

/-- The text variable whose value is generated. -/
def stemmed (stem : String) : Variable := .text false { stem := some stem }

/-- The variable of a kind that holds nothing. -/
def placeholder : VariableKind → Variable
  | .bool => .bool none
  | .int => .int none
  | .string => .text false {}
  | .secureString => .text true {}
  | .array => .container .array {}
  | .object => .container .object {}
  | .secureObject => .container .secureObject {}

/-- The variable whose kind the shape of a value implies; what no other kind takes is an object. -/
def ofShape : Json → Variable
  | .str s => string s
  | .bool b => .bool (some b)
  | .int n => if Json.inSigned64 n then .int (some n) else .container .object { value := some (.int n) }
  | .arr items => .container .array { value := some (.arr items) }
  | json => .container .object { value := some json }

/-- The variable that a value makes where a kind is expected. The value keeps its own kind,
except that a secret kind stays secret. -/
def ofValue (expected : VariableKind) (json : Json) : Variable :=
  match expected with
  | .secureString => secureString json.plainText
  | .secureObject => .container .secureObject { value := some json }
  | _ => ofShape json

/-- The variable with another value, as far as its kind can hold it. -/
def withValue (v : Variable) (json : Json) : Variable :=
  match v with
  | .bool _ => .bool json.bool?
  | .int _ => .int json.int64?
  | .text secure parts => .text secure { parts with value := some json.plainText }
  | .container kind _ => .container kind { value := some json }

theorem isSecure_withValue (v : Variable) (json : Json) :
    (v.withValue json).isSecure = v.isSecure := by
  cases v with
  | bool | int => rfl
  | text secure parts => cases secure <;> rfl
  | container kind parts => cases kind <;> rfl

/-- The written form: the kind and whatever the variable holds. -/
def toJson (v : Variable) : Json :=
  Json.ofFields
    [("type", some (.str v.kind.name)), ("value", v.value?), ("prefix", v.stem?.map .str),
      ("patches", v.patches?.map .arr)]

/-- The names of what a variable of a kind holds, in the order in which an array has it. -/
def fieldNames : VariableKind → List String
  | .bool | .int => ["value"]
  | .string | .secureString => ["value", "prefix"]
  | .array | .object | .secureObject => ["value", "patches"]

/-- Reads what a variable of a kind holds. -/
def ofFields? (kind : VariableKind) (fields : Fields) : Option Variable :=
  let text (secure : Bool) : Option Variable := do
    return .text secure
      { value := ← fields.optional "value" Json.str?, stem := ← fields.optional "prefix" Json.str? }
  let container (kind : ContainerKind) : Option Variable := do
    return .container kind
      { value := ← fields.optional "value" some, patches := ← fields.optional "patches" Json.items? }
  match kind with
  | .bool => return .bool (← fields.optional "value" Json.bool?)
  | .int => return .int (← fields.optional "value" Json.int64?)
  | .string => text false
  | .secureString => text true
  | .array => container .array
  | .object => container .object
  | .secureObject => container .secureObject

/-- Reads the written form, where the tag is read as the kind by `readKind`. -/
def ofTagged? (readKind : Json → Option VariableKind) (json : Json) : Option Variable := do
  let (kind, fields) ← json.tagged? "type" readKind fieldNames
  ofFields? kind fields

/-- Reads the written form. -/
def ofJson? : Json → Option Variable := ofTagged? VariableKind.ofTag?

end Variable

/-- A variable as an author declares it: a text is short for the text variable with that value. -/
inductive Declaration where
  /-- A text alone. -/
  | brief (value : String)
  /-- A variable with its kind. -/
  | full (v : Variable)
deriving Inhabited

namespace Declaration

/-- The declared variable. -/
def toVariable : Declaration → Variable
  | .brief value => .string value
  | .full v => v

/-- The written form. -/
def toJson : Declaration → Json
  | .brief value => .str value
  | .full v => v.toJson

/-- Reads the written form. While it is open which of the forms a document has, kinds may also be
given by their places. -/
def ofJson? : Json → Option Declaration
  | .str value => some (.brief value)
  | json => (Variable.ofTagged? VariableKind.ofTagOrPlace? json).map .full

end Declaration

/-- What a scope declares. -/
structure Declarations where
  /-- The declared variables. -/
  vars : Dict Variable := ∅
  /-- The names that somebody outside has to supply, in the order of the demands. -/
  required : List String := []
  /-- The names that are kept secret, in the order of the demands. -/
  secrets : List String := []
deriving Inhabited

namespace Declarations

/-- Appends a name unless it is there already. -/
def appendNew (names : List String) (name : String) : List String :=
  if names.contains name then names else names ++ [name]

/-- The declaration of a name. -/
def get? (scope : Declarations) (name : String) : Option Variable := scope.vars.get? name

/-- Whether a name is declared. -/
def contains (scope : Declarations) (name : String) : Bool := scope.vars.contains name

/-- Demands a name from outside. -/
def require (scope : Declarations) (name : String) : Declarations :=
  { scope with required := appendNew scope.required name }

/-- Keeps a name secret. -/
def markSecret (scope : Declarations) (name : String) : Declarations :=
  { scope with secrets := appendNew scope.secrets name }

/-- Declares a variable. -/
def declare (scope : Declarations) (name : String) (v : Variable) : Declarations :=
  { scope with vars := scope.vars.insert name v }

/-- Whether a name is demanded from outside. -/
def isRequired (scope : Declarations) (name : String) : Bool := scope.required.contains name

/-- Whether a name is kept secret. -/
def isSecret (scope : Declarations) (name : String) : Bool := scope.secrets.contains name

/-- The written form. -/
def toJson (scope : Declarations) : Json :=
  Json.ofMembers
    [("variables", Json.ofDictWith Variable.toJson scope.vars),
      ("requiredVariables", Json.ofStrings scope.required),
      ("secretVariables", Json.ofStrings scope.secrets)]

/-- Reads the written form; every part may be absent. -/
def ofJson? (json : Json) : Option Declarations := do
  let fields ← json.record? [] ["variables", "requiredVariables", "secretVariables"]
  return { vars := ← fields.withDefault "variables" ∅ (Json.dictOf? Variable.ofJson?),
           required := ← fields.withDefault "requiredVariables" [] Json.strings?,
           secrets := ← fields.withDefault "secretVariables" [] Json.strings? }

end Declarations

end Rehearsal
