import Rehearsal.Compile.Error

/-!
# Names while a step is compiled

A step sees its own declarations, those of the scope it belongs to (its *owner*: the scenario, or
the definition for steps that prepare or clean up), and around a scenario those of the definition.
Only the owner gains requirements and outputs while its steps are compiled.

* `Scopes.get?`, `Scopes.isDeclared`, `Scopes.isSecret`: what is known of a name;
* `Declarations.declareOutput`: the declaration of a variable that a step sets;
* `Compile.declareAll`: the declarations of a scope, with what they require from outside.
-/

namespace Rehearsal

/-- The declarations that a step sees. -/
structure Scopes where
  /-- Those of the step itself. -/
  step : Declarations := {}
  /-- Those of the scope it belongs to. -/
  owner : Declarations
  /-- Those of the scope around the owner. -/
  outer : Option Declarations := none
deriving Inhabited

namespace Scopes

/-- The declarations from the inside out. -/
def chain (scopes : Scopes) : List Declarations :=
  scopes.step :: scopes.owner :: scopes.outer.toList

/-- The innermost declaration of a name. -/
def get? (scopes : Scopes) (name : String) : Option Variable :=
  scopes.chain.findSome? (·.get? name)

/-- Whether a scope demands the name from outside. -/
def isRequired (scopes : Scopes) (name : String) : Bool := scopes.chain.any (·.isRequired name)

/-- Whether a name is declared, or demanded from outside. -/
def isDeclared (scopes : Scopes) (name : String) : Bool :=
  (scopes.get? name).isSome || scopes.isRequired name

/-- Whether a name is kept secret or its innermost declaration has a secret kind. -/
def isSecret (scopes : Scopes) (name : String) : Bool :=
  scopes.chain.any (·.isSecret name) || (scopes.get? name).any Variable.isSecure

/-- Lets the owner demand a name from outside. -/
def require (scopes : Scopes) (name : String) : Scopes :=
  { scopes with owner := scopes.owner.require name }

/-- Changes the owner's declarations. -/
def modifyOwner (scopes : Scopes) (f : Declarations → Declarations) : Scopes :=
  { scopes with owner := f scopes.owner }

end Scopes

/-- Declares a variable that a step sets, unless the name is declared; it is secret if its kind
is, whatever was declared before. -/
def Declarations.declareOutput (scope : Declarations) (name : String) (kind : VariableKind) : Declarations :=
  let scope := if scope.contains name then scope else scope.declare name (.placeholder kind)
  if kind.isSecure then scope.markSecret name else scope

namespace Compile

/-- The value of a container that declares patches instead of one: the patched value of the
nearest scope around it that declares the name. Without scopes around it, or without a value
there, the value is only known when the scenario runs. -/
def inheritedValue (around : List Declarations) (name : String) (patches : List Json) :
    Except CompileError (Option Json) :=
  if around.isEmpty then .ok none
  else
    match around.findSome? (·.get? name) with
    | none => .error (.missingInherited name)
    | some inherited =>
      match inherited.value? with
      | none => if inherited.isContainer then .ok none else .error (.missingInherited name)
      | some value =>
        if value.isContainer then
          match Patch.apply value patches with
          | .ok patched => .ok (some patched)
          | .error e => .error (.update (.patch e))
        else .error (.missingInherited name)

/-- Declares a variable without a value: a text without a stem is demanded from outside, and a
container has to have patches. -/
def declareValueless (around : List Declarations) (scope : Declarations) (name : String) (v : Variable) :
    Except CompileError Declarations :=
  match v with
  | .text _ parts => .ok ((if parts.stem.isNone then scope.require name else scope).declare name v)
  | .container _ { patches := some patches, .. } => do
    match ← inheritedValue around name patches with
    | some value => return scope.declare name (v.withValue value)
    | none => return scope.declare name v
  | _ => .error (.missingValue name v.kind)

/-- Declares one variable of a draft; a secret kind makes the name secret. -/
def declareOne (around : List Declarations) (scope : Declarations) (name : String) (v : Variable) :
    Except CompileError Declarations :=
  let scope := if v.isSecure then scope.markSecret name else scope
  if v.hasValue then .ok (scope.declare name v) else declareValueless around scope name v

/-- Declares the variables of a draft, in the order of their names. -/
def declareAll (around : List Declarations) (vars : Dict Declaration) : Except CompileError Declarations :=
  vars.entries.foldlM (fun scope (name, declaration) =>
    declareOne around scope name declaration.toVariable) {}

end Compile

end Rehearsal
