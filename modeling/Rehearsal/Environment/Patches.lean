import Rehearsal.Environment.Basic
import Rehearsal.Environment.Error

/-!
# Patched variables

A container that is declared with patches and without a value has the value that the environment
around it holds for its name, patched.

* `Layer.applyPatches`: sets the patched variables of a scope;
* `Layer.within`: the layer of a scope inside an environment.
-/

namespace Rehearsal

/-- The patches of a variable that has no value yet. -/
def Variable.pendingPatches? : Variable → Option (List Json)
  | .container _ { value := none, patches } => patches
  | _ => none

namespace Environment

/-- The value that an environment holds for a name, patched; it has to be an array or object. -/
def patchedValue (env : Environment) (name : String) (patches : List Json) : Except VariableError Json :=
  match env.value? name with
  | none => .error (.patch name .nothingInherited)
  | some value =>
    if value.isContainer then
      match Patch.apply value patches with
      | .ok patched => .ok patched
      | .error e => .error (.patch name (.failed e))
    else .error (.patch name .nothingInherited)

end Environment

namespace Layer

/-- Sets one variable to its patched value if patches of it are pending. -/
def applyPatchesOf (base : Environment) (layer : Layer) (name : String) (v : Variable) :
    Except VariableError Layer :=
  match v.pendingPatches? with
  | none => .ok layer
  | some patches => (base.patchedValue name patches).map fun value => layer.set name (v.withValue value)

/-- Sets the variables of a scope whose patches are pending, in the order of their names. -/
def applyPatches (layer : Layer) (scope : Declarations) (base : Environment) : Except VariableError Layer :=
  scope.vars.entries.foldlM (fun layer (name, v) => layer.applyPatchesOf base name v) layer

/-- The layer of what a scope declares, inside an environment. -/
def within (env : Environment) (scope : Declarations) : Except VariableError Layer :=
  (Layer.declare {} scope).applyPatches scope env

end Layer

end Rehearsal
