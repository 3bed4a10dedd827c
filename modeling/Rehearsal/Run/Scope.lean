import Rehearsal.Client
import Rehearsal.Environment.Patches

/-!
# Scopes at run time

A scope is what scenarios of a definition run in: two layers of variables, the steps to prepare
and to clean up, and how far it is. The outer layer holds what the definition declares, the inner
one what the caller supplies and what steps set.

* `RuntimeScope.build`: the scope of a definition for a caller's environment.
-/

namespace Rehearsal

/-- What scenarios of a definition run in. -/
structure RuntimeScope where
  /-- The name. -/
  name : String
  /-- The kind. -/
  kind : ScopeKind
  /-- What the definition declares. -/
  declared : Layer := {}
  /-- What the caller supplies and what steps set. -/
  layer : Layer := {}
  /-- The steps that prepare the scope. -/
  prepareSteps : List Step := []
  /-- The steps that clean it up. -/
  cleanupSteps : List Step := []
  /-- How far it is. -/
  status : ProvisionStatus := .unprovisioned
deriving Inhabited

namespace RuntimeScope

/-- The variables of a scope. -/
def environment (scope : RuntimeScope) : Environment := ⟨scope.layer, [scope.declared]⟩

/-- What a generated name of a container begins with. -/
def containerStem : String := "apiTest-"

/-- Names the container, unless somebody has done so. -/
def nameContainer (env : Environment) : Environment :=
  if env.contains ReservedName.container then env
  else env.modifyInner fun layer => layer.set ReservedName.container (.stemmed containerStem)

/-- The scope of a definition for a caller's environment, and the generator behind the names it
draws: first those that the definition declares, then those around them. -/
def build (definition : Definition) (name : String) (caller : Environment) (g : Suffixes) :
    Except VariableError (RuntimeScope × Suffixes) := do
  let declared := Layer.declare {} definition.vars
  let env : Environment := ⟨Environment.imported {} caller, [declared]⟩
  let layer ← env.inner.applyPatches definition.vars env
  let env := nameContainer ⟨layer, [declared]⟩
  let (declared, _, g) := declared.materialize g
  let (layer, _, g) := env.inner.materialize g
  return ({ name, kind := definition.scope, declared, layer, prepareSteps := definition.prepareSteps,
            cleanupSteps := definition.cleanupSteps }, g)

end RuntimeScope

end Rehearsal
