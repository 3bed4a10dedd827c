import Rehearsal.Definition.Step

/-!
# Definitions

A definition is what a draft compiles to: its steps know the operations and templates they use,
and its scopes know which variables somebody outside has to supply.

* `ScopeKind`: what the scenarios of a definition run in;
* `Scenario`, `Definition`: the compiled draft and its written form.
-/

namespace Rehearsal

/-! ### Names that a scope itself uses -/

namespace ReservedName

/-- The subscription. -/
def subscription : String := "subscriptionId"

/-- The container. -/
def container : String := "resourceGroupName"

/-- Where the container is created. -/
def location : String := "location"

end ReservedName

/-- What scenarios run in. -/
inductive ScopeKind where
  /-- A container of resources, which is created for the purpose. -/
  | resourceGroup
  /-- A subscription. -/
  | subscription
  /-- A tenant. -/
  | tenant
  /-- Nothing in particular. -/
  | unscoped
deriving DecidableEq, Inhabited

namespace ScopeKind

/-- The name of a kind. -/
def name : ScopeKind → String
  | .resourceGroup => "ResourceGroup"
  | .subscription => "Subscription"
  | .tenant => "Tenant"
  | .unscoped => "None"

/-- All kinds. -/
def all : List ScopeKind := [.resourceGroup, .subscription, .tenant, .unscoped]

/-- The kind of a name in any case; without a name a resource group is meant. -/
def parse : Option String → Option ScopeKind
  | none => some .resourceGroup
  | some text =>
    let lower (s : String) : List Char := s.toList.map Char.toLower
    all.find? fun kind => lower kind.name == lower text

/-- The kind of exactly this name. -/
def ofJson? (json : Json) : Option ScopeKind := do
  let text ← json.constant?
  all.find? (·.name == text)

/-- Whether a container has to be created. -/
def needsContainer : ScopeKind → Bool
  | .resourceGroup => true
  | _ => false

theorem eq_of_needsContainer {kind : ScopeKind} (h : kind.needsContainer = true) :
    kind = .resourceGroup := by
  cases kind with
  | resourceGroup => rfl
  | subscription | tenant | unscoped => cases h

/-- The names that every definition of the kind requires. -/
def impliedRequirements : ScopeKind → List String
  | .resourceGroup => [ReservedName.subscription, ReservedName.location]
  | .subscription => [ReservedName.subscription]
  | .tenant | .unscoped => []

end ScopeKind

/-- A scenario. -/
structure Scenario where
  /-- Its place among the scenarios of the definition. -/
  position : Nat
  /-- The name. -/
  name : String
  /-- The description. -/
  description : Option String := none
  /-- Whether the scenario uses the scope that others of the definition use. -/
  shareScope : Bool := true
  /-- The steps. -/
  steps : List Step := []
  /-- What the scenario declares and requires. -/
  vars : Declarations := {}
deriving Inhabited

namespace Scenario

/-- The step of a name. -/
def step? (s : Scenario) (name : String) : Option Step := s.steps.find? (·.name == name)

/-- The written form. -/
def toJson (s : Scenario) : Json :=
  Json.ofFields
    [("name", some (.str s.name)), ("description", s.description.map .str),
      ("shareScope", some (.bool s.shareScope)), ("steps", some (Json.ofListWith Step.toJson s.steps)),
      ("variables", some s.vars.toJson)]

end Scenario

/-- A compiled draft. -/
structure Definition where
  /-- What the scenarios run in. -/
  scope : ScopeKind
  /-- The steps that prepare the scope. -/
  prepareSteps : List Step := []
  /-- The steps that clean the scope up. -/
  cleanupSteps : List Step := []
  /-- The scenarios. -/
  scenarios : List Scenario := []
  /-- What the definition declares and requires. -/
  vars : Declarations := {}
  /-- The path of the draft. -/
  filePath : String
  /-- The files that describe the operations in use. -/
  referencedSpecs : List String := []
deriving Inhabited

namespace Definition

/-- The first scenario of a name. -/
def scenario? (d : Definition) (name : String) : Option Scenario := d.scenarios.find? (·.name == name)

/-- The written form. -/
def toJson (d : Definition) : Json :=
  Json.ofMembers
    [("scope", .str d.scope.name), ("prepareSteps", Json.ofListWith Step.toJson d.prepareSteps),
      ("cleanupSteps", Json.ofListWith Step.toJson d.cleanupSteps),
      ("scenarios", Json.ofListWith Scenario.toJson d.scenarios), ("variables", d.vars.toJson),
      ("filePath", .str d.filePath), ("referencedSpecs", Json.ofStrings d.referencedSpecs)]

end Definition

end Rehearsal
