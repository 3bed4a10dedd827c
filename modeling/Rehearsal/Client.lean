import Rehearsal.Definition
import Rehearsal.Request

/-!
# Clients

A client is whatever answers the calls of a run. It may answer anything, also depending on
everything that was exchanged with it before, so a client is a function of that history and the
call. A refusal carries a reason.

* `Call`, `Call.Answer`: what a client is asked, and what it answers;
* `Exchange`: a call and its answer, with the circumstances;
* `Client`: the function.
-/

namespace Rehearsal

/-- The answer to a request. -/
structure Response where
  /-- The status. -/
  status : Nat
  /-- The body. -/
  body : Json := .null
deriving Inhabited

namespace Response

/-- The written form. -/
def toJson (r : Response) : Json := Json.ofMembers [("status", .int r.status), ("body", r.body)]

/-- A status takes at most 16 bits. -/
def statusOfJson? (json : Json) : Option Nat := do
  let status ← json.nat?
  if status < Nat.pow 2 16 then some status else none

/-- Reads the written form. -/
def ofJson? (json : Json) : Option Response := do
  let fields ← json.record? ["status"] ["body"]
  return { status := ← fields.required "status" statusOfJson?,
           body := ← fields.withDefault "body" .null some }

end Response

/-- What is deployed, and where. -/
structure Deployment where
  /-- The subscription. -/
  subscription : String
  /-- The container. -/
  container : String
  /-- The name of the deployment. -/
  name : String
  /-- The values of the template's parameters. -/
  parameters : Dict Json := ∅
deriving Inhabited

/-- The written form. -/
def Deployment.toJson (d : Deployment) : Json :=
  Json.ofMembers
    [("subscriptionId", .str d.subscription), ("resourceGroupName", .str d.container),
      ("deploymentName", .str d.name), ("parameters", Json.ofDict d.parameters)]

/-- What a client is asked to do. -/
inductive Call where
  /-- To get ready for a scenario. -/
  | prepare (scenario : Scenario) (env : Environment)
  /-- To create a container. -/
  | createContainer (subscription name location : String)
  /-- To delete a container. -/
  | deleteContainer (subscription name : String)
  /-- To send a request. -/
  | send (step : RestCallStep) (request : Request) (env : Environment)
  /-- To deploy a template. -/
  | deploy (step : DeploymentStep) (template : Json) (deployment : Deployment) (env : Environment)
deriving Inhabited

namespace Call

/-- What a client answers if it does as it is asked: the response to a request, the outputs of a
deployment, and nothing otherwise. -/
abbrev Answer : Call → Type
  | .send .. => Response
  | .deploy .. => Dict Json
  | .prepare .. | .createContainer .. | .deleteContainer .. => Unit

/-- What the kind of a call is called in an error. -/
def name : Call → String
  | .prepare .. => "prepare"
  | .createContainer .. => "create resource group"
  | .deleteContainer .. => "delete resource group"
  | .send .. => "REST call"
  | .deploy .. => "template deployment"

end Call

/-- How far a scope is. -/
inductive ProvisionStatus where
  /-- Nobody needed it yet. -/
  | unprovisioned
  /-- Its container is being created or its steps to prepare run. -/
  | provisioning
  /-- It is ready. -/
  | provisioned
  /-- It cannot be used, for a reason in which secrets are covered. -/
  | failed (message : String)
deriving DecidableEq, Inhabited

namespace ProvisionStatus

/-- The name of a status. -/
def name : ProvisionStatus → String
  | .unprovisioned => "unprovisioned"
  | .provisioning => "provisioning"
  | .provisioned => "provisioned"
  | .failed _ => "failed"

/-- Why the scope cannot be used. -/
def message? : ProvisionStatus → Option String
  | .failed message => some message
  | _ => none

end ProvisionStatus

/-- A call, its answer, and the circumstances. -/
structure Exchange where
  /-- The name of the scope for which the call was made. -/
  scope : String
  /-- How far the scope was. -/
  status : ProvisionStatus
  /-- The place of the scenario whose run made the call. -/
  position : Nat
  /-- The phase of that run. -/
  phase : Phase
  /-- The call. -/
  call : Call
  /-- The answer, or the reason of a refusal. -/
  answer : Except String call.Answer

/-- What answers the calls of a run. -/
structure Client where
  /-- The answer to a call, given what was exchanged before. -/
  answer (history : List Exchange) (call : Call) : Except String call.Answer

end Rehearsal
