import Rehearsal.Run
import Rehearsal.Proofs.Run.Step

/-!
# The course of a run

What a run of a scenario exchanges with its client and what it reports, phase by phase. Each part of
a run has a description that says what it may exchange and report and what it comes to; a run takes
one course that is made of these parts (`Run.course_perform`).

* `InTurn`: steps one after the other until one fails;
* `Readying`, `Provisioning`: the first provisioning of a scope, and provisioning in general;
* `Working`, `Cleaning`: the steps of a scenario, and the cleanup;
* `Course`: a run.
-/

namespace Rehearsal

/-- Steps of a stage one after the other until one fails: what they exchange and report, the steps
that are left, and what they come to. -/
inductive InTurn (scenario : String) (stage : Stage) :
    List Step → List Exchange → List StepReport → List Step → Except RunError Unit → Prop
  | done : InTurn scenario stage [] [] [] [] (.ok ())
  | completed {s : Step} {steps left : List Step} {calls calls' : List Exchange}
      {report : StepReport} {reports : List StepReport} {result : Except RunError Unit}
      (first : Ran scenario stage s calls report (.ok ()))
      (next : InTurn scenario stage steps calls' reports left result) :
      InTurn scenario stage (s :: steps) (calls ++ calls') (report :: reports) left result
  | failed {s : Step} {steps : List Step} {calls : List Exchange} {report : StepReport}
      {e : RunError} (first : Ran scenario stage s calls report (.error e)) :
      InTurn scenario stage (s :: steps) calls [report] steps (.error e)

/-- Whether a call asks for a container. -/
def Call.isCreation : Call → Bool
  | .createContainer .. => true
  | _ => false

/-- Whether a call asks for the deletion of a container. -/
def Call.isDeletion : Call → Bool
  | .deleteContainer .. => true
  | _ => false

theorem Call.isCreation_of_step {call : Call} {s : Step} (h : call.step? = some s) :
    call.isCreation = false := by
  cases call <;> first | rfl | cases h

theorem Call.isDeletion_of_step {call : Call} {s : Step} (h : call.step? = some s) :
    call.isDeletion = false := by
  cases call <;> first | rfl | cases h

theorem Call.step?_of_creation {call : Call} (h : call.isCreation = true) : call.step? = none := by
  cases call <;> first | rfl | cases h

theorem Call.step?_of_deletion {call : Call} (h : call.isDeletion = true) : call.step? = none := by
  cases call <;> first | rfl | cases h

theorem Call.isDeletion_of_creation {call : Call} (h : call.isCreation = true) :
    call.isDeletion = false := by
  cases call <;> first | rfl | cases h

theorem Call.isCreation_of_deletion {call : Call} (h : call.isDeletion = true) :
    call.isCreation = false := by
  cases call <;> first | rfl | cases h

/-- The provisioning of a scope that was not provisioned before: a container is created if the
scope needs one, and then come the steps to prepare it. -/
inductive Readying (scenario : String) (stage : Stage) (kind : ScopeKind) (steps : List Step) :
    List Exchange → List StepReport → Except RunError Unit → Prop
  | uncreated {calls : List Exchange} {e : RunError} (needed : kind.needsContainer = true)
      (creation : OneCall stage (·.isCreation = true) false calls) (plain : e.isPlain = true) :
      Readying scenario stage kind steps calls [] (.error e)
  | created {calls calls' : List Exchange} {reports : List StepReport} {left : List Step}
      {result : Except RunError Unit} (needed : kind.needsContainer = true)
      (creation : OneCall stage (·.isCreation = true) true calls)
      (inTurn : InTurn scenario stage steps calls' reports left result) :
      Readying scenario stage kind steps (calls ++ calls') reports result
  | uncontained {calls : List Exchange} {reports : List StepReport} {left : List Step}
      {result : Except RunError Unit} (needed : kind.needsContainer = false)
      (inTurn : InTurn scenario stage steps calls reports left result) :
      Readying scenario stage kind steps calls reports result

namespace ProvisionStatus

/-- Whether nothing can be done about a status any more. -/
def isSettled : ProvisionStatus → Bool
  | .provisioned | .failed _ => true
  | .unprovisioned | .provisioning => false

end ProvisionStatus

/-- What a run does about the provisioning of its scope, and the status that it leaves. -/
inductive Provisioning (scenario : String) (stage : Stage) (scope : RuntimeScope) :
    List Exchange → List StepReport → ProvisionStatus → Except RunError Unit → Prop
  | ready (status : scope.status = .provisioned) :
      Provisioning scenario stage scope [] [] .provisioned (.ok ())
  | barred {message : String} (status : scope.status = .failed message) :
      Provisioning scenario stage scope [] [] (.failed message)
        (.error (.provisioning scope.name message))
  | succeeded {calls : List Exchange} {reports : List StepReport}
      (status : scope.status.isSettled = false)
      (readying : Readying scenario { stage with status := .provisioning } scope.kind
        scope.prepareSteps calls reports (.ok ())) :
      Provisioning scenario stage scope calls reports .provisioned (.ok ())
  | failed {calls : List Exchange} {reports : List StepReport} {e : RunError}
      (status : scope.status.isSettled = false)
      (readying : Readying scenario { stage with status := .provisioning } scope.kind
        scope.prepareSteps calls reports (.error e))
      (message : String) :
      Provisioning scenario stage scope calls reports (.failed message) (.error e)

/-- The reports on steps that are skipped. -/
def skipped (phase : Phase) (message : String) (steps : List Step) : List StepReport :=
  steps.map fun s => .ofStep s phase .skipped message

/-- The steps of a scenario behind the provisioning of its scope. -/
inductive Working (scenario : String) (stage : Stage) (steps : List Step) :
    Except RunError Unit → List Exchange → List StepReport → Except RunError Unit → Prop
  | ran {calls : List Exchange} {reports : List StepReport} {left : List Step}
      {result : Except RunError Unit}
      (inTurn : InTurn scenario stage steps calls reports left result) :
      Working scenario stage steps (.ok ()) calls
        (reports ++ skipped .scenario "previous step failed" left) result
  | barred (e : RunError) :
      Working scenario stage steps (.error e) []
        (skipped .scenario "scope provisioning failed" steps) (.error e)

/-- The cleanup of a scope. -/
inductive Cleaning (options : Options) (scenario : String) (stage : Stage) (kind : ScopeKind)
    (steps : List Step) :
    List Exchange → List StepReport → Except RunError Unit → Prop
  | disabled (skip : options.skipCleanup = true) :
      Cleaning options scenario stage kind steps []
        (skipped .cleanup "cleanup disabled" steps) (.ok ())
  | failed {calls : List Exchange} {reports : List StepReport} {left : List Step} {e : RunError}
      (enabled : options.skipCleanup = false)
      (inTurn : InTurn scenario stage steps calls reports left (.error e)) :
      Cleaning options scenario stage kind steps calls reports (.error e)
  | emptied {calls calls' : List Exchange} {reports : List StepReport} {left : List Step}
      {result : Except RunError Unit} (enabled : options.skipCleanup = false)
      (inTurn : InTurn scenario stage steps calls reports left (.ok ()))
      (needed : kind.needsContainer = true)
      (deletion : OneCall stage (·.isDeletion = true) result.isOk calls')
      (plain : ∀ e, result = .error e → e.isPlain = true) :
      Cleaning options scenario stage kind steps (calls ++ calls') reports result
  | uncontained {calls : List Exchange} {reports : List StepReport} {left : List Step}
      (enabled : options.skipCleanup = false)
      (inTurn : InTurn scenario stage steps calls reports left (.ok ()))
      (needed : kind.needsContainer = false) :
      Cleaning options scenario stage kind steps calls reports (.ok ())

/-- The exchange in which the client gets ready for a scenario. -/
def Run.readiness (run : Run) (scenario : Scenario) (answer : Except String Unit) : Exchange :=
  run.exchange .scenario (.prepare scenario (run.environment .scenario)) answer

/-- A run of a scenario in a scope: a client that does not get ready ends it, and otherwise come the
provisioning, the steps of the scenario, and the cleanup. The status is the one that the run leaves
behind. -/
inductive Course (options : Options) (scenario : Scenario) (run : Run) :
    List Exchange → List StepReport → ProvisionStatus → Except RunError Unit → Prop
  | unready {reason : String} :
      Course options scenario run
        [run.readiness scenario (.error reason)] [] run.scope.status
        (.error (.scenario scenario.name (.client "prepare" reason)))
  | performed {calls calls' calls'' : List Exchange} {reports reports' reports'' : List StepReport}
      {status : ProvisionStatus} {result result' result'' : Except RunError Unit}
      (provisioning : Provisioning run.scenario (run.stage .prepare) run.scope calls reports status
        result)
      (working : Working run.scenario { run.stage .scenario with status } scenario.steps result
        calls' reports' result')
      (cleaning : Cleaning options run.scenario { run.stage .cleanup with status } run.scope.kind
        run.scope.cleanupSteps calls'' reports'' result'') :
      Course options scenario run
        (run.readiness scenario (.ok ()) :: (calls ++ calls' ++ calls''))
        (reports ++ reports' ++ reports'') status (Run.settle scenario.name result' result'')

namespace Run

open Runs

variable {options : Options} {client : Client} {phase : Phase} {run run' : Run}

theorem skip_run (phase : Phase) (message : String) (steps : List Step) :
    skip phase message steps run =
      (.ok (), { run with steps := run.steps ++ skipped phase message steps }) := by
  induction steps generalizing run with
  | nil => simp [skipped, skip, List.forM]
  | cons s steps ih =>
    change (report s phase .skipped message >>= fun _ => skip phase message steps) run = _
    rw [bind_ok (report_run s phase .skipped message), ih]
    simp [skipped]

theorem advances_skipped (run : Run) (phase : Phase) (message : String) (steps : List Step) :
    run.Advances [] (skipped phase message steps)
      { run with steps := run.steps ++ skipped phase message steps } := by
  constructor <;> simp

theorem inTurn_forM (options : Options) (client : Client) (phase : Phase) (steps : List Step)
    (run : Run) :
    ∃ calls reports left,
      run.Advances calls reports (steps.forM (step options client phase) run).2 ∧
        InTurn run.scenario (run.stage phase) steps calls reports left
          (steps.forM (step options client phase) run).1 := by
  induction steps generalizing run with
  | nil => exact ⟨[], [], [], .refl run, .done⟩
  | cons s steps ih =>
    change ∃ calls reports left,
      run.Advances calls reports
        ((step options client phase s >>= fun _ => steps.forM (step options client phase)) run).2 ∧
      InTurn run.scenario (run.stage phase) (s :: steps) calls reports left
        ((step options client phase s >>= fun _ => steps.forM (step options client phase)) run).1
    obtain ⟨calls, report, hstep, hran⟩ := ran_step options client phase s run
    rcases hrun : step options client phase s run with ⟨e | _, run'⟩
    · rw [hrun] at hstep hran
      rw [bind_error hrun]
      exact ⟨calls, [report], steps, hstep, .failed hran⟩
    · -- What is left takes its turn from the run that the first step leaves.
      rw [hrun] at hstep hran
      rw [bind_ok hrun]
      obtain ⟨calls', reports, left, hrest, hturn⟩ := ih run'
      rw [hstep.stage, hstep.scenario] at hturn
      exact ⟨calls ++ calls', report :: reports, left, hstep.trans hrest, .completed hran hturn⟩

theorem inTurn_scenarioSteps (options : Options) (client : Client) (steps : List Step) (run : Run) :
    ∃ calls reports left,
      run.Advances calls (reports ++ skipped .scenario "previous step failed" left)
          (scenarioSteps options client steps run).2 ∧
        InTurn run.scenario (run.stage .scenario) steps calls reports left
          (scenarioSteps options client steps run).1 := by
  induction steps generalizing run with
  | nil => exact ⟨[], [], [], .refl run, .done⟩
  | cons s steps ih =>
    obtain ⟨calls, report, hstep, hran⟩ := ran_step options client .scenario s run
    rw [scenarioSteps, attempt_bind_run]
    rcases hrun : step options client .scenario s run with ⟨e | _, run'⟩
    · rw [hrun] at hstep hran
      dsimp only
      rw [bind_ok (skip_run .scenario "previous step failed" steps), throw_run]
      have hskip := hstep.trans (advances_skipped run' .scenario "previous step failed" steps)
      exact ⟨calls, [report], steps, by simpa using hskip, .failed hran⟩
    · rw [hrun] at hstep hran
      obtain ⟨calls', reports, left, hrest, hturn⟩ := ih run'
      rw [hstep.stage, hstep.scenario] at hturn
      exact ⟨calls ++ calls', report :: reports, left, hstep.trans hrest, .completed hran hturn⟩

/-- Creates the container of a scope. -/
def createContainer (client : Client) (env : Environment) : Runs Unit := do
  let subscription ← ofVariables (env.requireString ReservedName.subscription)
  let name ← ofVariables (env.requireString ReservedName.container)
  let location ← ofVariables (env.requireString ReservedName.location)
  ask client .prepare (.createContainer subscription name location)

/-- Deletes the container of a scope. -/
def deleteContainer (client : Client) (env : Environment) : Runs Unit := do
  let subscription ← ofVariables (env.requireString ReservedName.subscription)
  let name ← ofVariables (env.requireString ReservedName.container)
  ask client .cleanup (.deleteContainer subscription name)

theorem calls_createContainer (client : Client) (env : Environment) :
    Calls .prepare (·.isCreation = true) (createContainer client env) :=
  Calls.bind (Silent.ofVariables _) fun _ => Calls.bind (Silent.ofVariables _) fun _ =>
    Calls.bind (Silent.ofVariables _) fun _ => Calls.of_ask client rfl

theorem calls_deleteContainer (client : Client) (env : Environment) :
    Calls .cleanup (·.isDeletion = true) (deleteContainer client env) :=
  Calls.bind (Silent.ofVariables _) fun _ => Calls.bind (Silent.ofVariables _) fun _ =>
    Calls.of_ask client rfl

theorem provisionOnce_of_container (h : run.scope.kind.needsContainer = true) :
    provisionOnce options client run = (do
      createContainer client run.scope.environment
      run.scope.prepareSteps.forM (step options client .prepare)) run := by
  simp only [provisionOnce, get_bind_run, h, ↓reduceIte, createContainer, bind_assoc]

theorem provisionOnce_of_no_container (h : run.scope.kind.needsContainer = false) :
    provisionOnce options client run =
      run.scope.prepareSteps.forM (step options client .prepare) run := by
  simp only [provisionOnce, bind_run, get_run, h]
  rfl

theorem readying_provisionOnce (options : Options) (client : Client) (run : Run) :
    ∃ calls reports, run.Advances calls reports (provisionOnce options client run).2 ∧
      Readying run.scenario (run.stage .prepare) run.scope.kind run.scope.prepareSteps calls reports
        (provisionOnce options client run).1 := by
  cases hkind : run.scope.kind.needsContainer with
  | false =>
    rw [provisionOnce_of_no_container hkind]
    obtain ⟨calls, reports, left, hsteps, hturn⟩ :=
      inTurn_forM options client .prepare run.scope.prepareSteps run
    exact ⟨calls, reports, hsteps, .uncontained hkind hturn⟩
  | true =>
    rw [provisionOnce_of_container hkind]
    obtain ⟨calls, hcreate, hcall, hplain⟩ :=
      calls_createContainer client run.scope.environment run
    rcases hrun : createContainer client run.scope.environment run with ⟨e | _, run'⟩
    · rw [hrun] at hcreate hcall hplain
      rw [bind_error hrun]
      exact ⟨calls, [], hcreate, .uncreated hkind hcall (hplain e rfl)⟩
    · rw [hrun] at hcreate hcall
      rw [bind_ok hrun]
      obtain ⟨calls', reports, left, hsteps, hturn⟩ :=
        inTurn_forM options client .prepare run.scope.prepareSteps run'
      rw [hcreate.stage, hcreate.scenario] at hturn
      exact ⟨calls ++ calls', reports, hcreate.trans hsteps, .created hkind hcall hturn⟩

/-- The run with its scope at another status. -/
def withStatus (run : Run) (status : ProvisionStatus) : Run :=
  { run with scope := { run.scope with status } }

theorem Advances.withStatus {calls : List Exchange} {reports : List StepReport}
    (h : run.Advances calls reports run') (status : ProvisionStatus) :
    (run.withStatus status).Advances calls reports (run'.withStatus status) where
  scenario := h.scenario
  position := h.position
  scope := by simp only [Run.withStatus]; rw [h.scope]
  trace := h.trace
  steps := h.steps

theorem provision_of_provisioned (h : run.scope.status = .provisioned) :
    provision options client run = (.ok (), run) := by
  simp only [provision, get_bind_run, h, pure_run]

theorem provision_of_failed {message : String} (h : run.scope.status = .failed message) :
    provision options client run = (.error (.provisioning run.scope.name message), run) := by
  simp only [provision, get_bind_run, h, throw_run]

theorem provision_of_not_settled (h : run.scope.status.isSettled = false) :
    provision options client run = (do
      match ← attempt (provisionOnce options client) with
      | .ok () => setStatus .provisioned
      | .error e =>
        setStatus (.failed ((← get).scope.environment.mask e.message))
        throw e) (run.withStatus .provisioning) := by
  rw [provision, get_bind_run]
  cases hstatus : run.scope.status with
  | unprovisioned => rfl
  | provisioning => rfl
  | provisioned => rw [hstatus] at h; cases h
  | failed message => rw [hstatus] at h; cases h

theorem provision_of_once_ok (h : run.scope.status.isSettled = false)
    (hrun : provisionOnce options client (run.withStatus .provisioning) = (.ok (), run')) :
    provision options client run = (.ok (), run'.withStatus .provisioned) := by
  rw [provision_of_not_settled h, attempt_bind_run, hrun]
  rfl

/-- A failure is recorded, with the secrets of the scope covered. -/
theorem provision_of_once_error {e : RunError} (h : run.scope.status.isSettled = false)
    (hrun : provisionOnce options client (run.withStatus .provisioning) = (.error e, run')) :
    provision options client run =
      (.error e, run'.withStatus (.failed (run'.scope.environment.mask e.message))) := by
  rw [provision_of_not_settled h, attempt_bind_run, hrun]
  rfl

theorem provisioning_provision (options : Options) (client : Client) (run : Run) :
    ∃ calls reports status,
      (run.withStatus status).Advances calls reports (provision options client run).2 ∧
        Provisioning run.scenario (run.stage .prepare) run.scope calls reports status
          (provision options client run).1 := by
  -- A status that is not settled leads to the same course, whichever it is.
  have hunsettled (h : run.scope.status.isSettled = false) : ∃ calls reports status,
      (run.withStatus status).Advances calls reports (provision options client run).2 ∧
        Provisioning run.scenario (run.stage .prepare) run.scope calls reports status
          (provision options client run).1 := by
    obtain ⟨calls, reports, hadvances, hreadying⟩ :=
      readying_provisionOnce options client (run.withStatus .provisioning)
    rcases hrun : provisionOnce options client (run.withStatus .provisioning) with ⟨e | _, run'⟩
    · rw [hrun] at hadvances hreadying
      rw [provision_of_once_error h hrun]
      exact ⟨calls, reports, _, hadvances.withStatus _, .failed h hreadying _⟩
    · rw [hrun] at hadvances hreadying
      rw [provision_of_once_ok h hrun]
      exact ⟨calls, reports, _, hadvances.withStatus _, .succeeded h hreadying⟩
  cases hstatus : run.scope.status with
  | unprovisioned => exact hunsettled (by rw [hstatus]; rfl)
  | provisioning => exact hunsettled (by rw [hstatus]; rfl)
  | provisioned =>
    rw [provision_of_provisioned hstatus]
    refine ⟨[], [], run.scope.status, .refl run, ?_⟩
    rw [hstatus]
    exact .ready hstatus
  | failed message =>
    rw [provision_of_failed hstatus]
    refine ⟨[], [], run.scope.status, .refl run, ?_⟩
    rw [hstatus]
    exact .barred hstatus

/-- The provisioning and the steps of a scenario. -/
theorem working_body (options : Options) (client : Client) (scenario : Scenario) (run : Run) :
    ∃ calls calls' reports reports' status result,
      (run.withStatus status).Advances (calls ++ calls') (reports ++ reports')
          (body options client scenario run).2 ∧
        Provisioning run.scenario (run.stage .prepare) run.scope calls reports status result ∧
        Working run.scenario { run.stage .scenario with status } scenario.steps result calls'
          reports' (body options client scenario run).1 := by
  obtain ⟨calls, reports, status, hadvances, hprovisioning⟩ :=
    provisioning_provision options client run
  rw [body, attempt_bind_run]
  rcases hrun : provision options client run with ⟨e | _, run'⟩
  · rw [hrun] at hadvances hprovisioning
    dsimp only
    rw [bind_ok (skip_run .scenario "scope provisioning failed" scenario.steps), throw_run]
    exact ⟨calls, [], reports, _, status, _,
      hadvances.trans (advances_skipped run' .scenario "scope provisioning failed" scenario.steps),
      hprovisioning, .barred e⟩
  · rw [hrun] at hadvances hprovisioning
    obtain ⟨calls', reports', left, hsteps, hturn⟩ :=
      inTurn_scenarioSteps options client scenario.steps run'
    rw [hadvances.stage, hadvances.scenario] at hturn
    exact ⟨calls, calls', reports, _, status, _, hadvances.trans hsteps, hprovisioning, .ran hturn⟩

theorem cleanup_of_steps_error {e : RunError}
    (h : run.scope.cleanupSteps.forM (step options client .cleanup) run = (.error e, run')) :
    cleanup options client run = (.error e, run') := by
  rw [cleanup, get_bind_run, bind_error h]

theorem cleanup_of_steps_ok
    (h : run.scope.cleanupSteps.forM (step options client .cleanup) run = (.ok (), run')) :
    cleanup options client run =
      if run'.scope.kind.needsContainer then deleteContainer client run'.scope.environment run'
      else (.ok (), run') := by
  rw [cleanup, get_bind_run, bind_ok h, get_bind_run]
  split <;> rfl

theorem cleaning_cleanup (enabled : options.skipCleanup = false) (client : Client) (run : Run) :
    ∃ calls reports, run.Advances calls reports (cleanup options client run).2 ∧
      Cleaning options run.scenario (run.stage .cleanup) run.scope.kind run.scope.cleanupSteps
        calls reports (cleanup options client run).1 := by
  obtain ⟨calls, reports, left, hsteps, hturn⟩ :=
    inTurn_forM options client .cleanup run.scope.cleanupSteps run
  rcases hrun : run.scope.cleanupSteps.forM (step options client .cleanup) run with ⟨e | _, run'⟩
  · rw [hrun] at hsteps hturn
    rw [cleanup_of_steps_error hrun]
    exact ⟨calls, reports, hsteps, .failed enabled hturn⟩
  · rw [hrun] at hsteps hturn
    have hkind : run'.scope.kind = run.scope.kind := by rw [hsteps.scope]
    rw [cleanup_of_steps_ok hrun, hkind]
    cases hneeded : run.scope.kind.needsContainer with
    | false => exact ⟨calls, reports, hsteps, .uncontained enabled hturn hneeded⟩
    | true =>
      rw [if_pos rfl]
      obtain ⟨calls', hdelete, hcall, hplain⟩ :=
        calls_deleteContainer client run'.scope.environment run'
      rw [hsteps.stage] at hcall
      exact ⟨calls ++ calls', reports, by simpa using hsteps.trans hdelete,
        .emptied enabled hturn hneeded hcall hplain⟩

theorem cleaning_finish (options : Options) (client : Client) (run : Run) :
    ∃ calls reports, run.Advances calls reports (finish options client run).2 ∧
      Cleaning options run.scenario (run.stage .cleanup) run.scope.kind run.scope.cleanupSteps
        calls reports (finish options client run).1 := by
  cases hskip : options.skipCleanup with
  | true =>
    simp only [finish, hskip, ↓reduceIte, get_bind_run, skip_run]
    exact ⟨[], _, advances_skipped run .cleanup "cleanup disabled" run.scope.cleanupSteps,
      .disabled hskip⟩
  | false =>
    simp only [finish, hskip, Bool.false_eq_true, ↓reduceIte]
    exact cleaning_cleanup hskip client run

theorem perform_of_rejected {scenario : Scenario} {reason : String}
    (h : client.answer run.trace (.prepare scenario (run.environment .scenario)) = .error reason) :
    perform options client scenario run =
      (.error (.scenario scenario.name (.client "prepare" reason)),
        run.exchanged (run.readiness scenario (.error reason))) := by
  rw [perform, get_bind_run, attempt_bind_run, ask_rejected h .scenario]
  rfl

theorem perform_of_accepted (options : Options) {scenario : Scenario} {ready : Run}
    (h : client.answer run.trace (.prepare scenario (run.environment .scenario)) = .ok ())
    (hready : ready = run.exchanged (run.readiness scenario (.ok ()))) :
    perform options client scenario run =
      (settle scenario.name (body options client scenario ready).1
          (finish options client (body options client scenario ready).2).1,
        (finish options client (body options client scenario ready).2).2) := by
  rw [perform, get_bind_run, attempt_bind_run, ask_accepted h .scenario, ← readiness, ← hready]
  simp only [attempt_bind_run]
  cases settle scenario.name (body options client scenario ready).1
    (finish options client (body options client scenario ready).2).1 <;> rfl

/-- The parts of a run for which the client gets ready. -/
structure Parts (options : Options) (client : Client) (scenario : Scenario) (run : Run) where
  /-- The calls that provision the scope. -/
  provisioning : List Exchange
  /-- The calls of the steps of the scenario. -/
  working : List Exchange
  /-- The calls that clean up. -/
  cleaning : List Exchange
  /-- The reports on steps that prepare the scope. -/
  preparations : List StepReport
  /-- The reports on the steps of the scenario. -/
  entries : List StepReport
  /-- The reports on steps that clean up. -/
  cleanups : List StepReport
  /-- The status that the scope is left at. -/
  status : ProvisionStatus
  /-- What provisioning comes to. -/
  provisioned : Except RunError Unit
  /-- What the body comes to. -/
  worked : Except RunError Unit
  /-- What the cleanup comes to. -/
  cleaned : Except RunError Unit
  /-- The run before its cleanup. -/
  before : Run
  /-- The run at its end. -/
  last : Run
  provisions : Provisioning run.scenario (run.stage .prepare) run.scope provisioning preparations
    status provisioned
  works : Working run.scenario { run.stage .scenario with status } scenario.steps provisioned working
    entries worked
  cleans : Cleaning options run.scenario { run.stage .cleanup with status } run.scope.kind
    run.scope.cleanupSteps cleaning cleanups cleaned
  leads : (run.withStatus status).Advances
    (run.readiness scenario (.ok ()) :: (provisioning ++ working)) (preparations ++ entries) before
  finishes : finish options client before = (cleaned, last)
  ends : before.Advances cleaning cleanups last
  performs : perform options client scenario run = (settle scenario.name worked cleaned, last)

/-- A run for which the client gets ready has all its parts. -/
theorem exists_parts (options : Options) {scenario : Scenario}
    (h : client.answer run.trace (.prepare scenario (run.environment .scenario)) = .ok ()) :
    Nonempty (Parts options client scenario run) := by
  have hperform := perform_of_accepted options h rfl
  have hask := advances_exchanged run (run.readiness scenario (.ok ()))
  obtain ⟨calls, calls', reports, reports', status, result, hbody, hprovisioning, hworking⟩ :=
    working_body options client scenario (run.exchanged (run.readiness scenario (.ok ())))
  generalize body options client scenario (run.exchanged (run.readiness scenario (.ok ()))) = done
    at hbody hworking hperform
  obtain ⟨calls'', reports'', hfinish, hcleaning⟩ := cleaning_finish options client done.2
  -- The body leaves the kind of the scope and its steps alone.
  have hkind : done.2.scope.kind = run.scope.kind := by rw [hbody.scope]; rfl
  have hsteps : done.2.scope.cleanupSteps = run.scope.cleanupSteps := by rw [hbody.scope]; rfl
  rw [hbody.scenario, hbody.stage, hkind, hsteps] at hcleaning
  exact ⟨calls, calls', calls'', reports, reports', reports'', status, result, done.1, _, done.2, _,
    hprovisioning, hworking, hcleaning, (hask.withStatus status).trans hbody, rfl, hfinish, hperform⟩

/-- What all parts together exchange and report. -/
theorem Parts.advances {scenario : Scenario} (parts : Parts options client scenario run) :
    (run.withStatus parts.status).Advances
      (run.readiness scenario (.ok ()) :: (parts.provisioning ++ parts.working ++ parts.cleaning))
      (parts.preparations ++ parts.entries ++ parts.cleanups) parts.last :=
  parts.leads.trans parts.ends

/-- **A run takes a course.** -/
theorem course_perform (options : Options) (client : Client) (scenario : Scenario) (run : Run) :
    ∃ calls reports status,
      (run.withStatus status).Advances calls reports (perform options client scenario run).2 ∧
        Course options scenario run calls reports status
          (perform options client scenario run).1 := by
  cases hanswer : client.answer run.trace (.prepare scenario (run.environment .scenario)) with
  | error reason =>
    rw [perform_of_rejected hanswer]
    exact ⟨_, [], run.scope.status, advances_exchanged run _, .unready⟩
  | ok _ =>
    obtain ⟨parts⟩ := exists_parts options hanswer
    rw [parts.performs]
    exact ⟨_, _, _, parts.advances, .performed parts.provisions parts.works parts.cleans⟩

end Run

/-! ### Which calls are made, and at which stage -/

section stages

variable {scenario : String} {stage : Stage} {kind : ScopeKind} {scope : RuntimeScope}
  {steps left : List Step} {calls : List Exchange} {reports : List StepReport}
  {result result' : Except RunError Unit} {x : Exchange}

theorem OneCall.of_mem {purpose : Call → Prop} {ok : Bool} (h : OneCall stage purpose ok calls)
    (hx : x ∈ calls) : x.stage = stage ∧ purpose x.call := by
  rcases h with ⟨rfl, -⟩ | ⟨y, rfl, hstage, hcall, -⟩
  · cases hx
  · rw [List.mem_singleton.1 hx]
    exact ⟨hstage, hcall⟩

theorem InTurn.of_mem (h : InTurn scenario stage steps calls reports left result)
    (hx : x ∈ calls) : x.stage = stage ∧ ∃ s ∈ steps, x.call.step? = some s := by
  induction h with
  | done => cases hx
  | completed first _ ih =>
    rcases List.mem_append.1 hx with hx | hx
    · obtain ⟨hstage, hstep⟩ := first.calls.of_mem hx
      exact ⟨hstage, _, List.mem_cons_self, hstep⟩
    · obtain ⟨hstage, s, hs, hstep⟩ := ih hx
      exact ⟨hstage, s, List.mem_cons_of_mem _ hs, hstep⟩
  | failed first =>
    obtain ⟨hstage, hstep⟩ := first.calls.of_mem hx
    exact ⟨hstage, _, List.mem_cons_self, hstep⟩

theorem Readying.of_mem (h : Readying scenario stage kind steps calls reports result)
    (hx : x ∈ calls) :
    x.stage = stage ∧ (x.call.isCreation = true ∨ ∃ s ∈ steps, x.call.step? = some s) := by
  cases h with
  | uncreated _ creation => exact (creation.of_mem hx).imp_right .inl
  | created _ creation inTurn =>
    rcases List.mem_append.1 hx with hx | hx
    · exact (creation.of_mem hx).imp_right .inl
    · exact (inTurn.of_mem hx).imp_right .inr
  | uncontained _ inTurn => exact (inTurn.of_mem hx).imp_right .inr

theorem Provisioning.of_mem {status : ProvisionStatus}
    (h : Provisioning scenario stage scope calls reports status result) (hx : x ∈ calls) :
    x.stage = { stage with status := .provisioning } ∧
      (x.call.isCreation = true ∨ ∃ s ∈ scope.prepareSteps, x.call.step? = some s) := by
  cases h with
  | ready => cases hx
  | barred => cases hx
  | succeeded _ readying => exact readying.of_mem hx
  | failed _ readying => exact readying.of_mem hx

theorem Working.of_mem (h : Working scenario stage steps result calls reports result')
    (hx : x ∈ calls) : x.stage = stage ∧ ∃ s ∈ steps, x.call.step? = some s := by
  cases h with
  | ran inTurn => exact inTurn.of_mem hx
  | barred => cases hx

theorem Cleaning.of_mem {options : Options}
    (h : Cleaning options scenario stage kind steps calls reports result) (hx : x ∈ calls) :
    x.stage = stage ∧ (x.call.isDeletion = true ∨ ∃ s ∈ steps, x.call.step? = some s) := by
  cases h with
  | disabled => cases hx
  | failed _ inTurn => exact (inTurn.of_mem hx).imp_right .inr
  | emptied _ inTurn _ deletion =>
    rcases List.mem_append.1 hx with hx | hx
    · exact (inTurn.of_mem hx).imp_right .inr
    · exact (deletion.of_mem hx).imp_right .inl
  | uncontained _ inTurn => exact (inTurn.of_mem hx).imp_right .inr

theorem InTurn.phase_eq (h : InTurn scenario stage steps calls reports left result)
    {r : StepReport} (hr : r ∈ reports) : r.phase = stage.phase := by
  induction h with
  | done => cases hr
  | completed first _ ih =>
    rcases List.mem_cons.1 hr with rfl | hr
    · exact first.phase
    · exact ih hr
  | failed first => rw [List.mem_singleton.1 hr, first.phase]

/-- A call of a step is made for it, and there is no second one. -/
theorem OneCall.steps_sublist {s : Step} {ok : Bool} (h : OneCall stage (·.step? = some s) ok calls) :
    (calls.filterMap fun x => x.call.step?).Sublist [s] := by
  rcases h with ⟨rfl, -⟩ | ⟨x, rfl, -, hstep, -⟩
  · exact List.nil_sublist _
  · have heq : [x].filterMap (fun x => x.call.step?) = [s] := by simp [hstep]
    exact heq ▸ List.Sublist.refl _

/-- Every call is made for one of the steps, and no step makes two. -/
theorem InTurn.steps_sublist (h : InTurn scenario stage steps calls reports left result) :
    (calls.filterMap fun x => x.call.step?).Sublist steps := by
  induction h with
  | done => exact List.nil_sublist _
  | completed first _ ih =>
    rw [List.filterMap_append]
    exact first.calls.steps_sublist.append ih
  | failed first => exact first.calls.steps_sublist.trans ((List.nil_sublist _).cons_cons _)

/-- The steps that are reported on come first. -/
theorem InTurn.names_eq (h : InTurn scenario stage steps calls reports left result) :
    steps.map Step.name = reports.map (·.name) ++ left.map Step.name := by
  induction h with
  | done => rfl
  | completed first _ ih => rw [List.map_cons, List.map_cons, first.name, ih, List.cons_append]
  | failed first => rw [List.map_cons, List.map_cons, first.name]; rfl

/-- Every call of a run is made for its scope. -/
theorem Course.scope_eq {options : Options} {scenario : Scenario} {run : Run}
    {status : ProvisionStatus} (h : Course options scenario run calls reports status result)
    (hx : x ∈ calls) : x.scope = run.scope.name := by
  cases h with
  | unready =>
    rw [List.mem_singleton.1 hx]
    rfl
  | performed provisioning working cleaning =>
    rcases List.mem_cons.1 hx with rfl | hx
    · rfl
    rcases List.mem_append.1 hx with hx | hx
    rcases List.mem_append.1 hx with hx | hx
    · exact congrArg Stage.scope (provisioning.of_mem hx).1
    · exact congrArg Stage.scope (working.of_mem hx).1
    · exact congrArg Stage.scope (cleaning.of_mem hx).1

end stages

end Rehearsal
