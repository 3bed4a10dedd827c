import Rehearsal.Proofs.Run.Provisioning

/-!
# The steps of a run that fail

A run comes to its phases one after the other (`Run.Begins`), and in each of them it gets to a step
if those before it complete (`Run.GetsTo`). A step fails in an environment (`Run.FailsIn`): its own
or, if that cannot be built, the one around it. The steps that a run reports to have failed are
exactly these (`Run.mem_perform_iff`), and what the run comes to says of each of them why it failed
(`Run.Begins.exists_failure`).

* `Run.FailsIn`, `Run.failure`: a step fails, and the report on it;
* `Run.GetsTo`, `Run.Begins`: which steps are run, and from which run on;
* `RunError.parts`: the failures that an error is about.
-/

namespace Rehearsal

namespace RunError

/-- The failures that an error is about. -/
def parts : RunError → List RunError
  | .cleanupAfterFailure _ failure cleanup => [failure, cleanup]
  | e => [e]

end RunError

namespace Run

open Runs

variable {options : Options} {client : Client} {phase : Phase} {s : Step} {env : Environment}
  {e : RunError} {run run' before after : Run} {steps : List Step} {r : StepReport}

/-! ### One step -/

/-- A step fails: its environment cannot be built, and then it fails in the one around it, or what
it does in its environment fails. -/
inductive FailsIn (options : Options) (client : Client) (phase : Phase) (s : Step) (before : Run) :
    Environment → RunError → Prop
  | unbuilt {e : RunError} {after : Run}
      (builds : stepEnvironment options phase s before = (.error e, after)) :
      FailsIn options client phase s before (after.environment phase) e
  | undone {env : Environment} {e : RunError} {ready after : Run}
      (builds : stepEnvironment options phase s before = (.ok env, ready))
      (does : dispatch options client phase s env ready = (.error e, after)) :
      FailsIn options client phase s before env e

/-- The report on a step that fails. -/
def failure (phase : Phase) (s : Step) (env : Environment) (e : RunError) : StepReport :=
  .ofStep s phase .failed (env.mask e.message)

theorem failStep_of_advances {calls : List Exchange} (h : before.Advances calls [] after)
    (hplain : e.isPlain = true) (phase : Phase) (s : Step) (env : Environment) :
    failStep phase s env e after =
      (.error (.step before.scenario s.name e),
        { after with steps := before.steps ++ [failure phase s env e] }) := by
  rw [failStep_run, e.inStep_of_isPlain hplain, h.scenario, h.steps, List.append_nil]
  rfl

/-- A step that fails is reported, and it ends with why it failed. -/
theorem FailsIn.step_run (h : FailsIn options client phase s before env e) :
    ∃ after, step options client phase s before =
        (.error (.step before.scenario s.name e), after) ∧
      after.steps = before.steps ++ [failure phase s env e] := by
  cases h with
  | unbuilt builds =>
    obtain ⟨hadvances, hplain⟩ := silent_stepEnvironment options phase s before
    rw [builds] at hadvances hplain
    rw [step_of_environment_error builds, failStep_of_advances hadvances (hplain e rfl)]
    exact ⟨_, rfl, rfl⟩
  | @undone _ _ ready _ builds does =>
    -- Neither building the environment nor the call of the step reports anything.
    obtain ⟨hready, -⟩ := silent_stepEnvironment options phase s before
    obtain ⟨calls, hadvances, -, hplain⟩ := calls_dispatch options client phase s env ready
    rw [builds] at hready
    rw [does] at hadvances hplain
    rw [step_of_dispatch_error builds does,
      failStep_of_advances (hready.trans hadvances) (hplain e rfl)]
    exact ⟨_, rfl, rfl⟩

theorem FailsIn.not_completes (h : FailsIn options client phase s before env e) :
    step options client phase s before ≠ (.ok (), after) := by
  obtain ⟨_, hstep, -⟩ := h.step_run
  rw [hstep]
  nofun

/-- A step fails in one environment and for one reason. -/
theorem FailsIn.unique {env' : Environment} {e' : RunError}
    (h : FailsIn options client phase s before env e)
    (h' : FailsIn options client phase s before env' e') : env' = env ∧ e' = e := by
  cases h with
  | unbuilt builds =>
    cases h' with
    | unbuilt builds' =>
      rw [builds] at builds'
      cases builds'
      exact ⟨rfl, rfl⟩
    | undone builds' =>
      rw [builds] at builds'
      cases builds'
  | undone builds does =>
    cases h' with
    | unbuilt builds' =>
      rw [builds] at builds'
      cases builds'
    | undone builds' does' =>
      rw [builds] at builds'
      cases builds'
      rw [does] at does'
      cases does'
      exact ⟨rfl, rfl⟩

theorem exists_failsIn_of_step_error {e' : RunError}
    (h : step options client phase s before = (.error e', after)) :
    ∃ env e, FailsIn options client phase s before env e := by
  rcases henv : stepEnvironment options phase s before with ⟨e | env, ready⟩
  · exact ⟨_, e, .unbuilt henv⟩
  · rcases hdispatch : dispatch options client phase s env ready with ⟨e | message, done⟩
    · exact ⟨env, e, .undone henv hdispatch⟩
    · rw [step_of_dispatch_ok henv hdispatch, report_run] at h
      cases h

/-- A step that completes is reported as completed. -/
theorem steps_of_step_ok (h : step options client phase s before = (.ok (), after)) :
    ∃ r, after.steps = before.steps ++ [r] ∧ r.status = .completed := by
  obtain ⟨calls, r, hadvances, hran⟩ := ran_step options client phase s before
  rw [h] at hadvances hran
  exact ⟨r, hadvances.steps, hran.result.elim And.right fun ⟨_, he, _⟩ => nomatch he⟩

/-! ### Steps one after the other -/

/-- From a run on, steps come one after the other, and a step of them begins in another run: those
before it complete. -/
inductive GetsTo (options : Options) (client : Client) (phase : Phase) (s : Step) (before : Run) :
    List Step → Run → Prop
  | now {behind : List Step} : GetsTo options client phase s before (s :: behind) before
  | later {first : Step} {behind : List Step} {run run' : Run}
      (completes : step options client phase first run = (.ok (), run'))
      (next : GetsTo options client phase s before behind run') :
      GetsTo options client phase s before (first :: behind) run

theorem forM_of_completes {first : Step}
    (completes : step options client phase first run = (.ok (), run')) :
    (first :: steps).forM (step options client phase) run =
      steps.forM (step options client phase) run' :=
  bind_ok completes _

theorem forM_of_fails {first : Step}
    (fails : step options client phase first run = (.error e, run')) :
    (first :: steps).forM (step options client phase) run = (.error e, run') :=
  bind_error fails _

namespace GetsTo

theorem scenario_eq (h : GetsTo options client phase s before steps run) :
    before.scenario = run.scenario := by
  induction h with
  | now => rfl
  | @later first _ run _ completes _ ih =>
    obtain ⟨_, _, hadvances, -⟩ := ran_step options client phase first run
    rw [completes] at hadvances
    exact ih.trans hadvances.scenario

theorem cons_iff {first : Step} (completes : step options client phase first run = (.ok (), run'))
    (fails : FailsIn options client phase s before env e) :
    GetsTo options client phase s before (first :: steps) run ↔
      GetsTo options client phase s before steps run' := by
  constructor
  · intro h
    cases h with
    | now => exact absurd completes fails.not_completes
    | later completes' next =>
      rw [completes] at completes'
      cases completes'
      exact next
  · exact .later completes

/-- The steps stop at one that fails. -/
theorem forM_run (h : GetsTo options client phase s before steps run)
    (fails : step options client phase s before = (.error e, after)) :
    steps.forM (step options client phase) run = (.error e, after) := by
  induction h with
  | now => exact forM_of_fails fails
  | later completes _ ih => exact (forM_of_completes completes).trans ih

end GetsTo

/-- A run with more reports. -/
def reporting (run : Run) (reports : List StepReport) : Run :=
  { run with steps := run.steps ++ reports }

/-- The steps of a scenario run as steps do that come one after the other; behind them those that
are left are skipped. -/
theorem scenarioSteps_run (options : Options) (client : Client) (steps : List Step) (run : Run) :
    ∃ left, scenarioSteps options client steps run =
      ((steps.forM (step options client .scenario) run).1,
        (steps.forM (step options client .scenario) run).2.reporting
          (skipped .scenario "previous step failed" left)) := by
  induction steps generalizing run with
  | nil => exact ⟨[], by simp [scenarioSteps, List.forM, skipped, reporting]⟩
  | cons first rest ih =>
    rcases hrun : step options client .scenario first run with ⟨e | _, run'⟩
    · refine ⟨rest, ?_⟩
      rw [forM_of_fails hrun, scenarioSteps, attempt_bind_run, hrun]
      dsimp only
      rw [bind_ok (skip_run .scenario "previous step failed" rest), throw_run, reporting]
    · obtain ⟨left, hrest⟩ := ih run'
      refine ⟨left, ?_⟩
      rw [forM_of_completes hrun, scenarioSteps, attempt_bind_run, hrun]
      exact hrest

/-- One of the steps that come one after the other fails with a report. -/
def FailsAmong (options : Options) (client : Client) (phase : Phase) (steps : List Step) (run : Run)
    (r : StepReport) : Prop :=
  ∃ s before env e, GetsTo options client phase s before steps run ∧
    FailsIn options client phase s before env e ∧ r = failure phase s env e

section among

variable {first : Step}

theorem failsAmong_cons_of_completes (completes : step options client phase first run = (.ok (), run')) :
    FailsAmong options client phase (first :: steps) run r ↔
      FailsAmong options client phase steps run' r := by
  constructor
  · rintro ⟨s, before, env, e, gets, fails, rfl⟩
    exact ⟨s, before, env, e, (GetsTo.cons_iff completes fails).1 gets, fails, rfl⟩
  · rintro ⟨s, before, env, e, gets, fails, rfl⟩
    exact ⟨s, before, env, e, .later completes gets, fails, rfl⟩

theorem failsAmong_cons_of_fails (fails : FailsIn options client phase first run env e) :
    FailsAmong options client phase (first :: steps) run r ↔ r = failure phase first env e := by
  constructor
  · rintro ⟨s, before, env', e', gets, fails', rfl⟩
    cases gets with
    | now =>
      obtain ⟨rfl, rfl⟩ := fails.unique fails'
      rfl
    | later completes => exact absurd completes fails.not_completes
  · rintro rfl
    exact ⟨first, run, env, e, .now, fails, rfl⟩

end among

/-- Steps that come one after the other report those of them that fail. -/
theorem mem_forM_iff (hr : r.status = .failed) (steps : List Step) (run : Run) :
    r ∈ (steps.forM (step options client phase) run).2.steps ↔
      r ∈ run.steps ∨ FailsAmong options client phase steps run r := by
  induction steps generalizing run with
  | nil =>
    have hnone : ¬ FailsAmong options client phase [] run r := by
      rintro ⟨_, _, _, _, gets, -⟩
      cases gets
    change r ∈ run.steps ↔ _
    rw [or_iff_left hnone]
  | cons first rest ih =>
    rcases hrun : step options client phase first run with ⟨e' | _, run'⟩
    · obtain ⟨env, e, fails⟩ := exists_failsIn_of_step_error hrun
      obtain ⟨after, hstep, hsteps⟩ := fails.step_run
      rw [hrun] at hstep
      cases hstep
      rw [forM_of_fails hrun, hsteps, List.mem_append, List.mem_singleton,
        failsAmong_cons_of_fails fails]
    · obtain ⟨done, hsteps, hdone⟩ := steps_of_step_ok hrun
      have hne : r ≠ done := by
        rintro rfl
        rw [hdone] at hr
        cases hr
      rw [forM_of_completes hrun, ih, failsAmong_cons_of_completes hrun, hsteps, List.mem_append,
        List.mem_singleton, or_iff_left hne]

theorem mem_reporting_skipped_iff (hr : r.status = .failed) (run : Run) (phase : Phase)
    (message : String) (left : List Step) :
    r ∈ (run.reporting (skipped phase message left)).steps ↔ r ∈ run.steps := by
  have hnone : r ∉ skipped phase message left := by
    intro h
    obtain ⟨s, -, rfl⟩ := List.mem_map.1 h
    cases hr
  rw [reporting, List.mem_append, or_iff_left hnone]

theorem mem_scenarioSteps_iff (hr : r.status = .failed) (steps : List Step) (run : Run) :
    r ∈ (scenarioSteps options client steps run).2.steps ↔
      r ∈ run.steps ∨ FailsAmong options client .scenario steps run r := by
  obtain ⟨left, hrun⟩ := scenarioSteps_run options client steps run
  rw [hrun, mem_reporting_skipped_iff hr, mem_forM_iff hr]

/-! ### The phases of a run -/

/-- Creates the container of the scope, if it needs one. -/
def contain (client : Client) : Runs Unit := do
  let scope := (← get).scope
  if scope.kind.needsContainer then createContainer client scope.environment

theorem provisionOnce_run (options : Options) (client : Client) (run : Run) :
    provisionOnce options client run = (do
      contain client
      run.scope.prepareSteps.forM (step options client .prepare)) run := by
  cases hkind : run.scope.kind.needsContainer with
  | true =>
    rw [provisionOnce_of_container hkind]
    simp only [contain, bind_assoc, get_bind_run, hkind, ↓reduceIte]
  | false =>
    rw [provisionOnce_of_no_container hkind]
    simp only [contain, bind_assoc, get_bind_run, hkind]
    rfl

variable {scenario : Scenario}

/-- The phases that a run of a scenario comes to once the client is ready for it, the steps of each,
and the run that each begins in. -/
inductive Begins (options : Options) (client : Client) (scenario : Scenario) (run : Run) :
    Phase → List Step → Run → Prop
  | prepare {created : Run} (unsettled : run.scope.status.isSettled = false)
      (creates : contain client (run.withStatus .provisioning) = (.ok (), created)) :
      Begins options client scenario run .prepare run.scope.prepareSteps created
  | scenario {provisioned : Run}
      (provisions : provision options client run = (.ok (), provisioned)) :
      Begins options client scenario run .scenario scenario.steps provisioned
  | cleanup {result : Except RunError Unit} {done : Run} (enabled : options.skipCleanup = false)
      (ends : body options client scenario run = (result, done)) :
      Begins options client scenario run .cleanup done.scope.cleanupSteps done

/-- A step of a phase fails with a report. -/
def Fails (options : Options) (client : Client) (scenario : Scenario) (run : Run) (phase : Phase)
    (r : StepReport) : Prop :=
  ∃ steps start, Begins options client scenario run phase steps start ∧
    FailsAmong options client phase steps start r

theorem steps_contain (client : Client) (run : Run) : (contain client run).2.steps = run.steps := by
  rw [contain, get_bind_run]
  split
  · obtain ⟨calls, hadvances, -⟩ := calls_createContainer client run.scope.environment run
    simpa using hadvances.steps
  · rfl

theorem mem_provisionOnce_iff (hr : r.status = .failed) (run : Run) :
    r ∈ (provisionOnce options client run).2.steps ↔
      r ∈ run.steps ∨ ∃ created, contain client run = (.ok (), created) ∧
        FailsAmong options client .prepare run.scope.prepareSteps created r := by
  have hsteps := steps_contain client run
  rw [provisionOnce_run]
  rcases hrun : contain client run with ⟨e | _, created⟩
  · rw [hrun] at hsteps
    rw [bind_error hrun, ← hsteps]
    exact ⟨.inl, fun h => h.resolve_right fun ⟨_, hcreated, _⟩ => nomatch hcreated⟩
  · rw [hrun] at hsteps
    rw [bind_ok hrun, mem_forM_iff hr, ← hsteps]
    refine or_congr_right ⟨fun h => ⟨created, rfl, h⟩, ?_⟩
    rintro ⟨_, hcreated, h⟩
    cases hcreated
    exact h

theorem fails_prepare_iff (unsettled : run.scope.status.isSettled = false) :
    Fails options client scenario run .prepare r ↔
      ∃ created, contain client (run.withStatus .provisioning) = (.ok (), created) ∧
        FailsAmong options client .prepare run.scope.prepareSteps created r := by
  constructor
  · rintro ⟨_, _, begins, h⟩
    cases begins with
    | prepare _ creates => exact ⟨_, creates, h⟩
  · rintro ⟨created, creates, h⟩
    exact ⟨_, _, .prepare unsettled creates, h⟩

theorem mem_provision_iff (hr : r.status = .failed) (options : Options) (client : Client)
    (scenario : Scenario) (run : Run) :
    r ∈ (provision options client run).2.steps ↔
      r ∈ run.steps ∨ Fails options client scenario run .prepare r := by
  cases hsettled : run.scope.status.isSettled with
  | true =>
    have hnone : ¬ Fails options client scenario run .prepare r := by
      rintro ⟨_, _, begins, -⟩
      cases begins with
      | prepare unsettled =>
        rw [hsettled] at unsettled
        cases unsettled
    have hrun : (provision options client run).2 = run := by
      cases hstatus : run.scope.status with
      | provisioned => rw [provision_of_provisioned hstatus]
      | failed message => rw [provision_of_failed hstatus]
      | unprovisioned => rw [hstatus] at hsettled; cases hsettled
      | provisioning => rw [hstatus] at hsettled; cases hsettled
    rw [hrun, or_iff_left hnone]
  | false =>
    -- What provisioning comes to is recorded in the status and nowhere else.
    have hsteps : (provision options client run).2.steps =
        (provisionOnce options client (run.withStatus .provisioning)).2.steps := by
      rcases hrun : provisionOnce options client (run.withStatus .provisioning) with ⟨e | _, run'⟩
      · rw [provision_of_once_error hsettled hrun]
        rfl
      · rw [provision_of_once_ok hsettled hrun]
        rfl
    rw [hsteps, mem_provisionOnce_iff hr, fails_prepare_iff hsettled]
    rfl

theorem fails_scenario_iff :
    Fails options client scenario run .scenario r ↔
      ∃ provisioned, provision options client run = (.ok (), provisioned) ∧
        FailsAmong options client .scenario scenario.steps provisioned r := by
  constructor
  · rintro ⟨_, _, begins, h⟩
    cases begins with
    | scenario provisions => exact ⟨_, provisions, h⟩
  · rintro ⟨provisioned, provisions, h⟩
    exact ⟨_, _, .scenario provisions, h⟩

theorem body_of_provision_ok (h : provision options client run = (.ok (), run')) :
    body options client scenario run = scenarioSteps options client scenario.steps run' := by
  rw [body, attempt_bind_run, h]

theorem mem_body_iff (hr : r.status = .failed) (options : Options) (client : Client)
    (scenario : Scenario) (run : Run) :
    r ∈ (body options client scenario run).2.steps ↔
      r ∈ run.steps ∨ Fails options client scenario run .prepare r ∨
        Fails options client scenario run .scenario r := by
  have hprovision := mem_provision_iff hr options client scenario run
  rw [← or_assoc, ← hprovision, fails_scenario_iff]
  rcases hrun : provision options client run with ⟨e | _, provisioned⟩
  · rw [body_of_provision_error hrun]
    change r ∈ (provisioned.reporting _).steps ↔ _
    rw [mem_reporting_skipped_iff hr, or_iff_left]
    rintro ⟨_, hok, -⟩
    cases hok
  · rw [body_of_provision_ok hrun, mem_scenarioSteps_iff hr]
    refine or_congr_right ⟨fun h => ⟨provisioned, rfl, h⟩, ?_⟩
    rintro ⟨_, hok, h⟩
    cases hok
    exact h

theorem fails_cleanup_iff {result : Except RunError Unit} {done : Run}
    (ends : body options client scenario run = (result, done)) :
    Fails options client scenario run .cleanup r ↔
      options.skipCleanup = false ∧
        FailsAmong options client .cleanup done.scope.cleanupSteps done r := by
  constructor
  · rintro ⟨_, _, begins, h⟩
    cases begins with
    | cleanup enabled ends' =>
      rw [ends] at ends'
      cases ends'
      exact ⟨enabled, h⟩
  · rintro ⟨enabled, h⟩
    exact ⟨_, _, .cleanup enabled ends, h⟩

theorem mem_cleanup_iff (hr : r.status = .failed) (run : Run) :
    r ∈ (cleanup options client run).2.steps ↔
      r ∈ run.steps ∨ FailsAmong options client .cleanup run.scope.cleanupSteps run r := by
  rw [← mem_forM_iff hr]
  rcases hrun : run.scope.cleanupSteps.forM (step options client .cleanup) run with ⟨e | _, run'⟩
  · rw [cleanup_of_steps_error hrun]
  · rw [cleanup_of_steps_ok hrun]
    split
    · obtain ⟨calls, hadvances, -⟩ := calls_deleteContainer client run'.scope.environment run'
      rw [hadvances.steps, List.append_nil]
    · rfl

theorem mem_finish_iff (hr : r.status = .failed) {result : Except RunError Unit} {done : Run}
    (ends : body options client scenario run = (result, done)) :
    r ∈ (finish options client done).2.steps ↔
      r ∈ done.steps ∨ Fails options client scenario run .cleanup r := by
  rw [fails_cleanup_iff ends]
  cases hskip : options.skipCleanup with
  | true =>
    simp only [finish, hskip, ↓reduceIte, get_bind_run, skip_run]
    change r ∈ (done.reporting _).steps ↔ _
    rw [mem_reporting_skipped_iff hr]
    simp
  | false =>
    simp only [finish, hskip, Bool.false_eq_true, ↓reduceIte, true_and]
    exact mem_cleanup_iff hr done

/-- **A run reports the steps of its phases that fail, and no others as failed.** -/
theorem mem_perform_iff (hr : r.status = .failed) (options : Options)
    (ready : client.answer run.trace (.prepare scenario (run.environment .scenario)) = .ok ()) :
    r ∈ (perform options client scenario run).2.steps ↔
      r ∈ run.steps ∨ ∃ phase, Fails options client scenario
        (run.exchanged (run.readiness scenario (.ok ()))) phase r := by
  have hbody := mem_body_iff hr options client scenario
    (run.exchanged (run.readiness scenario (.ok ())))
  rw [perform_of_accepted options ready rfl]
  rcases ends : body options client scenario (run.exchanged (run.readiness scenario (.ok ())))
    with ⟨result, done⟩
  rw [ends] at hbody
  rw [mem_finish_iff hr ends, hbody, or_assoc]
  refine or_congr_right ⟨?_, ?_⟩
  · rintro ((h | h) | h)
    · exact ⟨_, h⟩
    · exact ⟨_, h⟩
    · exact ⟨_, h⟩
  · rintro ⟨phase, h⟩
    cases phase with
    | prepare => exact .inl (.inl h)
    | scenario => exact .inl (.inr h)
    | cleanup => exact .inr h

/-! ### What a run comes to -/

theorem Begins.scenario_eq {start : Run} (h : Begins options client scenario run phase steps start) :
    start.scenario = run.scenario := by
  cases h with
  | prepare _ creates =>
    rw [contain, get_bind_run] at creates
    split at creates
    · obtain ⟨calls, hadvances, -⟩ := calls_createContainer client
        (run.withStatus .provisioning).scope.environment (run.withStatus .provisioning)
      rw [creates] at hadvances
      exact hadvances.scenario
    · cases creates
      rfl
  | scenario provisions =>
    obtain ⟨_, _, _, hadvances, -⟩ := provisioning_provision options client run
    rw [provisions] at hadvances
    exact hadvances.scenario
  | cleanup _ ends =>
    obtain ⟨_, _, _, _, _, _, hadvances, -⟩ := working_body options client scenario run
    rw [ends] at hadvances
    exact hadvances.scenario

theorem exists_settle_of_body (name scenario step : String) (e : RunError)
    (cleanup : Except RunError Unit) :
    ∃ failure, settle name (.error (.step scenario step e)) cleanup = .error failure ∧
      .step scenario step e ∈ failure.parts := by
  cases cleanup with
  | ok _ => exact ⟨_, rfl, List.mem_singleton_self _⟩
  | error cleanup => exact ⟨_, rfl, List.mem_cons_self⟩

theorem exists_settle_of_cleanup (name scenario step : String) (e : RunError)
    (body : Except RunError Unit) :
    ∃ failure, settle name body (.error (.step scenario step e)) = .error failure ∧
      .step scenario step e ∈ failure.parts := by
  cases body with
  | ok _ => exact ⟨_, rfl, List.mem_singleton_self _⟩
  | error body => exact ⟨_, rfl, List.mem_cons_of_mem _ (List.mem_singleton_self _)⟩

/-- The error that ends a phase is that of the step that fails in it. -/
theorem Begins.fails_run {start : Run}
    (begins : Begins options client scenario run phase steps start)
    (gets : GetsTo options client phase s before steps start)
    (fails : FailsIn options client phase s before env e) :
    (body options client scenario run).1 = .error (.step run.scenario s.name e) ∨
      (finish options client (body options client scenario run).2).1 =
        .error (.step run.scenario s.name e) := by
  obtain ⟨after, hstep, -⟩ := fails.step_run
  rw [gets.scenario_eq, begins.scenario_eq] at hstep
  have hsteps := gets.forM_run hstep
  cases begins with
  | prepare unsettled creates =>
    have honce : provisionOnce options client (run.withStatus .provisioning) =
        (.error (.step run.scenario s.name e), after) := by
      rw [provisionOnce_run, bind_ok creates]
      exact hsteps
    rw [body_of_provision_error (provision_of_once_error unsettled honce)]
    exact .inl rfl
  | scenario provisions =>
    obtain ⟨left, hrun⟩ := scenarioSteps_run options client scenario.steps start
    rw [body_of_provision_ok provisions, hrun, hsteps]
    exact .inl rfl
  | cleanup enabled ends =>
    simp only [finish, enabled, Bool.false_eq_true, ↓reduceIte, ends]
    rw [cleanup_of_steps_error hsteps]
    exact .inr rfl

/-- **A run in which a step fails says why it failed.** -/
theorem Begins.exists_failure {start : Run}
    (ready : client.answer run.trace (.prepare scenario (run.environment .scenario)) = .ok ())
    (begins : Begins options client scenario (run.exchanged (run.readiness scenario (.ok ()))) phase
      steps start)
    (gets : GetsTo options client phase s before steps start)
    (fails : FailsIn options client phase s before env e) :
    ∃ failure, (perform options client scenario run).1 = .error failure ∧
      .step run.scenario s.name e ∈ failure.parts := by
  rw [perform_of_accepted options ready rfl]
  rcases begins.fails_run gets fails with hbody | hcleanup
  · rw [hbody]
    exact exists_settle_of_body _ _ _ _ _
  · rw [hcleanup]
    exact exists_settle_of_cleanup _ _ _ _ _

end Run

end Rehearsal
