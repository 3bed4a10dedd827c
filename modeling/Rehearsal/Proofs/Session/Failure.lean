import Rehearsal.Proofs.Run.Blame
import Rehearsal.Proofs.Session.Disclosure

/-!
# What the error of a run says

A run fails before its body begins, or its body fails, or its cleanup, or both (`Session.Ends`), and
steps fail in each of its phases (`Session.StepFailure`). The error that a run comes to tells these
cases apart (`Session.explains_runScenario`): it names the scenario, it is of two errors if and only
if both parts fail, and it is about a step of the cleanup only if nothing else fails.
-/

namespace Rehearsal

namespace Session

variable {session : Session} {client : Client} {definition : Definition} {scenario : Scenario}
  {caller : Environment} {main cleanup main' cleanup' : Except RunError Unit} {e : RunError}

/-- The scope of a scenario can be opened, its environment can be built, and the client is ready. -/
def GetsReady (session : Session) (client : Client) (definition : Definition) (scenario : Scenario)
    (caller : Environment) : Prop :=
  ∃ scope opened run, session.openScope definition scenario caller = (.ok scope, opened) ∧
    opened.start scenario scope = .ok run ∧
    client.answer run.trace (.prepare scenario (run.environment .scenario)) = .ok ()

/-- What the body and the cleanup of a run come to. -/
inductive Ends (session : Session) (client : Client) (definition : Definition) (scenario : Scenario)
    (caller : Environment) : (main cleanup : Except RunError Unit) → Prop
  | intro {scope : RuntimeScope} {opened : Session} {run done last : Run}
      {main cleanup : Except RunError Unit}
      (opens : session.openScope definition scenario caller = (.ok scope, opened))
      (starts : opened.start scenario scope = .ok run)
      (ready : client.answer run.trace (.prepare scenario (run.environment .scenario)) = .ok ())
      (works : Run.body session.options client scenario (run.exchanged (run.readiness scenario (.ok ())))
        = (main, done))
      (cleans : Run.finish session.options client done = (cleanup, last)) :
      Ends session client definition scenario caller main cleanup

theorem GetsReady.exists_ends (h : session.GetsReady client definition scenario caller) :
    ∃ main cleanup, session.Ends client definition scenario caller main cleanup := by
  obtain ⟨scope, opened, run, opens, starts, ready⟩ := h
  exact ⟨_, _, .intro opens starts ready rfl rfl⟩

theorem StepFailure.getsReady (f : StepFailure session client definition scenario caller) :
    session.GetsReady client definition scenario caller :=
  ⟨f.scope, f.opened, f.run, f.opens, f.starts, f.ready⟩

/-- A run for which things do not get that far fails outside of its steps. -/
theorem exists_outcome_of_not_getsReady (h : ¬ session.GetsReady client definition scenario caller) :
    ∃ cause, (session.runScenario client definition scenario caller).outcome =
      .error (.scenario scenario.name cause) := by
  have hruns := session.runs_runScenario client definition scenario caller
  generalize session.runScenario client definition scenario caller = result at hruns
  cases hruns with
  | unopened => exact ⟨_, rfl⟩
  | unstarted => exact ⟨_, rfl⟩
  | @performed opened scope run last outcome opens starts performs error =>
    cases hanswer : client.answer run.trace (.prepare scenario (run.environment .scenario)) with
    | error reason =>
      rw [Run.perform_of_rejected hanswer] at performs
      cases performs
      exact ⟨_, rfl⟩
    | ok _ => exact absurd ⟨scope, opened, run, opens, starts, hanswer⟩ h

namespace Ends

theorem getsReady (h : session.Ends client definition scenario caller main cleanup) :
    session.GetsReady client definition scenario caller := by
  cases h with
  | intro opens starts ready => exact ⟨_, _, _, opens, starts, ready⟩

theorem unique (h : session.Ends client definition scenario caller main cleanup)
    (h' : session.Ends client definition scenario caller main' cleanup') :
    main' = main ∧ cleanup' = cleanup := by
  cases h with
  | intro opens starts ready works cleans =>
    cases h' with
    | intro opens' starts' ready' works' cleans' =>
      rw [opens] at opens'
      cases opens'
      rw [starts] at starts'
      cases starts'
      rw [works] at works'
      cases works'
      rw [cleans] at cleans'
      cases cleans'
      exact ⟨rfl, rfl⟩

/-- The run comes to what its parts come to, and it reports what they report. -/
theorem settles (h : session.Ends client definition scenario caller main cleanup) :
    (session.runScenario client definition scenario caller).outcome =
        Run.settle scenario.name main cleanup ∧
      ∃ reports reports', (session.runScenario client definition scenario caller).report.steps =
          reports ++ reports' ∧
        Blames scenario.name reports main ∧ Blames scenario.name reports' cleanup ∧
        (∀ r ∈ reports, r.phase ≠ .cleanup) ∧ ∀ r ∈ reports', r.phase = .cleanup := by
  cases h with
  | @intro scope opened run done last _ _ opens starts ready works cleans =>
    obtain ⟨houtcome, hsteps, -⟩ := runScenario_of_perform client opens starts
    obtain ⟨hname, -, -, -, hnone⟩ := start_eq_ok starts
    obtain ⟨reports, hbody, hmain, hbefore⟩ := Run.blames_body session.options client scenario
      (run.exchanged (run.readiness scenario (.ok ())))
    obtain ⟨reports', hfinish, hcleanup, hduring⟩ := Run.blames_finish session.options client done
    have hdone : done.scenario = run.scenario := by
      obtain ⟨_, _, _, _, _, _, hadvances, -⟩ := Run.working_body session.options client scenario
        (run.exchanged (run.readiness scenario (.ok ())))
      rw [works] at hadvances
      exact hadvances.scenario
    rw [Run.perform_of_accepted session.options ready rfl, works, cleans] at houtcome hsteps
    rw [works] at hbody hmain
    rw [cleans] at hfinish hcleanup
    rw [hdone, hname] at hcleanup
    change Blames run.scenario reports _ at hmain
    rw [hname] at hmain
    refine ⟨houtcome, reports, reports', ?_, hmain, hcleanup, hbefore, hduring⟩
    rw [hsteps, hfinish, hbody]
    change run.steps ++ reports ++ reports' = _
    rw [hnone, List.nil_append]

end Ends

/-- What the error of a run says about it. -/
structure Explains (session : Session) (client : Client) (definition : Definition)
    (scenario : Scenario) (caller : Environment) (e : RunError) : Prop where
  scenarioName? : e.scenarioName? = some scenario.name
  eq_cleanupAfterFailure_iff : ∀ failure failure',
    e = .cleanupAfterFailure scenario.name failure failure' ↔
      session.Ends client definition scenario caller (.error failure) (.error failure')
  stepName?_iff : ∀ name, e.stepName? = some name ↔
    ∃ f : StepFailure session client definition scenario caller, f.step.name = name ∧
      (f.phase = .cleanup → ∃ cleanup, session.Ends client definition scenario caller (.ok ()) cleanup)

/-- An error that arises before the body begins is about no step and of no two parts. -/
theorem explains_of_not_getsReady (h : ¬ session.GetsReady client definition scenario caller)
    (cause : RunError) :
    Explains session client definition scenario caller (.scenario scenario.name cause) where
  scenarioName? := rfl
  eq_cleanupAfterFailure_iff _ _ := iff_of_false nofun fun hends => h hends.getsReady
  stepName?_iff _ := iff_of_false nofun fun ⟨f, _⟩ => h f.getsReady

theorem Ends.explains (h : session.Ends client definition scenario caller main cleanup)
    (herror : Run.settle scenario.name main cleanup = .error e) :
    Explains session client definition scenario caller e := by
  obtain ⟨-, reports, reports', hsteps, hmain, hcleanup, hbefore, hduring⟩ := h.settles
  constructor
  case scenarioName? => exact Run.scenarioName?_settle hmain hcleanup herror
  case eq_cleanupAfterFailure_iff =>
    intro failure failure'
    have hsettle := Run.settle_eq_cleanupAfterFailure_iff hmain hcleanup failure failure'
    rw [herror, Except.error.injEq] at hsettle
    rw [hsettle]
    constructor
    · rintro ⟨rfl, rfl⟩
      exact h
    · intro h'
      exact h'.unique h
  case stepName?_iff =>
    intro name
    rw [Run.stepName?_settle_iff hmain hcleanup hbefore hduring herror, ← hsteps]
    constructor
    · rintro ⟨r, hr, hstatus, rfl, hphase⟩
      obtain ⟨f, rfl⟩ := mem_failed_iff.1 ⟨hr, hstatus⟩
      refine ⟨f, rfl, fun hf => ⟨cleanup, ?_⟩⟩
      have hok := hphase hf
      exact hok ▸ h
    · rintro ⟨f, rfl, hphase⟩
      obtain ⟨hr, hstatus⟩ := mem_failed_iff.2 ⟨f, rfl⟩
      refine ⟨f.report, hr, hstatus, rfl, fun hf => ?_⟩
      obtain ⟨_, hok⟩ := hphase hf
      exact (hok.unique h).1

/-- **The error of a run says which part of it failed.** It names the scenario; it is of a failure
and of a failed cleanup if and only if body and cleanup both fail, and has their errors; and it is
about a step if and only if that step fails in the run, which for a step of the cleanup takes a body
that does not fail. -/
theorem explains_runScenario (h : (session.runScenario client definition scenario caller).outcome =
      .error e) :
    Explains session client definition scenario caller e := by
  by_cases hready : session.GetsReady client definition scenario caller
  · obtain ⟨main, cleanup, hends⟩ := hready.exists_ends
    rw [hends.settles.1] at h
    exact hends.explains h
  · obtain ⟨cause, hcause⟩ := exists_outcome_of_not_getsReady hready
    rw [hcause] at h
    cases h
    exact explains_of_not_getsReady hready cause

/-- A scenario with a step that the cleanup of `staged` has as well. -/
def halting : Scenario :=
  { position := 0, name := "s", steps := [readingAs "x", readingAs "c"] }

/-- That the client rejects this step. -/
def rejected : RunError := .step "s" "c" (.client "REST call" "no")

/-- The step fails in the body and in the cleanup. -/
theorem explains_runScenario_halting :
    (fresh.runScenario (rejecting "c") staged halting supplied).outcome =
        .error (.cleanupAfterFailure "s" rejected rejected) ∧
      Explains fresh (rejecting "c") staged halting supplied
        (.cleanupAfterFailure "s" rejected rejected) := by
  have houtcome : (fresh.runScenario (rejecting "c") staged halting supplied).outcome =
      .error (.cleanupAfterFailure "s" rejected rejected) := by
    decide +kernel
  exact ⟨houtcome, explains_runScenario houtcome⟩

end Session

end Rehearsal
