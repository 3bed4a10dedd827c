import Rehearsal.Proofs.Run.Report
import Rehearsal.Proofs.Session.Container
import Rehearsal.Proofs.Walk

/-!
# What a session reports of a run

Once the scope of a scenario is open, its environment is built and the client is ready, a run makes
the calls of one phase behind those of the phase before, and reports on every step of the scenario
in order: all are skipped if the scope could not be provisioned, and otherwise some complete, at
most one fails, and those behind it are skipped. Whatever happens, the report has an error if and
only if the run fails, and it does so if any step failed (`Session.runScenario_unfolds`).
-/

namespace Rehearsal

/-- The reports on the steps of a phase. -/
def reportsIn (phase : Phase) (reports : List StepReport) : List StepReport :=
  reports.filter fun r => r.phase == phase

section phases

variable {phase other : Phase} {reports reports' : List StepReport}

theorem reportsIn_append :
    reportsIn phase (reports ++ reports') = reportsIn phase reports ++ reportsIn phase reports' :=
  List.filter_append reports reports'

theorem reportsIn_eq_self (h : ∀ r ∈ reports, r.phase = phase) : reportsIn phase reports = reports :=
  List.filter_eq_self.2 fun r hr => by simp [h r hr]

theorem reportsIn_eq_nil (h : ∀ r ∈ reports, r.phase = other) (hne : other ≠ phase) :
    reportsIn phase reports = [] :=
  List.filter_eq_nil_iff.2 fun r hr => by simp [h r hr, hne]

end phases

namespace Session

variable {session opened : Session} {client : Client} {definition : Definition}
  {scenario : Scenario} {caller : Environment} {scope : RuntimeScope} {run : Run}

/-- A run that starts and for which the client gets ready: what it leaves of its parts in the
session, and what it reports of them. -/
structure Performs (session : Session) (run : Run) (result : Result)
    {client : Client} {options : Options} {scenario : Scenario}
    (parts : Run.Parts options client scenario run) : Prop where
  trace : result.session.trace = session.trace ++
    run.readiness scenario (.ok ()) :: (parts.provisioning ++ parts.working ++ parts.cleaning)
  scope : result.session.scopes.get? run.scope.name = some parts.last.scope
  steps : result.report.steps = parts.preparations ++ parts.entries ++ parts.cleanups

theorem performs_runScenario
    (opens : session.openScope definition scenario caller = (.ok scope, opened))
    (starts : opened.start scenario scope = .ok run)
    (ready : client.answer run.trace (.prepare scenario (run.environment .scenario)) = .ok ()) :
    ∃ parts : Run.Parts session.options client scenario run,
      session.Performs run (session.runScenario client definition scenario caller) parts := by
  have hopens := opens_openScope opens
  obtain ⟨-, -, -, htrace, hsteps⟩ := start_eq_ok starts
  obtain ⟨parts⟩ := Run.exists_parts session.options ready
  refine ⟨parts, ?_⟩
  rw [runScenario, opens]
  dsimp only
  rw [starts, hopens.options]
  dsimp only
  rw [parts.performs]
  have hname : parts.last.scope.name = run.scope.name := by rw [parts.advances.scope]; rfl
  refine ⟨?_, ?_, ?_⟩
  · change parts.last.trace = _
    rw [parts.advances.trace, ← hopens.trace, ← htrace]
    rfl
  · simp [Session.resume, Dict.get?_insert, hname]
  · change parts.last.steps = _
    rw [parts.advances.steps]
    change run.steps ++ _ = _
    rw [hsteps, List.nil_append]

/-- The reports on the steps of a phase are those of the part that belongs to it. -/
theorem Performs.reportsIn {result : Result} {options : Options}
    {parts : Run.Parts options client scenario run} (h : session.Performs run result parts) :
    reportsIn .scenario result.report.steps = parts.entries ∧
      reportsIn .cleanup result.report.steps = parts.cleanups := by
  have hprepare : ∀ r ∈ parts.preparations, r.phase = .prepare := fun r hr =>
    parts.provisions.phase_eq rfl hr
  have hscenario : ∀ r ∈ parts.entries, r.phase = .scenario := fun r hr =>
    parts.works.phase_eq rfl hr
  have hcleanup : ∀ r ∈ parts.cleanups, r.phase = .cleanup := fun r hr =>
    parts.cleans.phase_eq rfl hr
  rw [h.steps]
  constructor
  · rw [reportsIn_append, reportsIn_append, reportsIn_eq_nil hprepare (by decide),
      reportsIn_eq_self hscenario, reportsIn_eq_nil hcleanup (by decide), List.nil_append,
      List.append_nil]
  · rw [reportsIn_append, reportsIn_append, reportsIn_eq_nil hprepare (by decide),
      reportsIn_eq_nil hscenario (by decide), reportsIn_eq_self hcleanup, List.nil_append,
      List.nil_append]

/-- A report has an error if and only if its run fails. -/
theorem error_runScenario (session : Session) (client : Client) (definition : Definition)
    (scenario : Scenario) (caller : Environment) :
    (session.runScenario client definition scenario caller).outcome.isOk = false ↔
      (session.runScenario client definition scenario caller).report.error.isSome = true := by
  rw [runScenario]
  rcases session.openScope definition scenario caller with ⟨e | scope, opened⟩
  · exact ⟨fun _ => rfl, fun _ => rfl⟩
  · dsimp only
    cases opened.start scenario scope with
    | error e => exact ⟨fun _ => rfl, fun _ => rfl⟩
    | ok run =>
      dsimp only
      rcases Run.perform opened.options client scenario run with ⟨e | _, run'⟩
      · exact ⟨fun _ => rfl, fun _ => rfl⟩
      · constructor <;> intro h <;> cases h

/-- A run in which a step failed fails. -/
theorem isOk_runScenario_of_failed {r : StepReport}
    (hr : r ∈ (session.runScenario client definition scenario caller).report.steps)
    (hstatus : r.status = .failed) :
    (session.runScenario client definition scenario caller).outcome.isOk = false := by
  have hruns := session.runs_runScenario client definition scenario caller
  generalize session.runScenario client definition scenario caller = result at hruns hr ⊢
  cases hruns with
  | unopened => cases hr
  | unstarted => cases hr
  | @performed opened scope run run' outcome opens starts performs error =>
    obtain ⟨-, -, -, -, hsteps⟩ := start_eq_ok starts
    obtain ⟨calls, reports, status, hadvances, hcourse⟩ :=
      Run.course_perform opened.options client scenario run
    rw [performs] at hadvances hcourse
    rw [hadvances.steps] at hr
    change r ∈ run.steps ++ reports at hr
    rw [hsteps] at hr
    exact hcourse.isOk_of_failed hr hstatus

/-- What a run of a scenario does and reports: the calls of its phases, and how many steps of the
scenario completed, failed and were skipped. -/
structure Unfolds (session : Session) (scenario : Scenario) (run : Run) (result : Result)
    (provisioning working cleaning : List Exchange) (completed failed dropped : Nat) : Prop where
  trace : result.session.trace = session.trace ++
    run.readiness scenario (.ok ()) :: (provisioning ++ working ++ cleaning)
  of_provisioning : ∀ x ∈ provisioning, x.phase = .prepare ∧
    (x.call.isCreation = true ∨ ∃ s ∈ run.scope.prepareSteps, x.call.step? = some s)
  of_working : ∀ x ∈ working, x.phase = .scenario ∧ ∃ s ∈ scenario.steps, x.call.step? = some s
  of_cleaning : ∀ x ∈ cleaning, x.phase = .cleanup ∧
    (x.call.isDeletion = true ∨ ∃ s ∈ run.scope.cleanupSteps, x.call.step? = some s)
  tally : Tally scenario.steps (reportsIn .scenario result.report.steps) working completed failed
    dropped
  failed_le : failed ≤ 1
  status : ∃ scope, result.session.scopes.get? run.scope.name = some scope ∧
    ((∃ message, scope.status = .failed message) ∧ completed = 0 ∧ failed = 0 ∨
      scope.status = .provisioned ∧ (failed = 0 → dropped = 0))
  skipped : ∀ r ∈ result.report.steps, r.status = .skipped →
    r.phase = .scenario ∨ r.phase = .cleanup ∧ cleaning = []

/-- **A run reports on every step what became of it.** The report has an error if and only if the
run fails, as it does if a step failed. Once the client is ready for the scenario, the calls and
the reports follow one another as `Unfolds` says. -/
theorem runScenario_unfolds (session : Session) (client : Client) (definition : Definition)
    (scenario : Scenario) (caller : Environment) :
    ((session.runScenario client definition scenario caller).outcome.isOk = false ↔
        (session.runScenario client definition scenario caller).report.error.isSome = true) ∧
      (∀ r ∈ (session.runScenario client definition scenario caller).report.steps,
        r.status = .failed →
        (session.runScenario client definition scenario caller).report.error.isSome = true) ∧
      ∀ (scope : RuntimeScope) (opened : Session) (run : Run),
        session.openScope definition scenario caller = (.ok scope, opened) →
        opened.start scenario scope = .ok run →
        client.answer run.trace (.prepare scenario (run.environment .scenario)) = .ok () →
        ∃ provisioning working cleaning completed failed dropped,
          Unfolds session scenario run (session.runScenario client definition scenario caller)
            provisioning working cleaning completed failed dropped := by
  refine ⟨session.error_runScenario client definition scenario caller, fun r hr hstatus => ?_, ?_⟩
  · rw [← error_runScenario]
    exact isOk_runScenario_of_failed hr hstatus
  · intro scope opened run opens starts ready
    obtain ⟨parts, h⟩ := performs_runScenario opens starts ready
    obtain ⟨completed, failed, dropped, htally, hle, hdropped, hbarred, -⟩ := parts.works.tally
    refine ⟨parts.provisioning, parts.working, parts.cleaning, completed, failed, dropped, h.trace,
      fun x hx => ?_, fun x hx => ?_, fun x hx => ?_, h.reportsIn.1 ▸ htally, hle,
      ⟨_, h.scope, ?_⟩, fun r hr hskipped => ?_⟩
    · exact (parts.provisions.of_mem hx).imp_left (congrArg Stage.phase)
    · exact (parts.works.of_mem hx).imp_left (congrArg Stage.phase)
    · exact (parts.cleans.of_mem hx).imp_left (congrArg Stage.phase)
    · have hstatus : parts.last.scope.status = parts.status := by rw [parts.advances.scope]; rfl
      rw [hstatus]
      rcases parts.provisions.status_cases with ⟨hok, hready⟩ | ⟨herror, hfailed⟩
      · exact .inr ⟨hready, hdropped hok⟩
      · exact .inl ⟨hfailed, hbarred herror⟩
    · rw [h.steps] at hr
      rcases List.mem_append.1 hr with hr | hr
      · rcases List.mem_append.1 hr with hr | hr
        · exact absurd hskipped (parts.provisions.status_ne hr).1
        · exact .inl (parts.works.phase_eq rfl hr)
      · exact .inr ⟨parts.cleans.phase_eq rfl hr, (parts.cleans.status_ne hr).1 hskipped⟩

/-! ### A run that is interrupted -/

/-- A client that rejects the steps of a name. -/
def rejecting (name : String) : Client where
  answer _history
    | .prepare .. | .createContainer .. | .deleteContainer .. => .ok ()
    | .send step .. => if step.header.name = name then .error "no" else .ok { status := 200 }
    | .deploy step .. => if step.header.name = name then .error "no" else .ok ∅

/-- A step of a name that reads something. -/
def readingAs (name : String) : Step := reading.modifyHeader fun header => { header with name }

/-- A definition with steps to prepare and to clean up. -/
def staged : Definition :=
  { bare with prepareSteps := [readingAs "p"], cleanupSteps := [readingAs "c", readingAs "d"] }

/-- A scenario of three steps. -/
def threefold : Scenario :=
  { position := 0, name := "s", steps := [readingAs "x", readingAs "y", readingAs "z"] }

/-- A session in which nothing has run. -/
def fresh : Session := { suffixes := ⟨[], 0⟩ }

/-- The scenario can be started. -/
theorem exists_start_threefold : ∃ scope opened run,
    fresh.openScope staged threefold supplied = (.ok scope, opened) ∧
      opened.start threefold scope = .ok run := by
  have hstarts : okAnd (fresh.openScope staged threefold supplied) (fun scope opened =>
      (opened.start threefold scope).toOption.any fun _ => true) = true := by
    decide +kernel
  obtain ⟨scope, opened, opens, hstart⟩ := exists_of_okAnd hstarts
  obtain ⟨run, starts, -⟩ := exists_ok_of_any hstart
  exact ⟨scope, opened, run, opens, starts⟩

/-- The second of three steps is rejected. -/
theorem runScenario_unfolds_threefold : ∃ run provisioning working cleaning completed failed dropped,
    Unfolds fresh threefold run
      (fresh.runScenario (rejecting "y") staged threefold supplied) provisioning working cleaning
      completed failed dropped := by
  obtain ⟨scope, opened, run, opens, starts⟩ := exists_start_threefold
  obtain ⟨provisioning, working, cleaning, completed, failed, dropped, hunfolds⟩ :=
    (fresh.runScenario_unfolds (rejecting "y") staged threefold supplied).2.2 scope opened run opens
      starts rfl
  exact ⟨run, provisioning, working, cleaning, completed, failed, dropped, hunfolds⟩

end Session

end Rehearsal
