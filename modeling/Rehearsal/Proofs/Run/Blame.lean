import Rehearsal.Proofs.Run.Provisioning

/-!
# Which step an error is about

An error arises in a phase of a run before it is put into words for the whole run. It is about a
step if and only if the phase reports that the step failed (`Blames`): steps in turn end with the
first that fails, what is skipped is no failure, and whatever fails outside of steps names none.

What the two parts of a run come to is settled then (`Run.settle`). The scenario is named by what
comes out of it (`Run.scenarioName?_settle`), both errors are kept if and only if both parts fail
(`Run.settle_eq_cleanupAfterFailure_iff`), and the step is that of the body unless only the cleanup
fails (`Run.stepName?_settle_iff`).
-/

namespace Rehearsal

namespace RunError

variable {scenario name : String} {e : RunError}

/-- The scenario that an error names in the first place. -/
def scenarioName? : RunError → Option String
  | .step scenario .. | .scenario scenario _ | .cleanupAfterFailure scenario .. => some scenario
  | .variable _ | .request _ | .client .. | .provisioning .. => none

/-- An error as it arises in a phase: it carries a step of the scenario, or nothing yet. -/
def Arises (scenario : String) (e : RunError) : Prop :=
  e.isPlain = true ∨ ∃ step cause, e = .step scenario step cause

theorem stepName?_of_isPlain (h : e.isPlain = true) : e.stepName? = none := by
  cases e <;> first | rfl | cases h

theorem stepName?_inScenario (e : RunError) (name : String) :
    (e.inScenario name).stepName? = e.stepName? := by
  cases e <;> rfl

theorem Arises.scenarioName?_inScenario (h : e.Arises scenario) :
    (e.inScenario scenario).scenarioName? = some scenario := by
  rcases h with h | ⟨step, cause, rfl⟩
  · cases e <;> first | rfl | cases h
  · rfl

/-- A single error does not look like two. -/
theorem Arises.inScenario_ne {failure cleanup : RunError} (h : e.Arises scenario) :
    e.inScenario scenario ≠ .cleanupAfterFailure name failure cleanup := by
  rcases h with h | ⟨step, cause, rfl⟩
  · cases e with
    | step | scenario | cleanupAfterFailure => cases h
    | _ => nofun
  · nofun

end RunError

/-! ### The parts of a run -/

/-- The reports on some steps say what the steps come to: their error arises in a phase of the
scenario, and is about the steps that are reported to have failed. -/
structure Blames (scenario : String) (reports : List StepReport) (result : Except RunError Unit) :
    Prop where
  arises : ∀ e, result = .error e → e.Arises scenario
  names : ∀ name, (∃ e, result = .error e ∧ e.stepName? = some name) ↔
    ∃ r ∈ reports, r.status = .failed ∧ r.name = name

section parts

variable {scenario : String} {stage : Stage} {kind : ScopeKind} {scope : RuntimeScope}
  {steps left : List Step} {calls : List Exchange} {reports reports' : List StepReport}
  {status : ProvisionStatus} {result result' : Except RunError Unit}

namespace Blames

theorem nil : Blames scenario [] (.ok ()) where
  arises _ he := nomatch he
  names _ := iff_of_false (fun ⟨_, he, _⟩ => nomatch he) (fun ⟨_, hr, _⟩ => nomatch hr)

theorem status_ne (h : Blames scenario reports (.ok ())) {r : StepReport} (hr : r ∈ reports) :
    r.status ≠ .failed := by
  intro hstatus
  obtain ⟨_, he, _⟩ := (h.names r.name).2 ⟨r, hr, hstatus, rfl⟩
  cases he

/-- If all steps complete, what fails behind them is about none of them. -/
theorem of_isPlain (h : Blames scenario reports (.ok ()))
    (hplain : ∀ e, result = .error e → e.isPlain = true) : Blames scenario reports result where
  arises e he := .inl (hplain e he)
  names name := by
    refine iff_of_false ?_ ?_
    · rintro ⟨e, he, hname⟩
      rw [RunError.stepName?_of_isPlain (hplain e he)] at hname
      cases hname
    · rintro ⟨r, hr, hstatus, -⟩
      exact h.status_ne hr hstatus

theorem append (h : Blames scenario reports (.ok ())) (h' : Blames scenario reports' result) :
    Blames scenario (reports ++ reports') result where
  arises := h'.arises
  names name := by
    rw [h'.names]
    constructor
    · rintro ⟨r, hr, hfailed⟩
      exact ⟨r, List.mem_append_right _ hr, hfailed⟩
    · rintro ⟨r, hr, hfailed⟩
      rcases List.mem_append.1 hr with hr | hr
      · exact absurd hfailed.1 (h.status_ne hr)
      · exact ⟨r, hr, hfailed⟩

theorem append_skipped (h : Blames scenario reports result) (phase : Phase) (message : String)
    (left : List Step) : Blames scenario (reports ++ skipped phase message left) result where
  arises := h.arises
  names name := by
    rw [h.names]
    constructor
    · rintro ⟨r, hr, hfailed⟩
      exact ⟨r, List.mem_append_left _ hr, hfailed⟩
    · rintro ⟨r, hr, hfailed⟩
      rcases List.mem_append.1 hr with hr | hr
      · exact ⟨r, hr, hfailed⟩
      · obtain ⟨s, -, rfl⟩ := List.mem_map.1 hr
        cases hfailed.1

end Blames

theorem Ran.blames {s : Step} {report : StepReport}
    (h : Ran scenario stage s calls report result) : Blames scenario [report] result := by
  have hname := h.name
  rcases h.result with ⟨rfl, hstatus⟩ | ⟨cause, rfl, hstatus⟩
  · refine ⟨nofun, fun name => iff_of_false (fun ⟨_, he, _⟩ => nomatch he) ?_⟩
    rintro ⟨r, hr, hfailed, -⟩
    rw [List.mem_singleton.1 hr, hstatus] at hfailed
    cases hfailed
  · refine ⟨fun e he => ?_, fun name => ?_⟩
    · cases he
      exact .inr ⟨s.name, cause, rfl⟩
    · constructor
      · rintro ⟨e, he, hstep⟩
        cases he
        cases hstep
        exact ⟨report, List.mem_singleton_self _, hstatus, hname⟩
      · rintro ⟨r, hr, -, rfl⟩
        rw [List.mem_singleton.1 hr, hname]
        exact ⟨_, rfl, rfl⟩

/-- Steps in turn end with the first that fails. -/
theorem InTurn.blames (h : InTurn scenario stage steps calls reports left result) :
    Blames scenario reports result := by
  induction h with
  | done => exact .nil
  | completed first _ ih => exact first.blames.append ih
  | failed first => exact first.blames

theorem Readying.blames (h : Readying scenario stage kind steps calls reports result) :
    Blames scenario reports result := by
  cases h with
  | uncreated _ _ plain => exact Blames.nil.of_isPlain fun _ he => by cases he; exact plain
  | created _ _ inTurn => exact inTurn.blames
  | uncontained _ inTurn => exact inTurn.blames

/-- A failure that is remembered is about no step of this run. -/
theorem Provisioning.blames (h : Provisioning scenario stage scope calls reports status result) :
    Blames scenario reports result := by
  cases h with
  | ready => exact .nil
  | barred => exact Blames.nil.of_isPlain fun _ he => by cases he; rfl
  | succeeded _ readying => exact readying.blames
  | failed _ readying => exact readying.blames

theorem Working.blames (h : Working scenario stage steps result calls reports' result')
    (hprovisioned : Blames scenario reports result) :
    Blames scenario (reports ++ reports') result' := by
  cases h with
  | ran inTurn => exact hprovisioned.append (inTurn.blames.append_skipped _ _ _)
  | barred => exact hprovisioned.append_skipped _ _ _

theorem Cleaning.blames {options : Options}
    (h : Cleaning options scenario stage kind steps calls reports result) :
    Blames scenario reports result := by
  cases h with
  | disabled => exact Blames.nil.append_skipped _ _ _
  | failed _ inTurn => exact inTurn.blames
  | emptied _ inTurn _ _ plain => exact inTurn.blames.of_isPlain plain
  | uncontained _ inTurn => exact inTurn.blames

end parts

namespace Run

variable {options : Options} {client : Client} {name : String} {e : RunError}
  {reports reports' : List StepReport} {main cleanup : Except RunError Unit}

theorem blames_body (options : Options) (client : Client) (scenario : Scenario) (run : Run) :
    ∃ reports, (body options client scenario run).2.steps = run.steps ++ reports ∧
      Blames run.scenario reports (body options client scenario run).1 ∧
      ∀ r ∈ reports, r.phase ≠ .cleanup := by
  obtain ⟨calls, calls', reports, reports', status, result, hadvances, provisioning, working⟩ :=
    working_body options client scenario run
  refine ⟨reports ++ reports', hadvances.steps, working.blames provisioning.blames, fun r hr => ?_⟩
  rcases List.mem_append.1 hr with hr | hr
  · rw [provisioning.phase_eq rfl hr]
    nofun
  · rw [working.phase_eq rfl hr]
    nofun

theorem blames_finish (options : Options) (client : Client) (run : Run) :
    ∃ reports, (finish options client run).2.steps = run.steps ++ reports ∧
      Blames run.scenario reports (finish options client run).1 ∧
      ∀ r ∈ reports, r.phase = .cleanup := by
  obtain ⟨calls, reports, hadvances, cleaning⟩ := cleaning_finish options client run
  exact ⟨reports, hadvances.steps, cleaning.blames, fun r hr => cleaning.phase_eq rfl hr⟩

/-! ### What both parts come to -/

theorem scenarioName?_settle (hmain : Blames name reports main) (hcleanup : Blames name reports' cleanup)
    (h : settle name main cleanup = .error e) : e.scenarioName? = some name := by
  cases main with
  | ok _ =>
    cases cleanup with
    | ok _ => cases h
    | error _ =>
      cases h
      exact (hcleanup.arises _ rfl).scenarioName?_inScenario
  | error _ =>
    cases cleanup with
    | ok _ =>
      cases h
      exact (hmain.arises _ rfl).scenarioName?_inScenario
    | error _ =>
      cases h
      rfl

/-- Two errors are kept if and only if both parts fail, and then as they are. -/
theorem settle_eq_cleanupAfterFailure_iff (hmain : Blames name reports main)
    (hcleanup : Blames name reports' cleanup) (failure failure' : RunError) :
    settle name main cleanup = .error (.cleanupAfterFailure name failure failure') ↔
      main = .error failure ∧ cleanup = .error failure' := by
  cases main with
  | ok _ =>
    refine iff_of_false (fun h => ?_) nofun
    cases cleanup with
    | ok _ => cases h
    | error _ => exact (hcleanup.arises _ rfl).inScenario_ne (Except.error.inj h)
  | error _ =>
    cases cleanup with
    | ok _ =>
      refine iff_of_false (fun h => ?_) nofun
      exact (hmain.arises _ rfl).inScenario_ne (Except.error.inj h)
    | error _ => simp [settle]

/-- The step is that of the body, and that of the cleanup if only the cleanup fails. -/
theorem stepName?_settle (h : settle name main cleanup = .error e) (step : String) :
    e.stepName? = some step ↔
      (∃ failure, main = .error failure ∧ failure.stepName? = some step) ∨
        main = .ok () ∧ ∃ failure, cleanup = .error failure ∧ failure.stepName? = some step := by
  cases main with
  | ok _ =>
    cases cleanup with
    | ok _ => cases h
    | error _ =>
      cases h
      simp [RunError.stepName?_inScenario]
  | error _ =>
    cases cleanup with
    | ok _ =>
      cases h
      simp [RunError.stepName?_inScenario]
    | error _ =>
      cases h
      simp [RunError.stepName?]

/-- So the step is one that is reported to have failed, before the cleanup or in a cleanup that is
all that fails. -/
theorem stepName?_settle_iff (hmain : Blames name reports main)
    (hcleanup : Blames name reports' cleanup) (hbefore : ∀ r ∈ reports, r.phase ≠ .cleanup)
    (hduring : ∀ r ∈ reports', r.phase = .cleanup) (h : settle name main cleanup = .error e)
    (step : String) :
    e.stepName? = some step ↔ ∃ r ∈ reports ++ reports', r.status = .failed ∧ r.name = step ∧
      (r.phase = .cleanup → main = .ok ()) := by
  rw [stepName?_settle h, hmain.names, hcleanup.names]
  constructor
  · rintro (⟨r, hr, hstatus, hname⟩ | ⟨hok, r, hr, hstatus, hname⟩)
    · exact ⟨r, List.mem_append_left _ hr, hstatus, hname, fun hphase => absurd hphase (hbefore r hr)⟩
    · exact ⟨r, List.mem_append_right _ hr, hstatus, hname, fun _ => hok⟩
  · rintro ⟨r, hr, hstatus, hname, hphase⟩
    rcases List.mem_append.1 hr with hr | hr
    · exact .inl ⟨r, hr, hstatus, hname⟩
    · exact .inr ⟨hphase (hduring r hr), r, hr, hstatus, hname⟩

end Run

end Rehearsal
