import Rehearsal.Proofs.Run.Course

/-!
# What a run reports

The reports on steps that run in turn say how far these came: some completed, at most one failed,
and behind it the others were skipped, for which the client is not asked (`Tally`). From the parts
of a run this carries over to the whole: the statuses of a scenario's steps (`Working.tally`), those
of the cleanup (`Cleaning.tally`), and that a run fails if any report in it says so
(`Course.isOk_of_failed`). Whether a container is deleted depends on these reports
(`Run.deletes_cleanup_iff`).
-/

namespace Rehearsal

/-- What a report is on. -/
def StepReport.subject (r : StepReport) : String × StepKind := (r.name, r.kind)

/-- What a report on a step is on. -/
def Step.subject (s : Step) : String × StepKind := (s.name, s.kind)

/-- The statuses of steps of which some completed, some failed and some were skipped, in this
order. -/
def StepStatus.inOrder (completed failed dropped : Nat) : List StepStatus :=
  .replicate completed .completed ++ .replicate failed .failed ++ .replicate dropped .skipped

/-- Every step has its report, the reports are in order, and calls are made for none of the steps
that were skipped. -/
structure Tally (steps : List Step) (reports : List StepReport) (calls : List Exchange)
    (completed failed dropped : Nat) : Prop where
  subjects : reports.map StepReport.subject = steps.map Step.subject
  statuses : reports.map (·.status) = StepStatus.inOrder completed failed dropped
  calls : (calls.filterMap fun x => x.call.step?).Sublist (steps.take (completed + failed))

namespace Tally

variable {steps left : List Step} {reports : List StepReport} {calls : List Exchange}
  {completed failed dropped : Nat}

theorem length_reports (h : Tally steps reports calls completed failed dropped) :
    reports.length = completed + failed + dropped := by
  have hlength := congrArg List.length h.statuses
  simpa [StepStatus.inOrder, Nat.add_assoc] using hlength

theorem length_steps (h : Tally steps reports calls completed failed dropped) :
    steps.length = completed + failed + dropped := by
  have hlength := congrArg List.length h.subjects
  rw [List.length_map, List.length_map] at hlength
  rw [← hlength, h.length_reports]

/-- Steps behind those that ran are skipped. -/
theorem skip (h : Tally steps reports calls completed failed 0) (phase : Phase) (message : String)
    (left : List Step) :
    Tally (steps ++ left) (reports ++ skipped phase message left) calls completed failed
      left.length where
  subjects := by
    rw [List.map_append, List.map_append, h.subjects, skipped, List.map_map]
    rfl
  statuses := by
    have hskipped : (Rehearsal.skipped phase message left).map (·.status) =
        .replicate left.length .skipped := by
      rw [skipped, List.map_map]
      exact List.map_const'
    rw [List.map_append, h.statuses, hskipped]
    simp [StepStatus.inOrder]
  calls := by
    have hlength : completed + failed = steps.length := by simpa using h.length_steps.symm
    have hcalls := h.calls
    rw [hlength, List.take_length] at hcalls
    rwa [hlength, List.take_left]

/-- What a report says is counted. -/
theorem status_cases (h : Tally steps reports calls completed failed dropped) {r : StepReport}
    (hr : r ∈ reports) :
    r.status = .completed ∨ (r.status = .failed ∧ 0 < failed) ∨
      (r.status = .skipped ∧ 0 < dropped) := by
  have hmem : r.status ∈ reports.map (·.status) := List.mem_map_of_mem hr
  rw [h.statuses, StepStatus.inOrder, List.mem_append, List.mem_append] at hmem
  rcases hmem with (hmem | hmem) | hmem
  · exact .inl (List.eq_of_mem_replicate hmem)
  · obtain ⟨hpos, hstatus⟩ := List.mem_replicate.1 hmem
    exact .inr (.inl ⟨hstatus, Nat.pos_of_ne_zero hpos⟩)
  · obtain ⟨hpos, hstatus⟩ := List.mem_replicate.1 hmem
    exact .inr (.inr ⟨hstatus, Nat.pos_of_ne_zero hpos⟩)

theorem failed_pos (h : Tally steps reports calls completed failed dropped) {r : StepReport}
    (hr : r ∈ reports) (hstatus : r.status = .failed) : 0 < failed := by
  rcases h.status_cases hr with h | ⟨-, hpos⟩ | ⟨h, -⟩
  · rw [hstatus] at h; cases h
  · exact hpos
  · rw [hstatus] at h; cases h

theorem exists_failed (h : Tally steps reports calls completed failed dropped) (hpos : 0 < failed) :
    ∃ r ∈ reports, r.status = .failed := by
  have hmem : StepStatus.failed ∈ reports.map (·.status) := by
    rw [h.statuses, StepStatus.inOrder, List.mem_append, List.mem_append]
    exact .inl (.inr (List.mem_replicate.2 ⟨by omega, rfl⟩))
  exact List.mem_map.1 hmem

theorem dropped_pos (h : Tally steps reports calls completed failed dropped) {r : StepReport}
    (hr : r ∈ reports) (hstatus : r.status = .skipped) : 0 < dropped := by
  rcases h.status_cases hr with h | ⟨h, -⟩ | ⟨-, hpos⟩
  · rw [hstatus] at h; cases h
  · rw [hstatus] at h; cases h
  · exact hpos

end Tally

section parts

variable {scenario : String} {stage : Stage} {kind : ScopeKind} {scope : RuntimeScope}
  {steps left : List Step} {calls : List Exchange} {reports : List StepReport}
  {status : ProvisionStatus} {result result' : Except RunError Unit}

theorem Ran.subject_eq {s : Step} {report : StepReport} (h : Ran scenario stage s calls report result) :
    report.subject = s.subject := by
  rw [StepReport.subject, h.name, h.kind]
  rfl

/-- The steps of a stage complete until one fails; those that are left are the ones behind it. -/
theorem InTurn.tally (h : InTurn scenario stage steps calls reports left result) :
    ∃ ran completed failed, steps = ran ++ left ∧ Tally ran reports calls completed failed 0 ∧
      (result.isOk = true ∧ failed = 0 ∧ left = [] ∨ result.isOk = false ∧ failed = 1) := by
  induction h with
  | done =>
    exact ⟨[], 0, 0, rfl, ⟨rfl, rfl, List.nil_sublist _⟩, .inl ⟨rfl, rfl, rfl⟩⟩
  | @completed s _ _ _ _ _ _ _ first _ ih =>
    obtain ⟨ran, completed, failed, rfl, htally, hresult⟩ := ih
    have hstatus : _ = StepStatus.completed := first.result.elim And.right fun ⟨_, he, _⟩ => nomatch he
    refine ⟨s :: ran, completed + 1, failed, rfl, ⟨?_, ?_, ?_⟩, hresult⟩
    · rw [List.map_cons, List.map_cons, first.subject_eq, htally.subjects]
    · rw [List.map_cons, htally.statuses, hstatus]
      rfl
    · rw [List.filterMap_append, Nat.add_right_comm, List.take_succ_cons]
      exact first.calls.steps_sublist.append htally.calls
  | @failed s _ _ _ _ first =>
    have hstatus : _ = StepStatus.failed :=
      first.result.elim (fun h => nomatch h.1) fun ⟨_, _, h⟩ => h
    refine ⟨[s], 0, 1, rfl, ⟨?_, ?_, first.calls.steps_sublist⟩, .inr ⟨rfl, rfl⟩⟩
    · rw [List.map_singleton, List.map_singleton, first.subject_eq]
    · rw [List.map_singleton, hstatus]
      rfl

theorem InTurn.status_ne (h : InTurn scenario stage steps calls reports left result)
    {r : StepReport} (hr : r ∈ reports) :
    r.status ≠ .skipped ∧ (r.status = .failed → result.isOk = false) := by
  obtain ⟨_, _, _, -, htally, hresult⟩ := h.tally
  refine ⟨fun hstatus => Nat.lt_irrefl 0 (htally.dropped_pos hr hstatus), fun hstatus => ?_⟩
  have hpos := htally.failed_pos hr hstatus
  rcases hresult with ⟨-, hfailed, -⟩ | ⟨hresult, -⟩
  · omega
  · exact hresult

theorem Provisioning.status_cases
    (h : Provisioning scenario stage scope calls reports status result) :
    result.isOk = true ∧ status = .provisioned ∨
      result.isOk = false ∧ ∃ message, status = .failed message := by
  cases h with
  | ready => exact .inl ⟨rfl, rfl⟩
  | barred => exact .inr ⟨rfl, _, rfl⟩
  | succeeded => exact .inl ⟨rfl, rfl⟩
  | failed => exact .inr ⟨rfl, _, rfl⟩

theorem Readying.status_ne (h : Readying scenario stage kind steps calls reports result)
    {r : StepReport} (hr : r ∈ reports) :
    r.status ≠ .skipped ∧ (r.status = .failed → result.isOk = false) := by
  cases h with
  | uncreated => cases hr
  | created _ _ inTurn => exact inTurn.status_ne hr
  | uncontained _ inTurn => exact inTurn.status_ne hr

/-- Nothing is skipped while a scope is provisioned, and what fails there is a failure of it. -/
theorem Provisioning.status_ne (h : Provisioning scenario stage scope calls reports status result)
    {r : StepReport} (hr : r ∈ reports) :
    r.status ≠ .skipped ∧ (r.status = .failed → result.isOk = false) := by
  cases h with
  | ready => cases hr
  | barred => cases hr
  | succeeded _ readying => exact readying.status_ne hr
  | failed _ readying => exact readying.status_ne hr

/-- Of the steps of a scenario some complete, at most one fails, and behind it they are skipped. All
are if the scope could not be provisioned. -/
theorem Working.tally (h : Working scenario stage steps result calls reports result') :
    ∃ completed failed dropped, Tally steps reports calls completed failed dropped ∧ failed ≤ 1 ∧
      (result.isOk = true → failed = 0 → dropped = 0) ∧
      (result.isOk = false → completed = 0 ∧ failed = 0) ∧
      (result'.isOk = true ↔ result.isOk = true ∧ failed = 0) := by
  cases h with
  | ran inTurn =>
    obtain ⟨ran, completed, failed, rfl, htally, hresult⟩ := inTurn.tally
    refine ⟨completed, failed, _, htally.skip .scenario "previous step failed" _, ?_⟩
    rcases hresult with ⟨hok, rfl, rfl⟩ | ⟨herror, rfl⟩
    · exact ⟨Nat.zero_le 1, fun _ _ => rfl, nofun, fun _ => ⟨rfl, rfl⟩, fun _ => hok⟩
    · exact ⟨Nat.le_refl 1, nofun, nofun, fun hok => (by rw [herror] at hok; cases hok), nofun⟩
  | barred e =>
    have hnone : Tally [] [] [] 0 0 0 := ⟨rfl, rfl, List.nil_sublist _⟩
    exact ⟨0, 0, _, hnone.skip .scenario "scope provisioning failed" steps, Nat.zero_le 1, nofun,
      fun _ => ⟨rfl, rfl⟩, nofun, nofun⟩

/-- The steps that clean up run until one fails, unless cleaning up is disabled. -/
theorem Cleaning.tally {options : Options} (enabled : options.skipCleanup = false)
    (h : Cleaning options scenario stage kind steps calls reports result) :
    ∃ ran left completed failed, steps = ran ++ left ∧
      Tally ran reports calls completed failed 0 ∧
      (failed = 0 ∧ left = [] ∨ failed = 1 ∧ result.isOk = false) := by
  cases h with
  | disabled skip => rw [skip] at enabled; cases enabled
  | failed _ inTurn =>
    obtain ⟨ran, completed, failed, hsteps, htally, hresult⟩ := inTurn.tally
    refine ⟨ran, _, completed, failed, hsteps, htally, .inr ?_⟩
    rcases hresult with ⟨hresult, -⟩ | ⟨-, hfailed⟩
    · cases hresult
    · exact ⟨hfailed, rfl⟩
  | @emptied _ deletion _ _ _ _ inTurn _ honce =>
    obtain ⟨ran, completed, failed, hsteps, htally, hresult⟩ := inTurn.tally
    rcases hresult with ⟨-, hfailed, hleft⟩ | ⟨hresult, -⟩
    · -- The deletion of the container is no call of a step.
      refine ⟨ran, _, completed, failed, hsteps, ⟨htally.subjects, htally.statuses, ?_⟩,
        .inl ⟨hfailed, hleft⟩⟩
      have hnone : deletion.filterMap (fun x => x.call.step?) = [] :=
        List.filterMap_eq_nil_iff.2 fun x hx => Call.step?_of_deletion (honce.of_mem hx).2
      rw [List.filterMap_append, hnone, List.append_nil]
      exact htally.calls
    · cases hresult
  | uncontained _ inTurn =>
    obtain ⟨ran, completed, failed, hsteps, htally, hresult⟩ := inTurn.tally
    exact ⟨ran, _, completed, failed, hsteps, htally,
      hresult.imp (fun h => ⟨h.2.1, h.2.2⟩) fun h => ⟨h.2, h.1⟩⟩

/-- A step that cleans up is skipped only if cleaning up is disabled, and then none of them runs. -/
theorem Cleaning.status_ne {options : Options}
    (h : Cleaning options scenario stage kind steps calls reports result) {r : StepReport}
    (hr : r ∈ reports) :
    (r.status = .skipped → calls = []) ∧ (r.status = .failed → result.isOk = false) := by
  cases h with
  | disabled =>
    refine ⟨fun _ => rfl, fun hstatus => ?_⟩
    obtain ⟨s, -, rfl⟩ := List.mem_map.1 hr
    cases hstatus
  | failed _ inTurn => exact ⟨fun hstatus => absurd hstatus (inTurn.status_ne hr).1, fun _ => rfl⟩
  | emptied _ inTurn =>
    exact ⟨fun hstatus => absurd hstatus (inTurn.status_ne hr).1,
      fun hstatus => nomatch (inTurn.status_ne hr).2 hstatus⟩
  | uncontained _ inTurn =>
    exact ⟨fun hstatus => absurd hstatus (inTurn.status_ne hr).1, (inTurn.status_ne hr).2⟩

end parts

/-- A run comes to nothing if its body or its cleanup does. -/
theorem Run.settle_isOk (scenario : String) (body cleanup : Except RunError Unit) :
    (settle scenario body cleanup).isOk = true ↔ body.isOk = true ∧ cleanup.isOk = true := by
  cases body <;> cases cleanup <;> simp [settle, Except.isOk, Except.toBool]

/-- A run fails if any report in it says that a step failed. -/
theorem Course.isOk_of_failed {options : Options} {scenario : Scenario} {run : Run}
    {calls : List Exchange} {reports : List StepReport} {status : ProvisionStatus}
    {result : Except RunError Unit} (h : Course options scenario run calls reports status result)
    {r : StepReport} (hr : r ∈ reports) (hstatus : r.status = .failed) : result.isOk = false := by
  cases h with
  | unready => cases hr
  | @performed _ _ _ _ _ _ _ first second third provisioning working cleaning =>
    rw [← Bool.not_eq_true, Run.settle_isOk, Decidable.not_and_iff_or_not, Bool.not_eq_true, Bool.not_eq_true]
    obtain ⟨_, _, _, htally, -, -, -, hsecond⟩ := working.tally
    rcases List.mem_append.1 hr with hr | hr
    · left
      rw [← Bool.not_eq_true, hsecond]
      rcases List.mem_append.1 hr with hr | hr
      · simp [(provisioning.status_ne hr).2 hstatus]
      · have hpos := htally.failed_pos hr hstatus
        omega
    · exact .inr ((cleaning.status_ne hr).2 hstatus)

/-! ### The deletion of a container -/

namespace Run

open Runs

variable {options : Options} {client : Client} {run : Run}

/-- A container is deleted if it is known which; else nothing is asked for. -/
theorem deleteContainer_cases (client : Client) (env : Environment) (run : Run) :
    (∃ e, deleteContainer client env run = (.error e, run) ∧
        ¬ ∃ subscription name, env.requireString ReservedName.subscription = .ok subscription ∧
          env.requireString ReservedName.container = .ok name) ∨
      ∃ subscription name, env.requireString ReservedName.subscription = .ok subscription ∧
        env.requireString ReservedName.container = .ok name ∧
        deleteContainer client env run = ask client .cleanup (.deleteContainer subscription name) run := by
  cases hsubscription : env.requireString ReservedName.subscription with
  | error e =>
    refine .inl ⟨.variable e, ?_, fun ⟨_, _, h, _⟩ => nomatch h⟩
    rw [deleteContainer, hsubscription]
    rfl
  | ok subscription =>
    cases hname : env.requireString ReservedName.container with
    | error e =>
      refine .inl ⟨.variable e, ?_, fun ⟨_, _, _, h⟩ => nomatch h⟩
      rw [deleteContainer, hsubscription, hname]
      rfl
    | ok name =>
      refine .inr ⟨subscription, name, rfl, rfl, ?_⟩
      rw [deleteContainer, hsubscription, hname]
      rfl

/-- Where the container of a scope is known, its deletion is asked for if and only if no step failed
that cleans up. -/
theorem deletes_cleanup_iff (needed : run.scope.kind.needsContainer = true)
    {calls : List Exchange} {reports : List StepReport} {subscription name : String}
    (h : run.Advances calls reports (cleanup options client run).2)
    (hsubscription : (cleanup options client run).2.scope.environment.requireString
      ReservedName.subscription = .ok subscription)
    (hname : (cleanup options client run).2.scope.environment.requireString
      ReservedName.container = .ok name) :
    (∃ x ∈ calls, x.call = .deleteContainer subscription name) ↔
      ∀ r ∈ reports, r.status ≠ .failed := by
  obtain ⟨calls', reports', left, hsteps, hturn⟩ :=
    inTurn_forM options client .cleanup run.scope.cleanupSteps run
  have hsame {calls'' : List Exchange}
      (h' : run.Advances calls'' reports' (cleanup options client run).2) :
      calls = calls'' ∧ reports = reports' :=
    ⟨List.append_cancel_left (h.trace.symm.trans h'.trace),
      List.append_cancel_left (h.steps.symm.trans h'.steps)⟩
  obtain ⟨_, _, failed, -, htally, hresult⟩ := hturn.tally
  rcases hrun : run.scope.cleanupSteps.forM (step options client .cleanup) run with ⟨e | _, run'⟩
  · -- A step failed, and no step asks for a deletion.
    rw [hrun] at hsteps hturn hresult
    rw [cleanup_of_steps_error hrun] at hsame
    obtain ⟨rfl, rfl⟩ := hsame hsteps
    have hfailed : failed = 1 := hresult.elim (fun h => nomatch h.1) And.right
    constructor
    · rintro ⟨x, hx, hcall⟩
      obtain ⟨-, s, -, hs⟩ := hturn.of_mem hx
      rw [hcall] at hs
      cases hs
    · intro hnone
      obtain ⟨r, hr, hstatus⟩ := htally.exists_failed (by omega)
      exact absurd hstatus (hnone r hr)
  · rw [hrun] at hsteps hturn hresult
    have hkind : run'.scope.kind.needsContainer = true := by rw [hsteps.scope]; exact needed
    rw [cleanup_of_steps_ok hrun, if_pos hkind] at hsame hsubscription hname
    have hfailed : failed = 0 := hresult.elim (·.2.1) (fun h => nomatch h.1)
    rcases deleteContainer_cases client run'.scope.environment run' with
      ⟨e, hdelete, hunknown⟩ | ⟨subscription', name', hsubscription', hname', hdelete⟩
    · rw [hdelete] at hsubscription hname
      exact absurd ⟨subscription, name, hsubscription, hname⟩ hunknown
    · rw [hdelete, ask_run] at hsame hsubscription hname
      change run'.scope.environment.requireString _ = _ at hsubscription hname
      rw [hsubscription'] at hsubscription
      rw [hname'] at hname
      cases hsubscription
      cases hname
      have hdeletion := hsteps.trans (advances_exchanged run'
        (run'.exchangeWith client .cleanup (.deleteContainer subscription name)))
      rw [List.append_nil] at hdeletion
      obtain ⟨rfl, rfl⟩ := hsame hdeletion
      refine ⟨fun _ r hr hstatus => ?_,
        fun _ => ⟨_, List.mem_append_right calls' (List.mem_singleton_self _), rfl⟩⟩
      have hpos := htally.failed_pos hr hstatus
      omega

end Run

end Rehearsal
