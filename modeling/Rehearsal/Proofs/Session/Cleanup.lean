import Rehearsal.Proofs.Session.Report

/-!
# Cleaning up behind a run

Whatever became of a run, its scope is cleaned up behind it unless that is disabled. The steps that
clean up run in order until one of them fails, and the container is deleted behind them. So every
one of them runs if and only if none fails but perhaps the last, and the deletion of the container
is asked for if and only if none fails at all (`Session.runScenario_cleansUp`).
-/

namespace Rehearsal

/-- Steps have run, whether they completed or failed. -/
structure Executed (steps : List Step) (reports : List StepReport) : Prop where
  subjects : reports.map StepReport.subject = steps.map Step.subject
  statuses : ∀ r ∈ reports, r.status = .completed ∨ r.status = .failed

theorem Executed.length_eq {steps : List Step} {reports : List StepReport}
    (h : Executed steps reports) : reports.length = steps.length := by
  simpa using congrArg List.length h.subjects

namespace Tally

variable {steps : List Step} {reports : List StepReport} {calls : List Exchange}
  {completed failed : Nat}

theorem executed (h : Tally steps reports calls completed failed 0) : Executed steps reports where
  subjects := h.subjects
  statuses r hr := by
    rcases h.status_cases hr with hstatus | ⟨hstatus, -⟩ | ⟨-, hpos⟩
    · exact .inl hstatus
    · exact .inr hstatus
    · cases hpos

theorem getElem?_status (h : Tally steps reports calls completed failed 0) {i : Nat} {r : StepReport}
    (hr : reports[i]? = some r) :
    r.status = .completed ∧ i < completed ∨ r.status = .failed ∧ completed ≤ i ∧ 0 < failed := by
  have hstatus : (reports.map (·.status))[i]? = some r.status := by rw [List.getElem?_map, hr]; rfl
  rw [h.statuses, StepStatus.inOrder, List.replicate_zero, List.append_nil] at hstatus
  by_cases hi : i < completed
  · rw [List.getElem?_append_left (by simpa using hi), List.getElem?_replicate_of_lt hi] at hstatus
    exact .inl ⟨(Option.some.inj hstatus).symm, hi⟩
  · rw [List.getElem?_append_right (by simpa using hi), List.getElem?_replicate] at hstatus
    split at hstatus
    · exact .inr ⟨(Option.some.inj hstatus).symm, by omega, by omega⟩
    · cases hstatus

end Tally

section cleaning

variable {options : Options} {scenario : String} {stage : Stage} {kind : ScopeKind}
  {steps : List Step} {calls : List Exchange} {reports : List StepReport}
  {result : Except RunError Unit}

/-- The steps that clean up run until one fails. -/
theorem Cleaning.executed (h : Cleaning options scenario stage kind steps calls reports result)
    (enabled : options.skipCleanup = false) :
    Executed (steps.take reports.length) reports ∧
      (∀ r ∈ reports.dropLast, r.status = .completed) ∧
      (Executed steps reports ↔
        ∀ i r, reports[i]? = some r → r.status = .failed → i + 1 = steps.length) := by
  obtain ⟨ran, left, completed, failed, rfl, htally, hfailed⟩ := h.tally enabled
  have hran : ran.length = reports.length := htally.executed.length_eq.symm
  have hlength : reports.length = completed + failed := by simpa using htally.length_reports
  have hle : failed ≤ 1 := by rcases hfailed with ⟨h, -⟩ | ⟨h, -⟩ <;> omega
  refine ⟨?_, fun r hr => ?_, fun hall i r hr hstatus => ?_, fun hlast => ?_⟩
  · rw [← hran, List.take_left]
    exact htally.executed
  · obtain ⟨i, hi⟩ := List.getElem?_of_mem hr
    rw [List.getElem?_dropLast] at hi
    split at hi
    · rcases htally.getElem?_status hi with ⟨hstatus, -⟩ | ⟨-, hbehind, hpos⟩
      · exact hstatus
      · omega
    · cases hi
  · have hi : i < reports.length := (List.getElem?_eq_some_iff.1 hr).1
    rw [← hall.length_eq]
    rcases htally.getElem?_status hr with ⟨hcompleted, -⟩ | ⟨-, hbehind, hpos⟩
    · rw [hcompleted] at hstatus
      cases hstatus
    · omega
  · have hleft : left = [] := by
      rcases hfailed with ⟨-, hleft⟩ | ⟨hone, -⟩
      · exact hleft
      · -- The step that failed is the last one that ran.
        obtain ⟨r, hr, hstatus⟩ := htally.exists_failed (by omega)
        obtain ⟨i, hi⟩ := List.getElem?_of_mem hr
        have hend := hlast i r hi hstatus
        have hless : i < reports.length := (List.getElem?_eq_some_iff.1 hi).1
        rw [List.length_append] at hend
        exact List.length_eq_zero_iff.1 (by omega)
    rw [hleft, List.append_nil]
    exact htally.executed

end cleaning

/-- A deletion is a call of the cleanup: it is asked for if and only if no step failed there. -/
theorem Run.Parts.deletes_iff {options : Options} {client : Client} {scenario : Scenario} {run : Run}
    (parts : Run.Parts options client scenario run) (enabled : options.skipCleanup = false)
    (needed : run.scope.kind.needsContainer = true) {subscription name : String}
    (hsubscription : parts.last.scope.environment.requireString ReservedName.subscription =
      .ok subscription)
    (hname : parts.last.scope.environment.requireString ReservedName.container = .ok name) :
    (∃ x ∈ run.readiness scenario (.ok ()) ::
        (parts.provisioning ++ parts.working ++ parts.cleaning),
        x.call = .deleteContainer subscription name) ↔
      ∀ r ∈ parts.cleanups, r.status ≠ .failed := by
  have hcleanup : Run.cleanup options client parts.before = (parts.cleaned, parts.last) := by
    rw [← parts.finishes, Run.finish, enabled]
    rfl
  have hneeded : parts.before.scope.kind.needsContainer = true := by
    rw [parts.leads.scope]
    exact needed
  have hlast : (Run.cleanup options client parts.before).2 = parts.last := by rw [hcleanup]
  rw [← Run.deletes_cleanup_iff hneeded (hlast ▸ parts.ends) (hlast ▸ hsubscription)
    (hlast ▸ hname)]
  constructor
  · rintro ⟨x, hx, hcall⟩
    refine ⟨x, ?_, hcall⟩
    have hdeletes : x.call.isDeletion = true := by rw [hcall]; rfl
    rcases List.mem_cons.1 hx with rfl | hx
    · cases hcall
    rcases List.mem_append.1 hx with hx | hx
    rcases List.mem_append.1 hx with hx | hx
    · rw [parts.provisions.not_deletes x hx] at hdeletes
      cases hdeletes
    · rw [parts.works.not_deletes x hx] at hdeletes
      cases hdeletes
    · exact hx
  · rintro ⟨x, hx, hcall⟩
    exact ⟨x, List.mem_cons_of_mem _ (List.mem_append_right _ hx), hcall⟩

namespace Session

variable {session opened : Session} {client : Client} {definition : Definition}
  {scenario : Scenario} {caller : Environment} {scope : RuntimeScope} {run : Run}

/-- How a scope is cleaned up behind a run that comes to a result. -/
structure CleansUp (session : Session) (scope : RuntimeScope) (result : Result) : Prop where
  executed : Executed
    (scope.cleanupSteps.take (reportsIn .cleanup result.report.steps).length)
    (reportsIn .cleanup result.report.steps)
  completed : ∀ r ∈ (reportsIn .cleanup result.report.steps).dropLast, r.status = .completed
  all_iff : Executed scope.cleanupSteps (reportsIn .cleanup result.report.steps) ↔
    ∀ i r, (reportsIn .cleanup result.report.steps)[i]? = some r → r.status = .failed →
      i + 1 = scope.cleanupSteps.length
  deletes_iff : scope.kind = .resourceGroup → ∀ (scope' : RuntimeScope) (subscription name : String),
    result.session.scopes.get? scope.name = some scope' →
    scope'.environment.requireString ReservedName.subscription = .ok subscription →
    scope'.environment.requireString ReservedName.container = .ok name →
    ((∃ calls, result.session.trace = session.trace ++ calls ∧
        ∃ x ∈ calls, x.call = .deleteContainer subscription name) ↔
      ∀ r ∈ reportsIn .cleanup result.report.steps, r.status = .completed)

/-- **The cleanup behind a run stops at its first failure.** Whatever became of the steps before,
the steps that clean up run in order until one fails. So all of them run if and only if none fails
but perhaps the last, and the container, if it is known, is deleted if and only if none fails. -/
theorem runScenario_cleansUp (enabled : session.options.skipCleanup = false)
    (opens : session.openScope definition scenario caller = (.ok scope, opened))
    (starts : opened.start scenario scope = .ok run)
    (ready : client.answer run.trace (.prepare scenario (run.environment .scenario)) = .ok ()) :
    session.CleansUp scope (session.runScenario client definition scenario caller) := by
  obtain ⟨-, -, hscope, -⟩ := start_eq_ok starts
  obtain ⟨parts, h⟩ := performs_runScenario opens starts ready
  rw [← hscope]
  obtain ⟨hexecuted, hcompleted, hall⟩ := parts.cleans.executed enabled
  refine ⟨?_, ?_, ?_, fun hkind scope' subscription name hget hsubscription hname => ?_⟩
  · rw [h.reportsIn.2]
    exact hexecuted
  · rw [h.reportsIn.2]
    exact hcompleted
  · rw [h.reportsIn.2]
    exact hall
  · rw [h.scope] at hget
    cases hget
    rw [h.reportsIn.2]
    have hneeded : run.scope.kind.needsContainer = true := by rw [hkind]; rfl
    have hdeletes := parts.deletes_iff enabled hneeded hsubscription hname
    have hran (r : StepReport) (hr : r ∈ parts.cleanups) : r.status ≠ .failed ↔ r.status = .completed :=
      ⟨fun hne => (hexecuted.statuses r hr).resolve_right hne, fun heq => by rw [heq]; nofun⟩
    rw [← forall₂_congr hran, ← hdeletes]
    refine ⟨fun ⟨calls, htrace, hcall⟩ => ?_, fun hcall => ⟨_, h.trace, hcall⟩⟩
    rwa [List.append_cancel_left (htrace.symm.trans h.trace)] at hcall

/-! ### A cleanup that stops -/

/-- The first of two steps that clean up is rejected. -/
theorem runScenario_cleansUp_rejecting : ∃ scope opened run,
    fresh.openScope staged threefold supplied = (.ok scope, opened) ∧
      opened.start threefold scope = .ok run ∧
      fresh.CleansUp scope (fresh.runScenario (rejecting "c") staged threefold supplied) := by
  obtain ⟨scope, opened, run, opens, starts⟩ := exists_start_threefold
  exact ⟨scope, opened, run, opens, starts, runScenario_cleansUp rfl opens starts rfl⟩

/-- A step that cleans up may be left out, and then the container is left as it is. -/
theorem not_forall_cleansUp :
    ¬ ∀ (session : Session) (client : Client) (definition : Definition) (scenario : Scenario)
      (caller : Environment) (scope : RuntimeScope) (opened : Session) (run : Run),
      session.options.skipCleanup = false →
      session.openScope definition scenario caller = (.ok scope, opened) →
      opened.start scenario scope = .ok run →
      client.answer run.trace (.prepare scenario (run.environment .scenario)) = .ok () →
      Executed scope.cleanupSteps (reportsIn .cleanup
          (session.runScenario client definition scenario caller).report.steps) ∧
        (scope.kind = .resourceGroup → ∀ scope' subscription name,
          (session.runScenario client definition scenario caller).session.scopes.get? scope.name =
            some scope' →
          scope'.environment.requireString ReservedName.subscription = .ok subscription →
          scope'.environment.requireString ReservedName.container = .ok name →
          ∃ x ∈ (session.runScenario client definition scenario caller).session.trace,
            x.call = .deleteContainer subscription name) := by
  intro hall
  obtain ⟨scope, opened, run, opens, starts⟩ := exists_start_threefold
  have hexecuted := (hall fresh (rejecting "c") staged threefold supplied scope opened run rfl opens
    starts rfl).1
  have hsteps : scope.cleanupSteps = [readingAs "c", readingAs "d"] := by
    rcases (opens_openScope opens).source with hfound | ⟨-, _, _, hbuilt⟩
    · cases hfound
    · exact (RuntimeScope.build_eq_ok hbuilt).2.2.2.1
  have hreports : (reportsIn .cleanup
      (fresh.runScenario (rejecting "c") staged threefold supplied).report.steps).length = 1 := by
    decide +kernel
  have hlength := hexecuted.length_eq
  rw [hsteps, hreports] at hlength
  cases hlength

end Session

end Rehearsal
