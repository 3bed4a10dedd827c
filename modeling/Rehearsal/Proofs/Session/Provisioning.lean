import Rehearsal.Proofs.Run.Provisioning
import Rehearsal.Proofs.Session.Reached

/-!
# A scope is provisioned once

Runs that share a scope share its provisioning: whatever fails, its container is asked for at most
once, each of its steps to prepare runs at most once, and its status stays as it is once it is
settled. Later runs in a scope whose provisioning failed fail for the recorded reason, unless they
fail before they look at the scope (`Session.provisioned_once`).
-/

namespace Rehearsal

/-- The account of a scope that is provisioned at most once. -/
structure ProvisionedOnce (scope : RuntimeScope) (calls : List Exchange)
    (reports : List StepReport) : Prop where
  resting : scope.status = .unprovisioned ∨ scope.status.isSettled = true
  untouched : scope.status = .unprovisioned →
    creations calls = 0 ∧ preparing calls = [] ∧ prepared reports = []
  creations_le : creations calls ≤ 1
  preparing_sublist : (preparing calls).Sublist scope.prepareSteps
  prepared_prefix : prepared reports <+: scope.prepareSteps.map Step.name
  moves : (calls.map (·.status)).Pairwise ProvisionStatus.Leads
  leads : ∀ x ∈ calls, x.status.Leads scope.status

namespace ProvisionedOnce

theorem new {scope : RuntimeScope} (h : scope.status = .unprovisioned) :
    ProvisionedOnce scope [] [] where
  resting := .inl h
  untouched _ := ⟨rfl, rfl, rfl⟩
  creations_le := Nat.zero_le 1
  preparing_sublist := List.nil_sublist _
  prepared_prefix := List.nil_prefix
  moves := .nil
  leads _ hx := absurd hx List.not_mem_nil

variable {options : Options} {scenario : Scenario} {run run' : Run} {before calls : List Exchange}
  {earlier reports : List StepReport} {status : ProvisionStatus} {result : Except RunError Unit}

/-- **A run keeps the account of its scope.** -/
theorem keeps (h : ProvisionedOnce run.scope before earlier)
    (hcourse : Course options scenario run calls reports status result)
    (hadvances : (run.withStatus status).Advances calls reports run') :
    ProvisionedOnce run'.scope (before ++ calls) (earlier ++ reports) := by
  have hstatus : run'.scope.status = status := by rw [hadvances.scope]; rfl
  have hsteps : run'.scope.prepareSteps = run.scope.prepareSteps := by rw [hadvances.scope]; rfl
  have hleads : ∀ x ∈ before ++ calls, x.status.Leads status := by
    intro x hx
    rcases List.mem_append.1 hx with hx | hx
    · exact (h.leads x hx).trans hcourse.leads_status
    · exact (hcourse.leads.2 x hx).2
  have hmoves : ((before ++ calls).map (·.status)).Pairwise ProvisionStatus.Leads := by
    rw [List.map_append, List.pairwise_append]
    refine ⟨h.moves, hcourse.leads.1, fun a ha b hb => ?_⟩
    obtain ⟨x, hx, rfl⟩ := List.mem_map.1 ha
    obtain ⟨y, hy, rfl⟩ := List.mem_map.1 hb
    exact (h.leads x hx).trans (hcourse.leads.2 y hy).1
  rcases hcourse.unchanged_or_settles with
    ⟨hcreations, hpreparing, hprepared, hsame⟩ |
      ⟨hopen, hsettled, hcreations, hpreparing, hprepared⟩
  · -- What is on the account stays as it is.
    have hall : creations (before ++ calls) = creations before ∧
        preparing (before ++ calls) = preparing before ∧
          prepared (earlier ++ reports) = prepared earlier := by
      rw [creations_append, preparing_append, prepared_append, hcreations, hpreparing, hprepared]
      simp
    obtain ⟨hcreations', hpreparing', hprepared'⟩ := hall
    refine ⟨?_, ?_, ?_, ?_, ?_, hmoves, fun x hx => hstatus ▸ hleads x hx⟩
    · rw [hstatus, hsame]
      exact h.resting
    · rw [hstatus, hsame, hcreations', hpreparing', hprepared']
      exact h.untouched
    · rw [hcreations']
      exact h.creations_le
    · rw [hpreparing', hsteps]
      exact h.preparing_sublist
    · rw [hprepared', hsteps]
      exact h.prepared_prefix
  · -- Nothing is on the account yet, so this run makes all of it.
    obtain ⟨hnone, hnone', hnone''⟩ := h.untouched (h.resting.resolve_right (by simp [hopen]))
    refine ⟨.inr (hstatus ▸ hsettled), fun hun => ?_, ?_, ?_, ?_, hmoves, fun x hx =>
      hstatus ▸ hleads x hx⟩
    · rw [← hstatus, hun] at hsettled
      cases hsettled
    · rw [creations_append, hnone, Nat.zero_add]
      exact hcreations
    · rw [preparing_append, hnone', List.nil_append, hsteps]
      exact hpreparing
    · rw [prepared_append, hnone'', List.nil_append, hsteps]
      exact hprepared

end ProvisionedOnce

namespace Session

variable {session : Session} {client : Client} {definition : Definition} {scenario : Scenario}
  {caller : Environment} {scope : RuntimeScope} {reports : List ScenarioReport} {key : String}

theorem Reached.provisionedOnce (h : Reached client session reports) :
    Accounts ProvisionedOnce session reports :=
  h.accounts (fun hbuilt => .new (RuntimeScope.build_eq_ok hbuilt).2.2.2.2)
    fun hbefore hcourse hadvances => hbefore.keeps hcourse hadvances

/-- A run changes no more of a scope than the layer that steps set variables in and the status,
which moves on. -/
theorem Reached.leads_runScenario (h : Reached client session reports)
    (hscope : session.scopes.get? key = some scope) (definition : Definition) (scenario : Scenario)
    (caller : Environment) :
    ∃ scope', (session.runScenario client definition scenario caller).session.scopes.get? key =
        some scope' ∧
      scope' = { scope with layer := scope'.layer, status := scope'.status } ∧
        scope.status.Leads scope'.status := by
  generalize hresult : session.runScenario client definition scenario caller = result
  have hruns := session.runs_runScenario client definition scenario caller
  rw [hresult] at hruns
  cases hruns with
  | @unopened opened e opens =>
    refine ⟨scope, ?_, rfl, .refl _⟩
    change opened.scopes.get? key = some scope
    rw [(openScope_error opens).2.2, hscope]
  | unstarted opens starts =>
    exact ⟨scope, (opens_openScope opens).get?_eq hscope, rfl, .refl _⟩
  | @performed opened found run run' outcome opens starts performs error =>
    have hopens := opens_openScope opens
    obtain ⟨-, -, hfound, -⟩ := start_eq_ok starts
    obtain ⟨calls, steps, status, hadvances, hcourse⟩ :=
      Run.course_perform opened.options client scenario run
    rw [performs] at hadvances hcourse
    have hname : run'.scope.name = session.scopeKey definition scenario := by
      rw [← h.name_of_opens hopens, ← hfound, hadvances.scope]
      rfl
    simp only [Session.resume, Dict.get?_insert, hname]
    have hold := hopens.get?_eq hscope
    -- Only the scope of the run is put back.
    split
    · next hkey =>
      rw [hkey, hopens.found] at hold
      cases hold
      rw [← hfound, hadvances.scope]
      exact ⟨_, rfl, rfl, hcourse.leads_status⟩
    · exact ⟨scope, hold, rfl, .refl _⟩

/-- How a run fails in a scope that could not be provisioned: it cannot be started, the client does
not get ready, or the recorded failure is what its body comes to. -/
inductive FailsAgain (session : Session) (client : Client) (scenario : Scenario)
    (scope : RuntimeScope) (message : String) : Except RunError Unit → Prop
  | unstarted {e : VariableError} (starts : session.start scenario scope = .error e) :
      FailsAgain session client scenario scope message
        (.error (.scenario scenario.name (.variable e)))
  | unready {run : Run} {reason : String} (starts : session.start scenario scope = .ok run)
      (answer : client.answer run.trace (.prepare scenario (run.environment .scenario)) =
        .error reason) :
      FailsAgain session client scenario scope message
        (.error (.scenario scenario.name (.client "prepare" reason)))
  | recorded {run : Run} {cleanup : Except RunError Unit}
      (starts : session.start scenario scope = .ok run)
      (answer : client.answer run.trace (.prepare scenario (run.environment .scenario)) = .ok ()) :
      FailsAgain session client scenario scope message
        (Run.settle scenario.name (.error (.provisioning scope.name message)) cleanup)

/-- What a run does in a scope that could not be provisioned: nothing is created or prepared, no
step of the scenario runs, and the run fails. -/
structure Barred (session : Session) (client : Client) (scenario : Scenario) (scope : RuntimeScope)
    (message : String) (result : Result) : Prop where
  calls : ∃ calls, result.session.trace = session.trace ++ calls ∧ ∀ x ∈ calls,
    x.call.isCreation = false ∧ x.phase ≠ .prepare ∧ (x.phase = .scenario → x.call.step? = none)
  reports : ∀ r ∈ result.report.steps,
    r.phase ≠ .prepare ∧ (r.phase = .scenario → r.status = .skipped)
  outcome : FailsAgain session client scenario scope message result.outcome

theorem barred_runScenario {message : String}
    (hscope : session.scopes.get? (session.scopeKey definition scenario) = some scope)
    (hfailed : scope.status = .failed message) (caller : Environment) :
    Barred (session.openScope definition scenario caller).2 client scenario scope message
      (session.runScenario client definition scenario caller) := by
  have hopen := openScope_of_found hscope caller
  generalize hopened : (session.openScope definition scenario caller).2 = opened
  have hruns := session.runs_runScenario client definition scenario caller
  generalize session.runScenario client definition scenario caller = result at hruns ⊢
  cases hruns with
  | unopened opens => rw [opens] at hopen; cases hopen
  | unstarted opens starts =>
    rw [opens] at hopen hopened
    cases hopen
    cases hopened
    exact ⟨⟨[], (List.append_nil _).symm, fun _ hx => absurd hx List.not_mem_nil⟩,
      fun _ hr => absurd hr List.not_mem_nil, .unstarted starts⟩
  | @performed _ found run run' outcome opens starts performs error =>
    rw [opens] at hopen hopened
    cases hopened
    obtain ⟨-, -, hfound, htrace, hsteps⟩ := start_eq_ok starts
    cases hopen
    have hstatus : run.scope.status = .failed message := by rw [hfound, hfailed]
    obtain ⟨calls, steps, status, hadvances, hcourse⟩ :=
      Run.course_perform session.options client scenario run
    rw [performs] at hadvances hcourse
    have hcalls : run'.trace = session.trace ++ calls := htrace ▸ hadvances.trace
    have hreports : run'.steps = steps := by
      rw [hadvances.steps]
      exact congrArg (· ++ steps) hsteps
    refine ⟨⟨calls, hcalls, (hcourse.of_failed hstatus).1⟩, ?_, ?_⟩
    · dsimp only
      rw [hreports]
      exact (hcourse.of_failed hstatus).2
    · cases hanswer : client.answer run.trace (.prepare scenario (run.environment .scenario)) with
      | error reason =>
        rw [Run.perform_of_rejected hanswer] at performs
        cases performs
        exact .unready starts hanswer
      | ok _ =>
        obtain ⟨cleanup, houtcome⟩ := Run.perform_of_failed hstatus hanswer
        rw [performs, hfound] at houtcome
        dsimp only at houtcome ⊢
        rw [houtcome]
        exact .recorded starts hanswer

/-- **A scope is provisioned at most once.** However runs follow one another and whatever their
client rejects, a scope has its container asked for at most once and each of its steps to prepare
run at most once. Its status only moves on, and once it is settled it stays. Every later run in a
scope that could not be provisioned leaves it alone and fails, for the recorded reason unless it
fails before it comes to that. -/
theorem provisioned_once (h : Reached client session reports)
    (hscope : session.scopes.get? key = some scope) :
    creations (callsOn key session.trace) ≤ 1 ∧
      (preparing (callsOn key session.trace)).Sublist scope.prepareSteps ∧
      prepared (reportsOn key reports) <+: scope.prepareSteps.map Step.name ∧
      (.unprovisioned :: (callsOn key session.trace).map (·.status) ++ [scope.status]).Pairwise
        ProvisionStatus.Leads ∧
      ∀ (definition : Definition) (scenario : Scenario) (caller : Environment),
        (∃ scope', (session.runScenario client definition scenario caller).session.scopes.get? key =
            some scope' ∧
          scope' = { scope with layer := scope'.layer, status := scope'.status } ∧
          scope.status.Leads scope'.status ∧
          (scope.status.isSettled = true → scope'.status = scope.status)) ∧
        ∀ message, scope.status = .failed message → session.scopeKey definition scenario = key →
          Barred (session.openScope definition scenario caller).2 client scenario scope message
            (session.runScenario client definition scenario caller) := by
  have honce := h.provisionedOnce.known key scope hscope
  refine ⟨honce.creations_le, honce.preparing_sublist, honce.prepared_prefix, ?_, ?_⟩
  · rw [List.cons_append, List.pairwise_cons, List.pairwise_append]
    refine ⟨fun status _ => .of_unprovisioned status, honce.moves, List.pairwise_singleton _ _, ?_⟩
    intro status hstatus last hlast
    obtain ⟨x, hx, rfl⟩ := List.mem_map.1 hstatus
    rw [List.mem_singleton.1 hlast]
    exact honce.leads x hx
  · intro definition scenario caller
    constructor
    · obtain ⟨scope', hscope', hsame, hleads⟩ :=
        h.leads_runScenario hscope definition scenario caller
      exact ⟨scope', hscope', hsame, hleads, hleads.eq_of_isSettled⟩
    · rintro message hfailed rfl
      exact barred_runScenario hscope hfailed caller

/-! ### A scope that lacks what its container needs -/

/-- A client that gets ready for the first scenario only. -/
def onceReady : Client where
  answer history
    | .prepare .. => if history.isEmpty then .ok () else .error "busy"
    | .createContainer .. | .deleteContainer .. => .ok ()
    | .send .. => .ok { status := 200 }
    | .deploy .. => .ok ∅

/-- A definition that declares nothing. -/
def bare : Definition := { scope := .resourceGroup, filePath := "f" }

/-- A scenario without steps. -/
def idle : Scenario := { position := 0, name := "s" }

/-- A run without any variables. -/
def bareRun : Result :=
  runScenario { suffixes := ⟨[], 0⟩ } onceReady bare idle {}

theorem reached_bareRun : Reached onceReady bareRun.session [bareRun.report] :=
  (Reached.new {} ⟨[], 0⟩).run bare idle {}

theorem failed_bareRun : ∃ scope message,
    bareRun.session.scopes.get? (bareRun.session.scopeKey bare idle) = some scope ∧
      scope.status = .failed message := by
  have hany : (bareRun.session.scopes.get? (bareRun.session.scopeKey bare idle)).any
      (fun scope => scope.status.message?.isSome) = true := by
    decide +kernel
  obtain ⟨scope, hscope, hfailed⟩ := (Option.any_eq_true _ _).1 hany
  cases hstatus : scope.status with
  | failed message => exact ⟨scope, message, hscope, hstatus⟩
  | _ => rw [hstatus] at hfailed; cases hfailed

theorem provisioned_once_bareRun :
    ∃ scope message, bareRun.session.scopes.get? (bareRun.session.scopeKey bare idle) = some scope ∧
      scope.status = .failed message ∧
        creations (callsOn (bareRun.session.scopeKey bare idle) bareRun.session.trace) ≤ 1 ∧
          Barred (bareRun.session.openScope bare idle {}).2 onceReady idle scope message
            (bareRun.session.runScenario onceReady bare idle {}) := by
  obtain ⟨scope, message, hscope, hfailed⟩ := failed_bareRun
  have honce := provisioned_once reached_bareRun hscope
  exact ⟨scope, message, hscope, hfailed, honce.1,
    (honce.2.2.2.2 bare idle {}).2 message hfailed rfl⟩

/-- A run in a scope that could not be provisioned does not come to the recorded failure if the
client does not get ready for it. -/
theorem not_forall_recorded :
    ¬ ∀ (client : Client) (session : Session) (reports : List ScenarioReport)
      (definition : Definition) (scenario : Scenario) (caller : Environment) (scope : RuntimeScope)
      (message : String), Reached client session reports →
      session.scopes.get? (session.scopeKey definition scenario) = some scope →
      scope.status = .failed message →
      ∃ cleanup, (session.runScenario client definition scenario caller).outcome =
        Run.settle scenario.name (.error (.provisioning scope.name message)) cleanup := by
  intro hrecorded
  obtain ⟨scope, message, hscope, hfailed⟩ := failed_bareRun
  obtain ⟨cleanup, houtcome⟩ :=
    hrecorded onceReady bareRun.session _ bare idle {} scope message reached_bareRun hscope hfailed
  have hbusy : ((bareRun.session.runScenario onceReady bare idle {}).outcome matches
      .error (.scenario _ (.client ..))) = true := by
    decide +kernel
  rw [houtcome] at hbusy
  cases cleanup <;> cases hbusy

end Session

end Rehearsal
