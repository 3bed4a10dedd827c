import Rehearsal.Proofs.Run.Course

/-!
# Sessions and their scopes

The sessions that runs lead to from one in which nothing has run (`Session.Reached`), and the
account of a scope in such a session: what was exchanged for it and what was reported on it. A fact
about a scope and its account that holds of new scopes and that every course of a run keeps holds of
all scopes of such a session (`Session.Reached.accounts`).
-/

namespace Rehearsal

/-- The exchanges for a scope. -/
def callsOn (key : String) (trace : List Exchange) : List Exchange :=
  trace.filter fun x => x.scope == key

/-- The reports on the steps of the runs in a scope. -/
def reportsOn (key : String) (reports : List ScenarioReport) : List StepReport :=
  (reports.filter fun r => r.scope == key).flatMap fun r => r.steps

section accounts

variable {key : String} {trace calls : List Exchange} {reports : List ScenarioReport}

theorem callsOn_append : callsOn key (trace ++ calls) = callsOn key trace ++ callsOn key calls :=
  List.filter_append trace calls

theorem callsOn_eq_self (h : ∀ x ∈ calls, x.scope = key) : callsOn key calls = calls :=
  List.filter_eq_self.2 fun x hx => by simp [h x hx]

theorem callsOn_eq_nil {other : String} (h : ∀ x ∈ calls, x.scope = other) (hne : key ≠ other) :
    callsOn key calls = [] :=
  List.filter_eq_nil_iff.2 fun x hx => by simp [h x hx, Ne.symm hne]

theorem reportsOn_append_same {r : ScenarioReport} (h : r.scope = key) :
    reportsOn key (reports ++ [r]) = reportsOn key reports ++ r.steps := by
  simp [reportsOn, h]

theorem reportsOn_append_other {r : ScenarioReport} (h : r.steps = [] ∨ r.scope ≠ key) :
    reportsOn key (reports ++ [r]) = reportsOn key reports := by
  rcases h with h | h
  · by_cases hscope : r.scope = key <;> simp [reportsOn, hscope, h]
  · simp [reportsOn, h]

end accounts

/-- A scope that is built is named and has the steps of its definition, and nobody needed it yet. -/
theorem RuntimeScope.build_eq_ok {definition : Definition} {key : String} {caller : Environment}
    {g g' : Suffixes} {scope : RuntimeScope}
    (h : RuntimeScope.build definition key caller g = .ok (scope, g')) :
    scope.name = key ∧ scope.kind = definition.scope ∧
      scope.prepareSteps = definition.prepareSteps ∧
      scope.cleanupSteps = definition.cleanupSteps ∧ scope.status = .unprovisioned := by
  unfold build at h
  dsimp only at h
  generalize Layer.applyPatches _ definition.vars _ = patched at h
  cases patched with
  | error e => cases h
  | ok layer =>
    cases h
    exact ⟨rfl, rfl, rfl, rfl, rfl⟩

namespace Session

/-- The sessions that runs of scenarios lead to from a session in which nothing has run, with the
reports on the runs. -/
inductive Reached (client : Client) : Session → List ScenarioReport → Prop
  | new (options : Options) (suffixes : Suffixes) : Reached client { options, suffixes } []
  | run {session : Session} {reports : List ScenarioReport} (h : Reached client session reports)
      (definition : Definition) (scenario : Scenario) (caller : Environment) :
      Reached client (session.runScenario client definition scenario caller).session
        (reports ++ [(session.runScenario client definition scenario caller).report])

variable {session opened : Session} {client : Client} {definition : Definition}
  {scenario : Scenario} {caller : Environment} {scope : RuntimeScope}
  {reports : List ScenarioReport}

/-- Scenarios that run one after the other lead on. -/
theorem Reached.runScenarios (h : Reached client session reports) (definition : Definition)
    (caller : Environment) (scenarios : List Scenario) :
    Reached client (session.runScenarios client definition caller scenarios).1
      (reports ++ (session.runScenarios client definition caller scenarios).2) := by
  induction scenarios generalizing session reports with
  | nil => simpa [Session.runScenarios] using h
  | cons scenario rest ih =>
    rw [Session.runScenarios]
    simpa using ih (h.run definition scenario caller)

/-! ### One run -/

/-- The name under which the scope of a scenario is kept. -/
def scopeKey (session : Session) (definition : Definition) (scenario : Scenario) : String :=
  definition.filePath ++ "#" ++ (session.scopeLabel scenario).1

/-- A scope is opened: it was there, or it is built. Nothing else changes but the generator of
suffixes. -/
structure Opens (session : Session) (definition : Definition) (caller : Environment) (key : String)
    (scope : RuntimeScope) (opened : Session) : Prop where
  options : opened.options = session.options
  trace : opened.trace = session.trace
  found : opened.scopes.get? key = some scope
  others : ∀ other, other ≠ key → opened.scopes.get? other = session.scopes.get? other
  source : session.scopes.get? key = some scope ∨
    session.scopes.get? key = none ∧
      ∃ g g', RuntimeScope.build definition key caller g = .ok (scope, g')

/-- Scopes that were there stay as they are. -/
theorem Opens.get?_eq {key other : String} {found : RuntimeScope}
    (h : session.Opens definition caller key scope opened)
    (hfound : session.scopes.get? other = some found) : opened.scopes.get? other = some found := by
  by_cases hother : other = key
  · subst hother
    rcases h.source with hold | ⟨hnone, -⟩
    · rw [h.found, ← hold, hfound]
    · rw [hnone] at hfound
      cases hfound
  · rw [h.others other hother, hfound]

theorem opens_openScope
    (h : session.openScope definition scenario caller = (.ok scope, opened)) :
    session.Opens definition caller (session.scopeKey definition scenario) scope opened := by
  unfold openScope at h
  dsimp only at h
  split at h
  · next found hfound =>
    cases h
    exact ⟨rfl, rfl, hfound, fun _ _ => rfl, .inl hfound⟩
  · next hmissing =>
    split at h
    · next built g hbuilt =>
      cases h
      refine ⟨rfl, rfl, ?_, fun other hne => ?_, .inr ⟨hmissing, _, _, hbuilt⟩⟩
      · rw [Dict.get?_insert]
        exact if_pos rfl
      · rw [Dict.get?_insert]
        exact if_neg hne
    · cases h

theorem openScope_of_found
    (h : session.scopes.get? (session.scopeKey definition scenario) = some scope)
    (caller : Environment) :
    session.openScope definition scenario caller =
      (.ok scope, { session with suffixes := (session.scopeLabel scenario).2 }) := by
  rw [scopeKey] at h
  simp only [openScope, h]

/-- A session whose scope cannot be built has the scopes it had. -/
theorem openScope_error {e : VariableError}
    (h : session.openScope definition scenario caller = (.error e, opened)) :
    opened.options = session.options ∧ opened.trace = session.trace ∧
      opened.scopes = session.scopes := by
  unfold openScope at h
  dsimp only at h
  split at h
  · cases h
  · split at h
    · cases h
    · cases h
      exact ⟨rfl, rfl, rfl⟩

/-- What a run of a scenario comes to: a scope cannot be opened, or the run cannot be started in
it, or the scenario is performed. -/
inductive Runs (session : Session) (client : Client) (definition : Definition) (scenario : Scenario)
    (caller : Environment) : Result → Prop
  | unopened {opened : Session} {e : VariableError}
      (opens : session.openScope definition scenario caller = (.error e, opened)) :
      Runs session client definition scenario caller (opened.failed scenario "" caller e)
  | unstarted {opened : Session} {scope : RuntimeScope} {e : VariableError}
      (opens : session.openScope definition scenario caller = (.ok scope, opened))
      (starts : opened.start scenario scope = .error e) :
      Runs session client definition scenario caller
        (opened.failed scenario scope.name scope.environment e)
  | performed {opened : Session} {scope : RuntimeScope} {run run' : Run}
      {outcome : Except RunError Unit}
      (opens : session.openScope definition scenario caller = (.ok scope, opened))
      (starts : opened.start scenario scope = .ok run)
      (performs : Run.perform opened.options client scenario run = (outcome, run'))
      (error : Option String) :
      Runs session client definition scenario caller
        { session := opened.resume run'
          report := { scenario := scenario.name, scope := scope.name, steps := run'.steps, error }
          outcome }

theorem runs_runScenario (session : Session) (client : Client) (definition : Definition)
    (scenario : Scenario) (caller : Environment) :
    session.Runs client definition scenario caller
      (session.runScenario client definition scenario caller) := by
  rw [runScenario]
  rcases hopen : session.openScope definition scenario caller with ⟨e | scope, opened⟩
  · exact .unopened hopen
  · dsimp only
    cases hstart : opened.start scenario scope with
    | error e => exact .unstarted hopen hstart
    | ok run => exact .performed hopen hstart rfl _

theorem start_eq_ok {run : Run} (h : session.start scenario scope = .ok run) :
    run.scenario = scenario.name ∧ run.position = scenario.position ∧ run.scope = scope ∧
      run.trace = session.trace ∧ run.steps = [] := by
  unfold start at h
  cases hlayer : Layer.within scope.environment scenario.vars with
  | error e => rw [hlayer] at h; cases h
  | ok layer =>
    rw [hlayer] at h
    cases h
    exact ⟨rfl, rfl, rfl, rfl, rfl⟩

/-! ### The account of a scope -/

/-- A fact holds of every scope of a session, of what was exchanged for it and of what was reported
on it; and names that no scope has have no account. -/
structure Accounts (P : RuntimeScope → List Exchange → List StepReport → Prop) (session : Session)
    (reports : List ScenarioReport) : Prop where
  name : ∀ key scope, session.scopes.get? key = some scope → scope.name = key
  known : ∀ key scope, session.scopes.get? key = some scope →
    P scope (callsOn key session.trace) (reportsOn key reports)
  unknown : ∀ key, session.scopes.get? key = none →
    callsOn key session.trace = [] ∧ reportsOn key reports = []

namespace Accounts

variable {P : RuntimeScope → List Exchange → List StepReport → Prop} {key : String}

/-- Only scopes, the trace and the reports on steps matter. -/
theorem congr (h : Accounts P session reports) (hscopes : opened.scopes = session.scopes)
    (htrace : opened.trace = session.trace) {r : ScenarioReport} (hr : r.steps = []) :
    Accounts P opened (reports ++ [r]) where
  name := by rw [hscopes]; exact h.name
  known key := by rw [hscopes, htrace, reportsOn_append_other (.inl hr)]; exact h.known key
  unknown key := by rw [hscopes, htrace, reportsOn_append_other (.inl hr)]; exact h.unknown key

theorem opens (h : Accounts P session reports)
    (hopens : session.Opens definition caller key scope opened)
    (new : ∀ g g', RuntimeScope.build definition key caller g = .ok (scope, g') → P scope [] []) :
    Accounts P opened reports where
  name other found hfound := by
    by_cases hother : other = key
    · subst hother
      rw [hopens.found] at hfound
      cases hfound
      rcases hopens.source with hold | ⟨-, g, g', hbuilt⟩
      · exact h.name other scope hold
      · exact (RuntimeScope.build_eq_ok hbuilt).1
    · rw [hopens.others other hother] at hfound
      exact h.name other found hfound
  known other found hfound := by
    rw [hopens.trace]
    by_cases hother : other = key
    · subst hother
      rw [hopens.found] at hfound
      cases hfound
      rcases hopens.source with hold | ⟨hnone, g, g', hbuilt⟩
      · exact h.known other scope hold
      · -- A name that no scope had has no account.
        rw [(h.unknown other hnone).1, (h.unknown other hnone).2]
        exact new g g' hbuilt
    · rw [hopens.others other hother] at hfound
      exact h.known other found hfound
  unknown other hnone := by
    rw [hopens.trace]
    by_cases hother : other = key
    · subst hother
      rw [hopens.found] at hnone
      cases hnone
    · rw [hopens.others other hother] at hnone
      exact h.unknown other hnone

theorem resume (h : Accounts P session reports) {run run' : Run} {r : ScenarioReport}
    {calls : List Exchange} (hfound : session.scopes.get? run'.scope.name = some run.scope)
    (htrace : run'.trace = session.trace ++ calls)
    (hcalls : ∀ x ∈ calls, x.scope = run'.scope.name) (hr : r.scope = run'.scope.name)
    (hscope : P run.scope (callsOn run'.scope.name session.trace)
        (reportsOn run'.scope.name reports) →
      P run'.scope (callsOn run'.scope.name session.trace ++ calls)
        (reportsOn run'.scope.name reports ++ r.steps)) :
    Accounts P (session.resume run') (reports ++ [r]) where
  name other found hother := by
    simp only [Session.resume, Dict.get?_insert] at hother
    split at hother
    · next heq =>
      cases hother
      exact heq.symm
    · exact h.name other found hother
  known other found hother := by
    simp only [Session.resume, Dict.get?_insert] at hother ⊢
    rw [htrace, callsOn_append]
    split at hother
    · next heq =>
      cases hother
      rw [heq, callsOn_eq_self hcalls, reportsOn_append_same hr]
      exact hscope (h.known run'.scope.name run.scope hfound)
    · next hne =>
      rw [callsOn_eq_nil hcalls hne, List.append_nil,
        reportsOn_append_other (.inr fun heq => hne (heq.symm.trans hr))]
      exact h.known other found hother
  unknown other hother := by
    simp only [Session.resume, Dict.get?_insert] at hother ⊢
    rw [htrace, callsOn_append]
    split at hother
    · cases hother
    · next hne =>
      rw [callsOn_eq_nil hcalls hne, List.append_nil,
        reportsOn_append_other (.inr fun heq => hne (heq.symm.trans hr))]
      exact h.unknown other hother

end Accounts

/-- **What holds of new scopes and is kept by every run in them holds of all scopes.** -/
theorem Reached.accounts_of_perform {P : RuntimeScope → List Exchange → List StepReport → Prop}
    (h : Reached client session reports)
    (new : ∀ {definition : Definition} {key : String} {caller : Environment} {g g' : Suffixes}
      {scope : RuntimeScope}, RuntimeScope.build definition key caller g = .ok (scope, g') →
      P scope [] [])
    (keeps : ∀ {options : Options} {scenario : Scenario} {run run' : Run}
      {before calls : List Exchange} {earlier reports : List StepReport} {status : ProvisionStatus}
      {result : Except RunError Unit}, P run.scope before earlier →
      Run.perform options client scenario run = (result, run') →
      Course options scenario run calls reports status result →
      (run.withStatus status).Advances calls reports run' →
      P run'.scope (before ++ calls) (earlier ++ reports)) :
    Accounts P session reports := by
  induction h with
  | new options suffixes => exact ⟨nofun, nofun, fun _ _ => ⟨rfl, rfl⟩⟩
  | @run session reports _ definition scenario caller ih =>
    generalize hresult : session.runScenario client definition scenario caller = result
    have hruns := session.runs_runScenario client definition scenario caller
    rw [hresult] at hruns
    cases hruns with
    | unopened opens =>
      obtain ⟨-, htrace, hscopes⟩ := openScope_error opens
      exact ih.congr hscopes htrace rfl
    | unstarted opens starts =>
      exact (ih.opens (opens_openScope opens) fun _ _ hbuilt => new hbuilt).congr rfl rfl rfl
    | @performed opened scope run run' outcome opens starts performs error =>
      have hopens := opens_openScope opens
      have hopened := ih.opens hopens fun _ _ hbuilt => new hbuilt
      obtain ⟨-, -, hscope, htrace, hsteps⟩ := start_eq_ok starts
      obtain ⟨calls, steps, status, hadvances, hcourse⟩ :=
        Run.course_perform opened.options client scenario run
      rw [performs] at hadvances hcourse
      have hname : run'.scope.name = run.scope.name := by rw [hadvances.scope]; rfl
      have hreports : run'.steps = steps := by
        rw [hadvances.steps]
        exact congrArg (· ++ steps) hsteps
      have hfound : opened.scopes.get? run'.scope.name = some run.scope := by
        rw [hname, hscope, hopened.name _ _ hopens.found]
        exact hopens.found
      have hcalls : ∀ x ∈ calls, x.scope = run'.scope.name := fun x hx =>
        (hcourse.scope_eq hx).trans hname.symm
      refine hopened.resume hfound (htrace ▸ hadvances.trace) hcalls ?_ fun hbefore => ?_
      · rw [hname, hscope]
      · dsimp only
        rw [hreports]
        exact keeps hbefore performs hcourse hadvances

/-- What is kept by every course of a run holds of all scopes. -/
theorem Reached.accounts {P : RuntimeScope → List Exchange → List StepReport → Prop}
    (h : Reached client session reports)
    (new : ∀ {definition : Definition} {key : String} {caller : Environment} {g g' : Suffixes}
      {scope : RuntimeScope}, RuntimeScope.build definition key caller g = .ok (scope, g') →
      P scope [] [])
    (keeps : ∀ {options : Options} {scenario : Scenario} {run run' : Run}
      {before calls : List Exchange} {earlier reports : List StepReport} {status : ProvisionStatus}
      {result : Except RunError Unit}, P run.scope before earlier →
      Course options scenario run calls reports status result →
      (run.withStatus status).Advances calls reports run' →
      P run'.scope (before ++ calls) (earlier ++ reports)) :
    Accounts P session reports :=
  h.accounts_of_perform new fun hbefore _ hcourse hadvances => keeps hbefore hcourse hadvances

theorem Reached.name_of_opens (h : Reached client session reports) {key : String}
    (hopens : session.Opens definition caller key scope opened) : scope.name = key := by
  have haccounts : Accounts (fun _ _ _ => True) session reports :=
    h.accounts (fun _ => trivial) fun _ _ _ => trivial
  exact (haccounts.opens hopens fun _ _ _ => trivial).name key scope hopens.found

/-- The next run ends before the client is asked for anything, or it is performed in a scope that has
an account. -/
theorem Reached.perform_runScenario {P : RuntimeScope → List Exchange → List StepReport → Prop}
    (h : Reached client session reports) (accounts : Accounts P session reports)
    (new : ∀ {key : String} {g g' : Suffixes} {scope : RuntimeScope},
      RuntimeScope.build definition key caller g = .ok (scope, g') → P scope [] [])
    (scenario : Scenario) :
    (session.runScenario client definition scenario caller).session.trace = session.trace ∨
      ∃ run run' : Run,
        P run.scope (callsOn run.scope.name session.trace) (reportsOn run.scope.name reports) ∧
          run.trace = session.trace ∧
          Run.perform session.options client scenario run =
            ((session.runScenario client definition scenario caller).outcome, run') ∧
          (session.runScenario client definition scenario caller).session.trace = run'.trace ∧
          (session.runScenario client definition scenario caller).session.scopes.get?
            run'.scope.name = some run'.scope := by
  have hruns := session.runs_runScenario client definition scenario caller
  generalize session.runScenario client definition scenario caller = result at hruns ⊢
  cases hruns with
  | unopened opens => exact .inl (openScope_error opens).2.1
  | unstarted opens starts => exact .inl (opens_openScope opens).trace
  | @performed opened scope run run' outcome opens starts performs error =>
    have hopens := opens_openScope opens
    obtain ⟨-, -, hscope, htrace, -⟩ := start_eq_ok starts
    have hkey := h.name_of_opens hopens
    refine .inr ⟨run, run', ?_, htrace.trans hopens.trace, hopens.options ▸ performs, rfl, ?_⟩
    · rw [← hopens.trace, hscope, hkey]
      exact (accounts.opens hopens fun _ _ hbuilt => new hbuilt).known _ _ hopens.found
    · simp [Session.resume, Dict.get?_insert]

/-- The next run ends before the client is asked for anything, or it takes a course in a scope that
has an account. -/
theorem Reached.course_runScenario {P : RuntimeScope → List Exchange → List StepReport → Prop}
    (h : Reached client session reports) (accounts : Accounts P session reports)
    (new : ∀ {key : String} {g g' : Suffixes} {scope : RuntimeScope},
      RuntimeScope.build definition key caller g = .ok (scope, g') → P scope [] [])
    (scenario : Scenario) :
    (session.runScenario client definition scenario caller).session.trace = session.trace ∨
      ∃ (run : Run) (scope' : RuntimeScope) (calls : List Exchange) (steps : List StepReport)
        (status : ProvisionStatus),
        P run.scope (callsOn run.scope.name session.trace) (reportsOn run.scope.name reports) ∧
          Course session.options scenario run calls steps status
            (session.runScenario client definition scenario caller).outcome ∧
          (session.runScenario client definition scenario caller).session.trace =
            session.trace ++ calls ∧
          (session.runScenario client definition scenario caller).session.scopes.get?
            run.scope.name = some scope' ∧
          scope' = { run.scope with layer := scope'.layer, status } := by
  rcases h.perform_runScenario accounts new scenario with
    htrace | ⟨run, run', haccount, htrace, performs, htrace', hfound⟩
  · exact .inl htrace
  · obtain ⟨calls, steps, status, hadvances, hcourse⟩ :=
      Run.course_perform session.options client scenario run
    rw [performs] at hadvances hcourse
    have hname : run'.scope.name = run.scope.name := by rw [hadvances.scope]; rfl
    refine .inr ⟨run, run'.scope, calls, steps, status, haccount, hcourse, ?_, hname ▸ hfound,
      hadvances.scope⟩
    rw [htrace', ← htrace]
    exact hadvances.trace

end Session

end Rehearsal
