import Rehearsal.Proofs.Run.Footprint
import Rehearsal.Proofs.Session.Container
import Rehearsal.Proofs.Session.Inheritance

/-!
# What runs leave in a session

A run develops the scope that it opens and leaves all others alone
(`Session.Reached.develops_opened`), and of that scope it changes nothing but what the steps that
prepare it and clean it up set. So all that a scenario sets and declares is gone with its run: the
next one starts in a scope that no step of another scenario has written to
(`Session.Reached.isolated`). A caller's environment is read when a scope is built for it, and never
written; all scenarios of a definition run for the same one.
-/

namespace Rehearsal

/-- An exchange of a step that prepares a scope or cleans it up. -/
def Exchange.Maintains (x : Exchange) (scope : RuntimeScope) : Prop :=
  ∃ s, x.call.step? = some s ∧
    (x.phase = .prepare ∧ s ∈ scope.prepareSteps ∨ x.phase = .cleanup ∧ s ∈ scope.cleanupSteps)

theorem Exchange.written_of_scenario {x : Exchange} (h : x.phase = .scenario) : x.written = [] := by
  rw [written, h]

/-- The account of what a scope holds: it was built for a caller, and since then some exchanges were
written to it, each of which was made for a step that prepares the scope or cleans it up. -/
structure RuntimeScope.Maintained (scope : RuntimeScope) (calls : List Exchange) : Prop where
  built : ∃ definition caller g g' initial,
    RuntimeScope.build definition scope.name caller g = .ok (initial, g') ∧
      initial.Writes calls scope
  maintains : ∀ x ∈ calls, x.written ≠ [] → x.Maintains scope

section course

variable {options : Options} {scenario : Scenario} {run : Run} {calls : List Exchange}
  {reports : List StepReport} {status : ProvisionStatus} {result : Except RunError Unit}

/-- The calls of a run are made for steps of its scope or of the scenario, or for no step. -/
theorem Course.of_mem (h : Course options scenario run calls reports status result) {x : Exchange}
    (hx : x ∈ calls) :
    x.call.step? = none ∨ x.Maintains run.scope ∨
      x.phase = .scenario ∧ ∃ s ∈ scenario.steps, x.call.step? = some s := by
  cases h with
  | unready =>
    rw [List.mem_singleton.1 hx]
    exact .inl rfl
  | performed provisioning working cleaning =>
    rcases List.mem_cons.1 hx with rfl | hx
    · exact .inl rfl
    rcases List.mem_append.1 hx with hx | hx
    rcases List.mem_append.1 hx with hx | hx
    · obtain ⟨hstage, hcreates | ⟨s, hs, hstep⟩⟩ := provisioning.of_mem hx
      · exact .inl (Call.step?_of_creation hcreates)
      · exact .inr (.inl ⟨s, hstep, .inl ⟨congrArg Stage.phase hstage, hs⟩⟩)
    · obtain ⟨hstage, hstep⟩ := working.of_mem hx
      exact .inr (.inr ⟨congrArg Stage.phase hstage, hstep⟩)
    · obtain ⟨hstage, hdeletes | ⟨s, hs, hstep⟩⟩ := cleaning.of_mem hx
      · exact .inl (Call.step?_of_deletion hdeletes)
      · exact .inr (.inl ⟨s, hstep, .inr ⟨congrArg Stage.phase hstage, hs⟩⟩)

/-- What a run writes to its scope comes from steps of the scope. -/
theorem Course.maintains (h : Course options scenario run calls reports status result)
    {x : Exchange} (hx : x ∈ calls) (hwritten : x.written ≠ []) : x.Maintains run.scope := by
  rcases h.of_mem hx with hnone | hmaintains | ⟨hphase, -⟩
  · exact absurd (Exchange.written_eq_nil hnone) hwritten
  · exact hmaintains
  · exact absurd (Exchange.written_of_scenario hphase) hwritten

end course

namespace RuntimeScope.Maintained

theorem new {definition : Definition} {key : String} {caller : Environment} {g g' : Suffixes}
    {scope : RuntimeScope} (h : RuntimeScope.build definition key caller g = .ok (scope, g')) :
    scope.Maintained [] where
  built := by
    refine ⟨definition, caller, g, g', scope, ?_, .refl scope⟩
    rw [(RuntimeScope.build_eq_ok h).1]
    exact h
  maintains _ hx := nomatch hx

/-- A run in a scope keeps up its account. -/
theorem keeps {options : Options} {client : Client} {scenario : Scenario} {run run' : Run}
    {before calls : List Exchange} {reports : List StepReport} {status : ProvisionStatus}
    {result : Except RunError Unit} (h : run.scope.Maintained before)
    (performs : Run.perform options client scenario run = (result, run'))
    (hcourse : Course options scenario run calls reports status result)
    (hadvances : (run.withStatus status).Advances calls reports run') :
    run'.scope.Maintained (before ++ calls) := by
  -- The run changes neither the name nor the steps of its scope.
  have hscope : run'.scope = { run.scope with layer := run'.scope.layer, status } := hadvances.scope
  have htrace : (Run.perform options client scenario run).2.trace = run.trace ++ calls := by
    rw [performs]
    exact hadvances.trace
  have hrun := Run.writes_perform htrace
  rw [performs] at hrun
  obtain ⟨definition, caller, g, g', initial, hbuilt, hwrites⟩ := h.built
  refine ⟨⟨definition, caller, g, g', initial, ?_, hwrites.trans hrun⟩, fun x hx hwritten => ?_⟩
  · rw [hscope]
    exact hbuilt
  · rw [Exchange.Maintains, hscope]
    rcases List.mem_append.1 hx with hx | hx
    · exact h.maintains x hx hwritten
    · exact hcourse.maintains hx hwritten

end RuntimeScope.Maintained

namespace Run

variable {options : Options} {phase : Phase} {s : Step} {run after : Run} {env : Environment}

/-- What a step declares is in a layer of its own, and nothing else changes when that is made. -/
theorem stepEnvironment_frame (h : stepEnvironment options phase s run = (.ok env, after)) :
    env.outer = (run.environment phase).layers ∧ ∃ suffixes, after = { run with suffixes } := by
  simp only [stepEnvironment, Runs.get_bind_run] at h
  cases hlayer : Layer.within (run.environment phase) s.header.vars with
  | error e =>
    rw [hlayer] at h
    cases h
  | ok layer =>
    rw [hlayer] at h
    change (if options.resolveVariables then
        ofVariables ((run.environment phase).child (layer.materialize run.suffixes).1).resolveAll
      else pure ((run.environment phase).child (layer.materialize run.suffixes).1))
        { run with suffixes := (layer.materialize run.suffixes).2.2 } = _ at h
    split at h
    · cases hresolve : ((run.environment phase).child (layer.materialize run.suffixes).1).resolveAll with
      | error e =>
        rw [hresolve] at h
        cases h
      | ok resolved =>
        rw [hresolve] at h
        obtain ⟨_, -, hresolved⟩ := exists_of_bind_eq_ok hresolve
        cases h
        cases hresolved
        exact ⟨rfl, _, rfl⟩
    · cases h
      exact ⟨rfl, _, rfl⟩

end Run

namespace Session

variable {session opened after : Session} {client : Client} {definition : Definition}
  {scenario : Scenario} {caller : Environment} {key : String} {scope : RuntimeScope}
  {reports : List ScenarioReport}

theorem Reached.maintained (h : Reached client session reports) :
    Accounts (fun scope calls _ => scope.Maintained calls) session reports :=
  h.accounts_of_perform (fun hbuilt => .new hbuilt)
    fun hbefore performs hcourse hadvances => hbefore.keeps performs hcourse hadvances

/-- The scope that a run starts in, whether it was there or not. -/
theorem Reached.maintained_of_opens (h : Reached client session reports)
    (hopens : session.Opens definition caller key scope opened) :
    scope.Maintained (callsOn scope.name session.trace) := by
  have hopened := h.maintained.opens hopens fun _ _ hbuilt => .new hbuilt
  rw [h.name_of_opens hopens, ← hopens.trace]
  exact hopened.known key scope hopens.found

/-! ### One run -/

/-- What becomes of the scopes of a session while calls are made in the scope of one name: the
others stay as they are, and if there is none of that name it is built. -/
structure Develops (session : Session) (definition : Definition) (caller : Environment)
    (key : String) (calls : List Exchange) (after : Session) : Prop where
  trace : after.trace = session.trace ++ calls
  known : ∀ other scope, session.scopes.get? other = some scope →
    ∃ scope', after.scopes.get? other = some scope' ∧ scope.Writes (callsOn other calls) scope'
  new : ∀ other scope', session.scopes.get? other = none → after.scopes.get? other = some scope' →
    other = key ∧ ∃ g g' built, RuntimeScope.build definition key caller g = .ok (built, g') ∧
      built.Writes (callsOn other calls) scope'

theorem Develops.of_scopes (hscopes : after.scopes = session.scopes)
    (htrace : after.trace = session.trace) :
    session.Develops definition caller key [] after where
  trace := by rw [htrace, List.append_nil]
  known other scope hfound := ⟨scope, by rw [hscopes, hfound], .refl scope⟩
  new other scope' hnone hfound := by
    rw [hscopes, hnone] at hfound
    cases hfound

/-- A run in a scope that is there. -/
theorem Develops.resume {run' : Run} {calls : List Exchange}
    (hfound : session.scopes.get? key = some scope) (hname : run'.scope.name = key)
    (htrace : run'.trace = session.trace ++ calls) (hcalls : ∀ x ∈ calls, x.scope = key)
    (hwrites : scope.Writes calls run'.scope) :
    session.Develops definition caller key calls (session.resume run') where
  trace := htrace
  known other found hother := by
    simp only [Session.resume, Dict.get?_insert, hname]
    by_cases heq : other = key
    · subst heq
      cases hother.symm.trans hfound
      rw [if_pos rfl, callsOn_eq_self hcalls]
      exact ⟨_, rfl, hwrites⟩
    · rw [if_neg heq, callsOn_eq_nil hcalls heq]
      exact ⟨found, hother, .refl found⟩
  new other scope' hnone hother := by
    simp only [Session.resume, Dict.get?_insert, hname] at hother
    by_cases heq : other = key
    · rw [heq, hfound] at hnone
      cases hnone
    · rw [if_neg heq, hnone] at hother
      cases hother

/-- What happens in a scope that is opened first. -/
theorem Opens.develops {calls : List Exchange}
    (h : session.Opens definition caller key scope opened)
    (h' : opened.Develops definition caller key calls after) :
    session.Develops definition caller key calls after where
  trace := by rw [h'.trace, h.trace]
  known other found hfound := h'.known other found (h.get?_eq hfound)
  new other scope' hnone hfound := by
    by_cases hother : other = key
    · subst hother
      obtain ⟨developed, hdeveloped, hwrites⟩ := h'.known other scope h.found
      cases hfound.symm.trans hdeveloped
      -- There was no scope of the name, so the one that is opened has been built.
      rcases h.source with hold | ⟨-, g, g', hbuilt⟩
      · rw [hnone] at hold
        cases hold
      · exact ⟨rfl, g, g', scope, hbuilt, hwrites⟩
    · exact h'.new other scope' ((h.others other hother).trans hnone) hfound

/-- **A run develops the scope that it opens, and no other.** -/
theorem Reached.develops_opened (h : Reached client session reports)
    (opens : session.openScope definition scenario caller = (.ok scope, opened)) :
    ∃ calls, opened.Develops definition caller (session.scopeKey definition scenario) calls
      (session.runScenario client definition scenario caller).session := by
  have hruns := session.runs_runScenario client definition scenario caller
  generalize session.runScenario client definition scenario caller = result at hruns ⊢
  cases hruns with
  | unopened opens' =>
    rw [opens] at opens'
    cases opens'
  | unstarted opens' starts =>
    rw [opens] at opens'
    cases opens'
    exact ⟨[], .of_scopes rfl rfl⟩
  | @performed _ _ run run' outcome opens' starts performs error =>
    rw [opens] at opens'
    cases opens'
    have hopens := opens_openScope opens
    have hkey := h.name_of_opens hopens
    obtain ⟨-, -, hscope, htrace, -⟩ := start_eq_ok starts
    obtain ⟨calls, steps, status, hadvances, hcourse⟩ :=
      Run.course_perform opened.options client scenario run
    have hwrites := Run.writes_perform hadvances.trace
    rw [performs] at hadvances hcourse hwrites
    refine ⟨calls, .resume hopens.found ?_ (htrace ▸ hadvances.trace) ?_ (hscope ▸ hwrites)⟩
    · rw [hadvances.scope, ← hkey, ← hscope]
      rfl
    · intro x hx
      rw [hcourse.scope_eq hx, hscope, hkey]

theorem Reached.develops_runScenario (h : Reached client session reports) (definition : Definition)
    (scenario : Scenario) (caller : Environment) :
    ∃ calls, session.Develops definition caller (session.scopeKey definition scenario) calls
      (session.runScenario client definition scenario caller).session := by
  rcases opens : session.openScope definition scenario caller with ⟨e | scope, opened⟩
  · obtain ⟨-, htrace, hscopes⟩ := openScope_error opens
    rw [runScenario, opens]
    exact ⟨[], .of_scopes hscopes htrace⟩
  · obtain ⟨calls, hdevelops⟩ := h.develops_opened opens
    exact ⟨calls, (opens_openScope opens).develops hdevelops⟩

/-- Each scenario of several runs behind those before it, and for the same caller. -/
theorem getElem?_runScenarios (session : Session) (client : Client) (definition : Definition)
    (caller : Environment) (scenarios : List Scenario) (i : Nat) :
    (session.runScenarios client definition caller scenarios).2[i]? =
      scenarios[i]?.map fun scenario =>
        ((session.runScenarios client definition caller (scenarios.take i)).1.runScenario client
          definition scenario caller).report := by
  induction scenarios generalizing session i with
  | nil => rfl
  | cons scenario rest ih =>
    cases i with
    | zero => rfl
    | succ i =>
      rw [runScenarios, List.getElem?_cons_succ, List.getElem?_cons_succ, List.take_succ_cons,
        runScenarios]
      exact ih _ i

/-- **Runs are isolated from each other and from their caller.** In a session that runs lead to,
every scope is as it was built but for what the steps that prepare it and clean it up have set. A
further run writes nothing else to the scopes that it finds, and builds at most its own. While it
goes on, the scope and the variables of the scenario, which start with what it declares, are written
to by the steps of their own phases only, and what a step declares is in a layer of its own. The
caller is the same for all scenarios. -/
theorem Reached.isolated (h : Reached client session reports) (definition : Definition)
    (caller : Environment) :
    (∀ key scope, session.scopes.get? key = some scope →
      scope.Maintained (callsOn key session.trace)) ∧
    (∀ scenario, ∃ calls,
      session.Develops definition caller (session.scopeKey definition scenario) calls
        (session.runScenario client definition scenario caller).session) ∧
    (∀ scenario opened scope run,
      session.openScope definition scenario caller = (.ok scope, opened) →
      opened.start scenario scope = .ok run →
      run.scope = scope ∧ scope.Maintained (callsOn scope.name session.trace) ∧
        (∃ layer, Layer.within scope.environment scenario.vars = .ok layer ∧
          run.environment .scenario =
            scope.environment.child (layer.materialize opened.suffixes).1) ∧
        (∀ mid, run.Moves client mid → ∃ calls, run.Wrote calls mid) ∧
        ∀ options, run.Moves client (Run.perform options client scenario run).2) ∧
    (∀ options phase s run env after,
      Run.stepEnvironment options phase s run = (.ok env, after) →
      env.outer = (run.environment phase).layers ∧ ∃ suffixes, after = { run with suffixes }) ∧
    ∀ scenarios (i : Nat), (session.runScenarios client definition caller scenarios).2[i]? =
      scenarios[i]?.map fun scenario =>
        ((session.runScenarios client definition caller (scenarios.take i)).1.runScenario client
          definition scenario caller).report := by
  refine ⟨h.maintained.known, fun scenario => h.develops_runScenario definition scenario caller,
    fun scenario opened scope run opens starts => ?_,
    fun options phase s run env after hbuilt => Run.stepEnvironment_frame hbuilt,
    getElem?_runScenarios session client definition caller⟩
  have hopens := opens_openScope opens
  refine ⟨(start_eq_ok starts).2.2.1, h.maintained_of_opens hopens, environment_start starts,
    fun mid hmoves => hmoves.wrote, ?_⟩
  exact fun options => Run.moves_perform options client scenario run

/-! ### A scope that a scenario leaves alone -/

/-- A client that accepts everything and answers every deployment with one output, which is called
as the step is. -/
def answering : Client where
  answer _history
    | .prepare .. | .createContainer .. | .deleteContainer .. => .ok ()
    | .send .. => .ok { status := 200 }
    | .deploy step .. => .ok (Dict.ofList [(step.header.name, .int 5)])

/-- A step that deploys something. -/
def deployingAs (name : String) : Step :=
  .deployment { header := { name }, template := {}, sourceFile := "t" }

/-- A definition whose scope is prepared by a deployment. -/
def deployingFirst : Definition := { bare with prepareSteps := [deployingAs "a"] }

/-- A scenario that deploys something in a shared scope. -/
def deployingOnce : Scenario := { position := 0, name := "s", steps := [deployingAs "b"] }

/-- A run of this scenario. -/
def deployingRun : Result :=
  runScenario { suffixes := ⟨[], 0⟩ } answering deployingFirst deployingOnce supplied

theorem reached_deployingRun : Reached answering deployingRun.session [deployingRun.report] :=
  (Reached.new {} ⟨[], 0⟩).run deployingFirst deployingOnce supplied

/-- Behind the run its scope has what the deployment before the scenario brought, and nothing of the
one in the scenario. -/
theorem isolated_deployingRun : ∃ scope,
    deployingRun.session.scopes.get? "f#default" = some scope ∧
      scope.environment.contains "a" = true ∧ scope.environment.contains "b" = false ∧
      scope.Maintained (callsOn "f#default" deployingRun.session.trace) := by
  have hcheck : (deployingRun.session.scopes.get? "f#default").any (fun scope =>
      scope.environment.contains "a" && !scope.environment.contains "b") = true := by
    decide +kernel
  obtain ⟨scope, hfound, hscope⟩ := (Option.any_eq_true _ _).1 hcheck
  rw [Bool.and_eq_true, Bool.not_eq_true'] at hscope
  exact ⟨scope, hfound, hscope.1, hscope.2,
    (Reached.isolated reached_deployingRun deployingFirst supplied).1 _ scope hfound⟩

end Session

end Rehearsal
