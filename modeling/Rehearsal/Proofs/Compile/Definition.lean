import Rehearsal.Compile
import Rehearsal.Proofs.Compile.Step

/-!
# Where a scenario gets its names

Along the steps of a scenario every name that a step takes from the environment has a source: a
declaration of the draft, a step whose variables are declared before it, the kind of the scope, or
the list of names that the scenario demands from outside (`Sources.draws_compile`). What the steps
of a definition set is declared before its scenarios are compiled, so among these steps are those
that clean up, although they only run behind a scenario.
-/

namespace Rehearsal

namespace Compile

variable {setting : Setting} {phase : Phase} {outer : Option Declarations}
  {owner : Declarations} {label : String} {taken : List String}

/-- A step that compiles has a reference and a name that was not taken. -/
theorem labelledStep_eq_ok {draft : Draft.Step} {outcome : Outcome}
    (h : labelledStep setting phase outer taken owner label draft = .ok outcome) :
    ∃ reference name, draft.reference = .ok reference ∧ name ∉ taken ∧
      step setting phase outer owner draft reference name = .ok outcome := by
  unfold labelledStep at h
  split at h
  · cases h
  · next reference hreference =>
    dsimp only at h
    split at h
    · cases h
    · next hfree =>
      generalize hstep : step setting phase outer owner draft reference _ = result at h
      cases result with
      | error e => cases h
      | ok result =>
        cases h
        exact ⟨reference, _, hreference, hfree, hstep⟩

theorem draws_labelledStep {draft : Draft.Step} {outcome : Outcome}
    (h : labelledStep setting phase outer taken owner label draft = .ok outcome) :
    Declarations.Grows outcome.step.Sets owner outcome.owner ∧
      ∃ reference, draft.reference = .ok reference ∧
        Draws setting draft reference (Available setting draft owner [] outer outcome.owner)
          outcome.step := by
  obtain ⟨reference, name, hreference, -, hstep⟩ := labelledStep_eq_ok h
  obtain ⟨hgrows, hdraws⟩ := draws_step hstep
  exact ⟨hgrows, reference, hreference, hdraws⟩

/-- What is available behind one more step. -/
theorem Available.cons {draft : Draft.Step} {owner' owner'' : Declarations} {s : Step}
    {earlier : List Step} {name : String}
    (h : Available setting draft owner' earlier outer owner'' name)
    (hgrows : Declarations.Grows s.Sets owner owner') :
    Available setting draft owner (s :: earlier) outer owner'' name := by
  cases h with
  | own h => exact .own h
  | owner h =>
    rcases hgrows.declared name h with h | h
    · exact .owner h
    · exact .earlier List.mem_cons_self h
  | earlier hs h => exact .earlier (List.mem_cons_of_mem s hs) h
  | outer hscope h => exact .outer hscope h
  | demanded h => exact .demanded h
  | provided h => exact .provided h

theorem Available.mono {draft : Draft.Step} {earlier : List Step} {owner' owner'' : Declarations}
    {name : String} (h : Available setting draft owner earlier outer owner' name)
    (howner : ∀ name ∈ owner'.required, name ∈ owner''.required) :
    Available setting draft owner earlier outer owner'' name := by
  cases h with
  | own h => exact .own h
  | owner h => exact .owner h
  | earlier hs h => exact .earlier hs h
  | outer hscope h => exact .outer hscope h
  | demanded h => exact .demanded (howner name h)
  | provided h => exact .provided h

/-- Steps that run together: every draft has its step, and what a step takes from the environment is
available behind the steps before it. -/
structure DrawsAll (setting : Setting) (owner : Declarations) (outer : Option Declarations)
    (drafts : List Draft.Step) (owner' : Declarations) (steps : List Step) : Prop where
  length : steps.length = drafts.length
  draws : ∀ (j : Nat) (s : Step) (draft : Draft.Step), steps[j]? = some s → drafts[j]? = some draft →
    ∃ reference, draft.reference = .ok reference ∧
      Draws setting draft reference
        (Available setting draft owner (steps.take j) outer owner') s

theorem draws_steps {index : Nat} {drafts : List Draft.Step} {batch : Batch}
    (h : steps setting phase outer label index taken owner drafts = .ok batch) :
    Declarations.Grows (fun name => ∃ s ∈ batch.steps, s.Sets name) owner batch.owner ∧
      DrawsAll setting owner outer drafts batch.owner batch.steps := by
  induction drafts generalizing index taken owner batch with
  | nil =>
    cases h
    exact ⟨.refl _ _, rfl, fun _ _ _ hs => nomatch hs⟩
  | cons draft drafts ih =>
    rw [steps] at h
    obtain ⟨outcome, hfirst, h⟩ := exists_of_bind_eq_ok h
    obtain ⟨rest, hrest, h⟩ := exists_of_bind_eq_ok h
    obtain ⟨hgrows, reference, hreference, hdraws⟩ := draws_labelledStep hfirst
    obtain ⟨hgrows', hlength, hothers⟩ := ih hrest
    cases h
    refine ⟨(hgrows.mono fun name hsets => ⟨_, List.mem_cons_self, hsets⟩).trans
      (hgrows'.mono fun name ⟨s, hs, hsets⟩ => ⟨s, List.mem_cons_of_mem _ hs, hsets⟩),
      congrArg (· + 1) hlength, fun j s other hs hother => ?_⟩
    cases j with
    | zero =>
      cases hs
      cases hother
      exact ⟨reference, hreference, hdraws.mono fun name hname => hname.mono hgrows'.required⟩
    | succ j =>
      obtain ⟨reference', hreference', hdraws'⟩ := hothers j s other hs hother
      exact ⟨reference', hreference', hdraws'.mono fun name hname => hname.cons hgrows⟩

/-- A scenario demands what the definition around it demands. -/
theorem draws_scenario {outer : Declarations} {index : Nat} {draft : Draft.Scenario}
    {compiled : Scenario} {specs : List String}
    (h : scenario setting outer index draft = .ok (compiled, specs)) :
    (∀ name ∈ outer.required, name ∈ compiled.vars.required) ∧
      ∃ vars, declareAll [outer] draft.vars = .ok vars ∧
        DrawsAll setting vars (some outer) draft.steps compiled.vars compiled.steps := by
  obtain ⟨vars, hvars, h⟩ := exists_of_bind_eq_ok h
  obtain ⟨batch, hbatch, h⟩ := exists_of_bind_eq_ok h
  obtain ⟨hgrows, hlength, hdraws⟩ := draws_steps hbatch
  cases h
  refine ⟨fun name hname => Declarations.mem_required_foldl_require.2 (.inr hname), vars, hvars, hlength,
    fun j s other hs hother => ?_⟩
  obtain ⟨reference, hreference, hdraws⟩ := hdraws j s other hs hother
  exact ⟨reference, hreference, hdraws.mono fun name hname => hname.mono fun name hname =>
    Declarations.mem_required_foldl_require.2 (.inl hname)⟩

theorem scenario_of_scenarios {outer : Declarations} {index : Nat} {drafts : List Draft.Scenario}
    {results : List (Scenario × List String)}
    (h : scenarios setting outer index drafts = .ok results) :
    results.length = drafts.length ∧
      ∀ (i : Nat) (result : Scenario × List String) (draft : Draft.Scenario),
        results[i]? = some result → drafts[i]? = some draft →
        scenario setting outer (index + i) draft = .ok result := by
  induction drafts generalizing index results with
  | nil =>
    cases h
    exact ⟨rfl, fun _ _ _ hresult => nomatch hresult⟩
  | cons draft drafts ih =>
    rw [scenarios] at h
    obtain ⟨first, hfirst, h⟩ := exists_of_bind_eq_ok h
    obtain ⟨rest, hrest, h⟩ := exists_of_bind_eq_ok h
    obtain ⟨hlength, hothers⟩ := ih hrest
    cases h
    refine ⟨congrArg (· + 1) hlength, fun i result other hresult hother => ?_⟩
    cases i with
    | zero =>
      cases hresult
      cases hother
      exact hfirst
    | succ i =>
      have hscenario := hothers i result other hresult hother
      rwa [Nat.add_right_comm] at hscenario

end Compile

open Compile

/-- What a draft in a file is compiled against. -/
def Sources.setting (sources : Sources) (scope : ScopeKind) (path : String) : Setting :=
  { sources, scope, directory := (Path.parse path).parent? }

/-- How a draft is compiled: first its variables, then the steps that prepare and clean up, and then
the scenarios, which see all that the definition has come to declare. -/
structure Sources.Compiles (sources : Sources) (draft : Draft.Definition) (path : String)
    (definition : Definition) (own : Declarations) (prepare cleanup : Batch)
    (scenarios : List (Scenario × List String)) : Prop where
  declares : definitionScope definition.scope draft.vars = .ok own
  prepares : steps (sources.setting definition.scope path) .prepare none "prepare" 0 [] own
    draft.prepareSteps = .ok prepare
  cleansUp : steps (sources.setting definition.scope path) .cleanup none "cleanup" 0
    (prepare.steps.map Step.name) prepare.owner draft.cleanupSteps = .ok cleanup
  plays : Compile.scenarios (sources.setting definition.scope path) cleanup.owner 0
    draft.scenarios = .ok scenarios
  prepareSteps : definition.prepareSteps = prepare.steps
  cleanupSteps : definition.cleanupSteps = cleanup.steps
  scenarios_eq : definition.scenarios = scenarios.map Prod.fst
  vars_eq : definition.vars = cleanup.owner

variable {sources : Sources} {draft : Draft.Definition} {path : String} {definition : Definition}

theorem Sources.compile_eq_ok (h : sources.compile draft path = .ok definition) :
    ScopeKind.parse draft.scope = some definition.scope ∧ definition.filePath = path ∧
      ∃ own prepare cleanup scenarios,
        sources.Compiles draft path definition own prepare cleanup scenarios ∧
          definition.referencedSpecs = (prepare.specs ++ cleanup.specs ++
            scenarios.flatMap Prod.snd).foldl Declarations.appendNew [] := by
  unfold Sources.compile at h
  dsimp only at h
  split at h
  · next scope hscope =>
    obtain ⟨_, hpure, h⟩ := exists_of_bind_eq_ok h
    cases hpure
    obtain ⟨own, hown, h⟩ := exists_of_bind_eq_ok h
    obtain ⟨prepare, hprepare, h⟩ := exists_of_bind_eq_ok h
    obtain ⟨cleanup, hcleanup, h⟩ := exists_of_bind_eq_ok h
    obtain ⟨scenarios, hscenarios, h⟩ := exists_of_bind_eq_ok h
    cases h
    exact ⟨hscope, rfl, own, prepare, cleanup, scenarios,
      ⟨hown, hprepare, hcleanup, hscenarios, rfl, rfl, rfl, rfl⟩, rfl⟩
  · cases h

theorem Sources.compiles_of_compile (h : sources.compile draft path = .ok definition) :
    ∃ own prepare cleanup scenarios,
      sources.Compiles draft path definition own prepare cleanup scenarios := by
  obtain ⟨-, -, own, prepare, cleanup, scenarios, hcompiles, -⟩ := Sources.compile_eq_ok h
  exact ⟨own, prepare, cleanup, scenarios, hcompiles⟩

theorem Sources.Compiles.scenario_eq_ok {own : Declarations} {prepare cleanup : Batch}
    {results : List (Scenario × List String)}
    (h : sources.Compiles draft path definition own prepare cleanup results) {i : Nat}
    {draftScenario : Draft.Scenario} {compiled : Scenario}
    (hdraft : draft.scenarios[i]? = some draftScenario)
    (hscenario : definition.scenarios[i]? = some compiled) :
    ∃ specs, scenario (sources.setting definition.scope path) definition.vars i draftScenario =
      .ok (compiled, specs) := by
  obtain ⟨-, hscenarios⟩ := scenario_of_scenarios h.plays
  rw [h.scenarios_eq, List.getElem?_map, Option.map_eq_some_iff] at hscenario
  obtain ⟨⟨_, specs⟩, hresult, rfl⟩ := hscenario
  have hscenario := hscenarios i _ draftScenario hresult hdraft
  rw [Nat.zero_add, ← h.vars_eq] at hscenario
  exact ⟨specs, hscenario⟩

theorem Compile.definitionScope_eq_ok {scope : ScopeKind} {vars : Dict Declaration}
    {own : Declarations} (h : definitionScope scope vars = .ok own) :
    (∀ name ∈ scope.impliedRequirements, name ∈ own.required) ∧
      ∀ name, own.contains name = true → vars.contains name = true := by
  rw [definitionScope] at h
  cases hvars : declareAll [] vars with
  | error e => rw [hvars] at h; cases h
  | ok declared =>
    rw [hvars] at h
    cases h
    refine ⟨fun name hname => Declarations.mem_required_foldl_require.2 (.inr hname), fun name hname => ?_⟩
    have hgrows : Declarations.Grows (fun _ => False) declared
        (scope.impliedRequirements.foldl Declarations.require declared) :=
      .foldl (fun name _ scope => .require _ scope name) declared
    rcases hgrows.declared name hname with hname | hfalse
    · exact contains_of_declareAll hvars (.inl hname)
    · exact hfalse.elim

/-- What a definition demands and declares in the end: all that the kind of its scope implies, and no
more than what its draft declares and its steps set. -/
theorem Sources.Compiles.grown {own : Declarations} {prepare cleanup : Batch}
    {results : List (Scenario × List String)}
    (h : sources.Compiles draft path definition own prepare cleanup results) :
    (∀ name ∈ definition.scope.impliedRequirements, name ∈ cleanup.owner.required) ∧
      ∀ name, cleanup.owner.contains name = true → draft.vars.contains name = true ∨
        ∃ s ∈ definition.prepareSteps ++ definition.cleanupSteps, s.Sets name := by
  obtain ⟨himplied, hown⟩ := definitionScope_eq_ok h.declares
  obtain ⟨hprepare, -⟩ := draws_steps h.prepares
  obtain ⟨hcleanup, -⟩ := draws_steps h.cleansUp
  refine ⟨fun name hname => hcleanup.required _ (hprepare.required _ (himplied _ hname)),
    fun name hname => ?_⟩
  rw [h.prepareSteps, h.cleanupSteps]
  rcases hcleanup.declared name hname with hname | ⟨s, hs, hsets⟩
  · rcases hprepare.declared name hname with hname | ⟨s, hs, hsets⟩
    · exact .inl (hown name hname)
    · exact .inr ⟨s, List.mem_append_left _ hs, hsets⟩
  · exact .inr ⟨s, List.mem_append_right _ hs, hsets⟩

/-- A step of a definition is what a step of its draft was compiled to. -/
inductive Definition.Yields (definition : Definition) (draft : Draft.Definition) :
    Draft.Step → Step → Prop
  | prepare {j : Nat} {draftStep : Draft.Step} {step : Step}
      (hdraft : draft.prepareSteps[j]? = some draftStep)
      (hstep : definition.prepareSteps[j]? = some step) : Yields definition draft draftStep step
  | cleanup {j : Nat} {draftStep : Draft.Step} {step : Step}
      (hdraft : draft.cleanupSteps[j]? = some draftStep)
      (hstep : definition.cleanupSteps[j]? = some step) : Yields definition draft draftStep step
  | scenario {i j : Nat} {draftScenario : Draft.Scenario} {scenario : Scenario}
      {draftStep : Draft.Step} {step : Step}
      (hdraftScenario : draft.scenarios[i]? = some draftScenario)
      (hscenario : definition.scenarios[i]? = some scenario)
      (hdraft : draftScenario.steps[j]? = some draftStep)
      (hstep : scenario.steps[j]? = some step) : Yields definition draft draftStep step

/-- What a step of a definition was compiled from stands among steps that were compiled together. -/
theorem Sources.exists_steps_of_yields (h : sources.compile draft path = .ok definition)
    {draftStep : Draft.Step} {step : Step} (hyields : definition.Yields draft draftStep step) :
    ∃ phase outer label taken owner drafts batch, ∃ j : Nat,
      steps (sources.setting definition.scope path) phase outer label 0 taken owner drafts =
        .ok batch ∧
      drafts[j]? = some draftStep ∧ batch.steps[j]? = some step := by
  obtain ⟨own, prepare, cleanup, results, hcompiles⟩ := Sources.compiles_of_compile h
  cases hyields with
  | prepare hdraft hstep =>
    exact ⟨_, _, _, _, _, _, _, _, hcompiles.prepares, hdraft, hcompiles.prepareSteps ▸ hstep⟩
  | cleanup hdraft hstep =>
    exact ⟨_, _, _, _, _, _, _, _, hcompiles.cleansUp, hdraft, hcompiles.cleanupSteps ▸ hstep⟩
  | scenario hdraftScenario hscenario hdraft hstep =>
    obtain ⟨specs, hcompiled⟩ := hcompiles.scenario_eq_ok hdraftScenario hscenario
    obtain ⟨vars, -, hrest⟩ := exists_of_bind_eq_ok hcompiled
    obtain ⟨batch, hbatch, hrest⟩ := exists_of_bind_eq_ok hrest
    cases hrest
    exact ⟨_, _, _, _, _, _, _, _, hbatch, hdraft, hstep⟩

/-- Wherever a step runs, its values are given or taken from the environment. -/
theorem Sources.draws_of_yields (h : sources.compile draft path = .ok definition)
    {draftStep : Draft.Step} {step : Step} (hyields : definition.Yields draft draftStep step) :
    ∃ reference, draftStep.reference = .ok reference ∧
      Draws (sources.setting definition.scope path) draftStep reference (fun _ => True) step := by
  obtain ⟨_, _, _, _, _, _, _, j, hsteps, hdraft, hstep⟩ := Sources.exists_steps_of_yields h hyields
  obtain ⟨reference, hreference, hdraws⟩ := (draws_steps hsteps).2.draws j step draftStep hstep hdraft
  exact ⟨reference, hreference, hdraws.mono fun _ _ => trivial⟩

/-- Where a step of a scenario gets a name from: the scenario demands it, or the draft declares it in
the step, the scenario or the definition, or one of some steps sets it, or the scope binds it as its
container. -/
inductive Supplied (draft : Draft.Definition) (draftScenario : Draft.Scenario)
    (draftStep : Draft.Step) (kind : ScopeKind) (scenario : Scenario) (setters : List Step)
    (name : String) : Prop
  | demanded (h : name ∈ scenario.vars.required)
  | declared (h : draftStep.vars.contains name = true ∨ draftScenario.vars.contains name = true ∨
      draft.vars.contains name = true)
  | set {s : Step} (hs : s ∈ setters) (h : s.Sets name)
  | container (hkind : kind = .resourceGroup) (h : name = ReservedName.container)

/-- **Every name that a step takes has a source.** Whatever a step of a scenario takes from the
environment, the scenario demands it, the draft declares it, or a step sets it whose variables are
declared before it. The subscription that a deployment takes is demanded wherever the kind of the
scope says so. -/
theorem Sources.draws_compile (h : sources.compile draft path = .ok definition) :
    definition.scenarios.length = draft.scenarios.length ∧
      ∀ (i : Nat) (scenario : Scenario) (draftScenario : Draft.Scenario),
        definition.scenarios[i]? = some scenario → draft.scenarios[i]? = some draftScenario →
        scenario.steps.length = draftScenario.steps.length ∧
          (definition.scope = .resourceGroup ∨ definition.scope = .subscription →
            ReservedName.subscription ∈ scenario.vars.required) ∧
          ∀ (j : Nat) (step : Step) (draftStep : Draft.Step),
            scenario.steps[j]? = some step → draftScenario.steps[j]? = some draftStep →
            ∃ reference, draftStep.reference = .ok reference ∧
              Draws (sources.setting definition.scope path) draftStep reference
                (Supplied draft draftScenario draftStep definition.scope scenario
                  (definition.prepareSteps ++ definition.cleanupSteps ++ scenario.steps.take j))
                step := by
  obtain ⟨own, prepare, cleanup, results, hcompiles⟩ := Sources.compiles_of_compile h
  obtain ⟨himplied, hdeclared⟩ := hcompiles.grown
  obtain ⟨hlength, hscenarios⟩ := scenario_of_scenarios hcompiles.plays
  rw [hcompiles.scenarios_eq]
  refine ⟨by rw [List.length_map, hlength], fun i scenario draftScenario hscenario hdraft => ?_⟩
  rw [List.getElem?_map, Option.map_eq_some_iff] at hscenario
  obtain ⟨⟨_, specs⟩, hresult, rfl⟩ := hscenario
  obtain ⟨hrequired, vars, hvars, hlength', hsteps⟩ :=
    draws_scenario (hscenarios i _ draftScenario hresult hdraft)
  refine ⟨hlength', fun hkind => hrequired _ (himplied _ ?_),
    fun j step draftStep hstep hdraftStep => ?_⟩
  · rcases hkind with hkind | hkind
    · rw [hkind]
      exact List.mem_cons_self
    · rw [hkind]
      exact List.mem_cons_self
  · obtain ⟨reference, hreference, hdraws⟩ := hsteps j step draftStep hstep hdraftStep
    refine ⟨reference, hreference, hdraws.mono fun name hname => ?_⟩
    cases hname with
    | own h => exact .declared (.inl h)
    | owner h => exact .declared (.inr (.inl (contains_of_declareAll hvars (.inl h))))
    | earlier hs h => exact .set (List.mem_append_right _ hs) h
    | outer hscope h =>
      cases hscope
      rcases h with hcontains | hdemanded
      · rcases hdeclared name hcontains with hdraft | ⟨s, hs, hsets⟩
        · exact .declared (.inr (.inr hdraft))
        · exact .set (List.mem_append_left _ hs) hsets
      · exact .demanded (hrequired name hdemanded)
    | demanded h => exact .demanded h
    | provided h =>
      rw [Setting.provides, Bool.and_eq_true, beq_iff_eq] at h
      exact .container (ScopeKind.eq_of_needsContainer h.2) h.1

/-! ### Names that nobody supplies in time -/

namespace Compile

/-- Two operations, the second of which has a parameter in its path. -/
def twoOperations : Sources where
  index :=
    { own :=
        { operations := Dict.ofList
            [("o", ⟨{ id := "o", method := .get, path := "/", apiVersion := "1" }, "s"⟩),
              ("p", ⟨{ id := "p", method := .get, path := "/\x7bx\x7d", apiVersion := "1",
                       parameters := [{ name := "x", location := .path }] }, "s"⟩)] } }
  files := ⟨fun _ => .ok ""⟩

/-- A step that calls the second operation. -/
def calling : Draft.Step := { name := some "a", operationId := some "p" }

/-- A step that runs a script. -/
def scripting : Draft.Step := { name := some "b", script := some "f.sh" }

/-- A scenario of both. -/
def callingAndScripting : Draft.Scenario := { steps := [calling, scripting] }

/-- A draft without a scope in which only the cleanup sets the parameter. -/
def lateSetting : Draft.Definition where
  scope := some "None"
  cleanupSteps :=
    [{ name := some "c", operationId := some "o", outputVariables := Dict.ofList [("x", {})] }]
  scenarios := [callingAndScripting]

/-- What the draft is compiled to. -/
structure SetLate (definition : Definition) (scenario : Scenario) (call : RestCallStep)
    (deployment : DeploymentStep) : Prop where
  scope : definition.scope = .unscoped
  prepareSteps : definition.prepareSteps = []
  scenarios : definition.scenarios = [scenario]
  required : scenario.vars.required = []
  steps : scenario.steps = [.rest call, .deployment deployment]
  parameters : call.parameters.contains "x" = true
  outputs : call.header.outputs.contains ReservedName.subscription = false

/-- Whether a definition is one that `lateSetting` can be compiled to. -/
def setsLate (definition : Definition) : Bool :=
  match definition with
  | { scope := .unscoped, prepareSteps := [],
      scenarios := [{ vars := { required := [], .. }, steps := [.rest call, .deployment _], .. }], .. } =>
    call.parameters.contains "x" && !call.header.outputs.contains ReservedName.subscription
  | _ => false

theorem exists_setLate {definition : Definition} (h : setsLate definition = true) :
    ∃ scenario call deployment, SetLate definition scenario call deployment := by
  unfold setsLate at h
  split at h
  · rw [Bool.and_eq_true, Bool.not_eq_true'] at h
    exact ⟨_, _, _, rfl, rfl, rfl, rfl, rfl, h.1, h.2⟩
  · cases h

theorem setLate_lateSetting : ∃ definition scenario call deployment,
    twoOperations.compile lateSetting "f" = .ok definition ∧
      SetLate definition scenario call deployment := by
  have hcheck : (twoOperations.compile lateSetting "f").toOption.any setsLate = true := by
    decide +kernel
  obtain ⟨definition, hcompile, hlate⟩ := exists_ok_of_any hcheck
  obtain ⟨scenario, call, deployment, hlate⟩ := exists_setLate hlate
  exact ⟨definition, scenario, call, deployment, hcompile, hlate⟩

end Compile

/-- The parameter of the first step comes from the cleanup. -/
theorem Sources.draws_compile_lateSetting : ∃ definition,
    twoOperations.compile lateSetting "f" = .ok definition ∧
      ∀ scenario, definition.scenarios[0]? = some scenario →
        ∀ step, scenario.steps[0]? = some step →
          ∃ reference, calling.reference = .ok reference ∧
            Draws (twoOperations.setting definition.scope "f") calling reference
              (Supplied lateSetting callingAndScripting calling definition.scope scenario
                (definition.prepareSteps ++ definition.cleanupSteps ++ scenario.steps.take 0))
              step := by
  obtain ⟨definition, -, -, -, hcompile, -⟩ := setLate_lateSetting
  refine ⟨definition, hcompile, fun scenario hscenario step hstep => ?_⟩
  exact ((Sources.draws_compile hcompile).2 0 scenario callingAndScripting hscenario rfl).2.2 0 step
    calling hstep rfl

/-- A step may take a name that only the cleanup sets, which runs behind it. -/
theorem Sources.not_forall_supplied :
    ¬ ∀ (sources : Sources) (draft : Draft.Definition) (path : String) (definition : Definition),
      sources.compile draft path = .ok definition →
      ∀ (i : Nat) (scenario : Scenario) (draftScenario : Draft.Scenario),
        definition.scenarios[i]? = some scenario → draft.scenarios[i]? = some draftScenario →
        ∀ (j : Nat) (step : Step) (draftStep : Draft.Step),
          scenario.steps[j]? = some step → draftScenario.steps[j]? = some draftStep →
          (∃ reference, draftStep.reference = .ok reference ∧
            Draws (sources.setting definition.scope path) draftStep reference
              (Supplied draft draftScenario draftStep definition.scope scenario
                (definition.prepareSteps ++ scenario.steps.take j)) step) ∧
          (step.kind = .deployment →
            Supplied draft draftScenario draftStep definition.scope scenario
              (definition.prepareSteps ++ scenario.steps.take j) ReservedName.subscription) := by
  intro hall
  obtain ⟨definition, scenario, call, deployment, hcompile, hlate⟩ := setLate_lateSetting
  obtain ⟨⟨reference, hreference, hdraws⟩, -⟩ := hall twoOperations lateSetting "f" definition hcompile
    0 scenario callingAndScripting (by rw [hlate.scenarios]; rfl) rfl 0 (.rest call) calling
    (by rw [hlate.steps]; rfl) rfl
  cases hreference
  cases hdraws with
  | request isGiven edited drawn =>
    cases isGiven
    cases (updateDict_nil _).symm.trans edited
    obtain ⟨value, hvalue⟩ := Option.isSome_iff_exists.1 hlate.parameters
    rcases drawn "x" value hvalue with ⟨hversion, -⟩ | hgiven | ⟨-, hsupplied⟩
    · exact absurd hversion (by decide)
    · cases hgiven
    · cases hsupplied with
      | demanded h => rw [hlate.required] at h; cases h
      | declared h => exact absurd h (by decide)
      | set hs => rw [hlate.prepareSteps] at hs; cases hs
      | container hkind => rw [hlate.scope] at hkind; cases hkind

/-- Without a scope nobody has to supply the subscription that a deployment takes. -/
theorem Sources.not_forall_subscribed :
    ¬ ∀ (sources : Sources) (draft : Draft.Definition) (path : String) (definition : Definition),
      sources.compile draft path = .ok definition →
      ∀ (i : Nat) (scenario : Scenario) (draftScenario : Draft.Scenario),
        definition.scenarios[i]? = some scenario → draft.scenarios[i]? = some draftScenario →
        ∀ (j : Nat) (step : Step) (draftStep : Draft.Step),
          scenario.steps[j]? = some step → draftScenario.steps[j]? = some draftStep →
          step.kind = .deployment →
          Supplied draft draftScenario draftStep definition.scope scenario
            (definition.prepareSteps ++ scenario.steps.take j) ReservedName.subscription := by
  intro hall
  obtain ⟨definition, scenario, call, deployment, hcompile, hlate⟩ := setLate_lateSetting
  have hsupplied := hall twoOperations lateSetting "f" definition hcompile 0 scenario
    callingAndScripting (by rw [hlate.scenarios]; rfl) rfl 1 (.deployment deployment) scripting
    (by rw [hlate.steps]; rfl) rfl rfl
  cases hsupplied with
  | demanded h => rw [hlate.required] at h; cases h
  | declared h => exact absurd h (by decide)
  | set hs h =>
    rw [hlate.prepareSteps, hlate.steps] at hs
    rw [List.mem_singleton.1 hs] at h
    rcases h with h | h
    · rw [Step.header, hlate.outputs] at h
      cases h
    · exact h
  | container hkind => rw [hlate.scope] at hkind; cases hkind

end Rehearsal
