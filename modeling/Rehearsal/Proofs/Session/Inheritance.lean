import Rehearsal.Proofs.Compile.Inheritance
import Rehearsal.Proofs.Run.Basic
import Rehearsal.Run

/-!
# Which value is patched

A scenario or a step may declare a container with patches and without a value. In the environment
that is built for it, the container has the patches applied to the value that it inherits
(`Sources.inherits_compile`): the one that the nearest declaration of the draft gives, and only if
that gives none the one that the environment around it holds when it is built. So patches that the
compiler applies and patches that wait come to the same only where both values are the same. They
are not if a caller supplies a value in the place of a declared one
(`Sources.not_forall_inherits_compile`), or if an earlier step sets one.
-/

namespace Rehearsal

open Compile

/-- Every container that is declared with patches and without a value has, in an environment, the
value that some others give its name, patched. -/
def PatchesApplied (vars : Dict Declaration) (base : String → Option Json) (built : Environment) :
    Prop :=
  ∀ name declaration patches, vars.get? name = some declaration →
    declaration.toVariable.pendingPatches? = some patches →
      PatchedFrom (base name) patches (built.value? name)

/-- The value that a name inherits: the one of its nearest declaration, or else the one in the
environment. -/
def inheritedFrom (around : List Declarations) (env : Environment) (name : String) : Option Json :=
  (declaredValue? around name).or (env.value? name)

/-! ### The environments of a run -/

theorem Session.environment_start {session : Session} {scenario : Scenario} {scope : RuntimeScope}
    {run : Run} (h : session.start scenario scope = .ok run) :
    ∃ layer, Layer.within scope.environment scenario.vars = .ok layer ∧
      run.environment .scenario =
        scope.environment.child (layer.materialize session.suffixes).1 := by
  obtain ⟨layer, hlayer, h⟩ := exists_of_bind_eq_ok h
  cases h
  exact ⟨layer, hlayer, rfl⟩

namespace Run

variable {options : Options} {phase : Phase} {s : Step} {run after : Run} {built : Environment}

/-- The placeholders in the environment of a step are resolved behind everything else. -/
theorem stepEnvironment_eq_bind (options : Options) (phase : Phase) (s : Step) :
    stepEnvironment options phase s =
      stepEnvironment { options with resolveVariables := false } phase s >>= fun env =>
        if options.resolveVariables then ofVariables env.resolveAll else return env := by
  funext run
  simp only [stepEnvironment, Runs.bind_run, Runs.get_run]
  cases Layer.within (run.environment phase) s.header.vars with
  | error e => rfl
  | ok layer => rfl

/-- The environment of a step before its placeholders are resolved. -/
theorem stepEnvironment_eq_ok
    (h : stepEnvironment { options with resolveVariables := false } phase s run =
      (.ok built, after)) :
    ∃ layer, Layer.within (run.environment phase) s.header.vars = .ok layer ∧
      built = (run.environment phase).child (layer.materialize run.suffixes).1 := by
  simp only [stepEnvironment, Runs.get_bind_run] at h
  cases hlayer : Layer.within (run.environment phase) s.header.vars with
  | error e =>
    rw [hlayer] at h
    cases h
  | ok layer =>
    rw [hlayer] at h
    cases h
    exact ⟨layer, rfl, rfl⟩

end Run

/-! ### Definitions -/

variable {sources : Sources} {draft : Draft.Definition} {path : String} {definition : Definition}

/-- What a step of a draft declares is compiled inside the scopes that the step sees. -/
theorem Sources.Sees.declareAll_header (h : sources.compile draft path = .ok definition)
    {draftStep : Draft.Step} {step : Step} {scopes : Scopes}
    (hsees : sources.Sees draft path definition draftStep step scopes) :
    declareAll (scopes.owner :: scopes.outer.toList) draftStep.vars = .ok step.header.vars := by
  obtain ⟨own, prepare, cleanup, results, hcompiles⟩ := Sources.compiles_of_compile h
  cases hsees with
  | prepare hown hdraft hstep hseen =>
    cases hcompiles.declares.symm.trans hown
    exact declareAll_of_seenAfter hcompiles.prepares hdraft (hcompiles.prepareSteps ▸ hstep) hseen
  | cleanup hown hprepare hdraft hstep hseen =>
    cases hcompiles.declares.symm.trans hown
    cases hcompiles.prepares.symm.trans hprepare
    exact declareAll_of_seenAfter hcompiles.cleansUp hdraft (hcompiles.cleanupSteps ▸ hstep) hseen
  | scenario hdraftScenario hscenario hvars hdraft hstep hseen =>
    obtain ⟨specs, hcompiled⟩ := hcompiles.scenario_eq_ok hdraftScenario hscenario
    obtain ⟨vars, hvars', hrest⟩ := exists_of_bind_eq_ok hcompiled
    cases hvars.symm.trans hvars'
    obtain ⟨batch, hbatch, hrest⟩ := exists_of_bind_eq_ok hrest
    cases hrest
    exact declareAll_of_seenAfter hbatch hdraft hstep hseen

/-- **Patches are applied to the inherited value.** When a scenario starts, each container that it
declares with patches and without a value has the patches applied to the value that the definition
declares, or if there is none to the value that its scope holds. The same holds in the environment of
a step before its placeholders are resolved (`Run.stepEnvironment_eq_bind`): there the value is that
of the nearest declaration among the scopes around the step that the compiler sees, or if there is
none the one in the environment of its phase. -/
theorem Sources.inherits_compile (h : sources.compile draft path = .ok definition) :
    definition.scenarios.length = draft.scenarios.length ∧
    (∀ (i : Nat) (draftScenario : Draft.Scenario) (scenario : Scenario),
      draft.scenarios[i]? = some draftScenario → definition.scenarios[i]? = some scenario →
      ∀ (session : Session) (scope : RuntimeScope) (run : Run),
        session.start scenario scope = .ok run →
        PatchesApplied draftScenario.vars (inheritedFrom [definition.vars] scope.environment)
          (run.environment .scenario)) ∧
    (∀ (draftStep : Draft.Step) (step : Step), definition.Yields draft draftStep step →
      ∃ scopes, sources.Sees draft path definition draftStep step scopes) ∧
    ∀ (draftStep : Draft.Step) (step : Step) (scopes : Scopes),
      sources.Sees draft path definition draftStep step scopes →
      ∀ (options : Options) (phase : Phase) (run after : Run) (built : Environment),
        Run.stepEnvironment { options with resolveVariables := false } phase step run =
          (.ok built, after) →
        PatchesApplied draftStep.vars
          (inheritedFrom (scopes.owner :: scopes.outer.toList) (run.environment phase)) built := by
  obtain ⟨own, prepare, cleanup, results, hcompiles⟩ := Sources.compiles_of_compile h
  refine ⟨?_, ?_, fun draftStep step => Sources.exists_sees h, ?_⟩
  · rw [hcompiles.scenarios_eq, List.length_map, (scenario_of_scenarios hcompiles.plays).1]
  · intro i draftScenario scenario hdraft hscenario session scope run hstart name declaration patches
      hget hpending
    obtain ⟨specs, hcompiled⟩ := hcompiles.scenario_eq_ok hdraft hscenario
    obtain ⟨stored, hstored, hinherits⟩ := inherits_scenario hcompiled hget hpending
    obtain ⟨layer, hlayer, henv⟩ := Session.environment_start hstart
    rw [henv]
    exact hinherits.patchedFrom_within hstored hlayer session.suffixes
  · intro draftStep step scopes hsees options phase run after built hbuilt name declaration patches
      hget hpending
    obtain ⟨stored, hstored, hinherits⟩ :=
      inherits_declareAll (hsees.declareAll_header h) hget hpending
    obtain ⟨layer, hlayer, rfl⟩ := Run.stepEnvironment_eq_ok hbuilt
    exact hinherits.patchedFrom_within hstored hlayer run.suffixes

/-! ### A caller that supplies another value -/

namespace Compile

/-- Tags that name a place. -/
def tagsOf (place : String) : Json := Json.ofMembers [("env", .str place)]

/-- Tags that name a place and an owner. -/
def ownedTagsOf (place : String) : Json :=
  Json.ofMembers [("env", .str place), ("owner", .str "qa")]

/-- The patches that add the owner. -/
def ownerAdded : List Json :=
  [Json.ofMembers [("op", .str "add"), ("path", .str "/owner"), ("value", .str "qa")]]

theorem apply_ownerAdded (place : String) :
    Patch.apply (tagsOf place) ownerAdded = .ok (ownedTagsOf place) := by
  have hsplit : "/owner".splitOn "/" = ["", "owner"] := by
    simp +decide [String.splitOn, String.splitOnAux]
  have hadd : Edit.apply (tagsOf place) (.add "/owner" (.str "qa")) = .ok (ownedTagsOf place) := by
    rw [Edit.apply, Pointer.parse, hsplit]
    rfl
  change Patch.applyEdits 0 (tagsOf place) [.add "/owner" (.str "qa")] = _
  rw [Patch.applyEdits, hadd]
  rfl

/-- A scenario that adds an owner to the tags around it. -/
def addingOwner : Draft.Scenario where
  vars := Dict.ofList [("tags", .full (.container .object { patches := some ownerAdded }))]

/-- A draft that declares tags for this scenario. -/
def tagged : Draft.Definition where
  scope := some "None"
  vars := Dict.ofList [("tags", .full (.container .object { value := some (tagsOf "dev") }))]
  scenarios := [addingOwner]

/-- What the definition of the draft declares. -/
def taggedOwn : Declarations where
  vars := Dict.ofList [("tags", .container .object { value := some (tagsOf "dev") })]

/-- What the scenario is compiled to. -/
def taggedScenario : Scenario where
  position := 0
  name := "scenario_0"
  vars := { vars := Dict.ofList [("tags", .container .object { value := some (ownedTagsOf "dev") })] }

/-- What the draft is compiled to. -/
def taggedDefinition : Definition where
  scope := .unscoped
  scenarios := [taggedScenario]
  vars := taggedOwn
  filePath := "f"

theorem inheritedValue_tagged :
    inheritedValue [taggedOwn] "tags" ownerAdded = .ok (some (ownedTagsOf "dev")) := by
  have hnearest : [taggedOwn].findSome? (·.get? "tags") =
      some (.container .object { value := some (tagsOf "dev") }) := rfl
  simp only [inheritedValue, List.isEmpty_cons, hnearest, Variable.value?, apply_ownerAdded]
  rfl

theorem declareAll_tagged : declareAll [taggedOwn] addingOwner.vars = .ok taggedScenario.vars := by
  change (declareOne [taggedOwn] {} "tags" (.container .object { patches := some ownerAdded }) >>=
    pure) = _
  rw [declareOne, if_neg (by decide), declareValueless, inheritedValue_tagged]
  rfl

theorem compile_tagged : emptyFiles.compile tagged "f" = .ok taggedDefinition := by
  have hscenario : scenario (emptyFiles.setting .unscoped "f") taggedOwn 0 addingOwner =
      .ok (taggedScenario, []) := by
    rw [scenario, declareAll_tagged]
    rfl
  change (scenarios (emptyFiles.setting .unscoped "f") taggedOwn 0 [addingOwner] >>= _) = _
  rw [scenarios, hscenario]
  rfl

/-- A caller with other tags. -/
def taggedElsewhere : Environment where
  inner := { vars := Dict.ofList [("tags", .container .object { value := some (tagsOf "prod") })] }

/-- For this caller the scenario starts in a scope that has the tags of the caller, and patches those
of the draft. -/
theorem exists_start_tagged : ∃ scope opened run,
    Session.openScope { suffixes := ⟨[], 0⟩ } taggedDefinition taggedScenario taggedElsewhere =
        (.ok scope, opened) ∧
      opened.start taggedScenario scope = .ok run ∧
      scope.environment.value? "tags" = some (tagsOf "prod") ∧
      (run.environment .scenario).value? "tags" = some (ownedTagsOf "dev") :=
  ⟨_, _, _, rfl, rfl, rfl, rfl⟩

end Compile

theorem Sources.inherits_compile_tagged : ∃ scope opened run,
    emptyFiles.compile tagged "f" = .ok taggedDefinition ∧
      Session.openScope { suffixes := ⟨[], 0⟩ } taggedDefinition taggedScenario taggedElsewhere =
        (.ok scope, opened) ∧
      opened.start taggedScenario scope = .ok run ∧
      PatchesApplied addingOwner.vars (inheritedFrom [taggedOwn] scope.environment)
        (run.environment .scenario) := by
  obtain ⟨scope, opened, run, opens, starts, -, -⟩ := exists_start_tagged
  exact ⟨scope, opened, run, compile_tagged, opens, starts,
    (Sources.inherits_compile compile_tagged).2.1 0 addingOwner taggedScenario rfl rfl opened scope run
      starts⟩

/-- The scenario patches the tags of the draft, although its scope has those of the caller. -/
theorem Sources.not_forall_inherits_compile :
    ¬ ∀ (sources : Sources) (draft : Draft.Definition) (path : String) (definition : Definition),
      sources.compile draft path = .ok definition →
      ∀ (i : Nat) (draftScenario : Draft.Scenario) (scenario : Scenario),
        draft.scenarios[i]? = some draftScenario → definition.scenarios[i]? = some scenario →
        ∀ (session opened : Session) (caller : Environment) (scope : RuntimeScope) (run : Run),
          session.openScope definition scenario caller = (.ok scope, opened) →
          opened.start scenario scope = .ok run →
          PatchesApplied draftScenario.vars scope.environment.value? (run.environment .scenario) := by
  intro hall
  obtain ⟨scope, opened, run, opens, starts, hprod, hdev⟩ := exists_start_tagged
  obtain ⟨original, patched, horiginal, hpatched, hvalue⟩ :=
    hall emptyFiles tagged "f" taggedDefinition compile_tagged 0 addingOwner taggedScenario rfl rfl _
      opened taggedElsewhere scope run opens starts "tags" _ ownerAdded rfl rfl
  cases hprod.symm.trans horiginal
  cases (apply_ownerAdded "prod").symm.trans hpatched
  have hplace : some (Json.str "dev") = some (Json.str "prod") :=
    congrArg (·.field? "env") (Option.some.inj (hdev.symm.trans hvalue))
  exact absurd (Json.str.inj (Option.some.inj hplace)) (by decide)

end Rehearsal
