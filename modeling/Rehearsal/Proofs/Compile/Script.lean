import Mathlib
import Rehearsal.Proofs.Compile.Secrecy

/-!
# What a deployment shows of the environment of its script

Every entry of the environment of a script is written into the template that a step deploys, either
so that the deployment shows its value or so that it does not. The compiler decides that from the
names that stand in the text of the entry: the value is hidden if and only if one of them is declared
secret in some scope that the step sees (`Sources.covers_compile`). What these names refer to is not
looked at, so an entry is shown whose text only leads to a secret.

* `Sources.Sees`: the scopes that a step of a draft sees;
* `Compile.Covers`: what is written of an entry.
-/

namespace Rehearsal

/-! ### What a template shows -/

theorem Assoc.get?_foldl_insert {α : Type} {members acc : List (String × α)} {name : String} :
    get? name (members.foldl (fun acc member => insert member.1 member.2 acc) acc) =
      (members.reverse.findSome? fun member => if name = member.1 then some member.2 else none).or
        (get? name acc) := by
  induction members generalizing acc with
  | nil => rfl
  | cons member rest ih =>
    rw [List.foldl_cons, ih, get?_insert, List.reverse_cons, List.findSome?_append, Option.or_assoc]
    congr 1
    rw [List.findSome?_singleton]
    split <;> rfl

/-- Of the members of a name the last one is looked up. -/
theorem Json.field?_ofMembers {members : List (String × Json)} {name : String} :
    (ofMembers members).field? name =
      members.reverse.findSome? fun member => if name = member.1 then some member.2 else none :=
  Assoc.get?_foldl_insert.trans Option.or_none

/-- The entries that a template writes for the environment of its script. -/
def Template.scriptEnvironment (t : Template) : List Json :=
  (t.resources.head? >>= (·.field? "properties") >>= (·.field? "environmentVariables") >>=
    Json.items?).getD []

theorem Script.scriptEnvironment_template (s : Script) :
    s.template.scriptEnvironment = s.environment.map ScriptEntry.toJson := by
  have hproperties : s.resource.field? "properties" = some s.properties := by
    rw [resource, Json.field?_ofMembers]
    rfl
  have hentries : s.properties.field? "environmentVariables" =
      if s.environment.isEmpty then none
      else some (Json.ofListWith ScriptEntry.toJson s.environment) := by
    have hversion : "environmentVariables" ≠ s.kind.version.1 := by cases s.kind <;> decide
    rw [properties, Json.ofFields, Json.field?_ofMembers]
    cases s.arguments <;> cases s.environment.isEmpty <;> simp [hversion]
  rw [Template.scriptEnvironment, template]
  simp only [List.head?_cons, Option.bind_eq_bind, Option.bind_some, hproperties, hentries]
  cases s.environment <;> rfl

theorem ScriptEntry.field?_toJson (entry : ScriptEntry) :
    entry.toJson.field? "name" = some (.str entry.name) ∧
      entry.toJson.field? "secureValue" = (if entry.secret then some (.str entry.value) else none) ∧
      entry.toJson.field? "value" = if entry.secret then none else some (.str entry.value) := by
  rw [toJson, Json.field?_ofMembers, Json.field?_ofMembers, Json.field?_ofMembers]
  cases entry.secret <;> exact ⟨rfl, rfl, rfl⟩

/-! ### Where a step stands -/

namespace Compile

variable {setting : Setting} {phase : Phase} {outer : Option Declarations} {label : String}
  {index : Nat} {taken : List String} {owner : Declarations} {drafts : List Draft.Step}
  {batch : Batch} {draft : Draft.Step} {s : Step} {scopes : Scopes} {path : String}

/-- The scopes that a step sees among steps that run together: what it declares itself, what their
owner declares behind the steps before it, and what is declared around the owner. -/
structure SeenAfter (setting : Setting) (phase : Phase) (outer : Option Declarations) (label : String)
    (taken : List String) (owner : Declarations) (before : List Draft.Step) (draft : Draft.Step)
    (scopes : Scopes) : Prop where
  step : declareAll (scopes.owner :: outer.toList) draft.vars = .ok scopes.step
  owner : ∃ batch, steps setting phase outer label 0 taken owner before = .ok batch ∧
    batch.owner = scopes.owner
  outer : scopes.outer = outer

/-- A step is compiled for the owner that the steps before it leave behind. -/
theorem exists_outcome_of_steps {j : Nat}
    (h : steps setting phase outer label index taken owner drafts = .ok batch)
    (hdraft : drafts[j]? = some draft) (hstep : batch.steps[j]? = some s) :
    ∃ before reference name outcome,
      steps setting phase outer label index taken owner (drafts.take j) = .ok before ∧
      draft.reference = .ok reference ∧
      step setting phase outer before.owner draft reference name = .ok outcome ∧ outcome.step = s := by
  induction drafts generalizing index taken owner batch j with
  | nil => cases hdraft
  | cons first drafts ih =>
    rw [steps] at h
    obtain ⟨outcome, hfirst, h⟩ := exists_of_bind_eq_ok h
    obtain ⟨rest, hrest, h⟩ := exists_of_bind_eq_ok h
    cases h
    cases j with
    | zero =>
      cases hdraft
      cases hstep
      obtain ⟨reference, name, hreference, -, houtcome⟩ := labelledStep_eq_ok hfirst
      exact ⟨{ owner }, reference, name, outcome, rfl, hreference, houtcome, rfl⟩
    | succ j =>
      obtain ⟨before, reference, name, other, hbefore, hreference, hother, hstep⟩ :=
        ih hrest hdraft hstep
      refine ⟨{ steps := outcome.step :: before.steps, owner := before.owner,
                specs := outcome.source.toList ++ before.specs },
        reference, name, other, ?_, hreference, hother, hstep⟩
      rw [List.take_succ_cons, steps, hfirst]
      change (steps setting phase outer label (index + 1) (outcome.step.name :: taken) outcome.owner
        (drafts.take j) >>= _) = _
      rw [hbefore]
      rfl

theorem exists_seenAfter {j : Nat}
    (h : steps setting phase outer label 0 taken owner drafts = .ok batch)
    (hdraft : drafts[j]? = some draft) (hstep : batch.steps[j]? = some s) :
    ∃ scopes, SeenAfter setting phase outer label taken owner (drafts.take j) draft scopes := by
  obtain ⟨before, reference, name, outcome, hbefore, -, houtcome, -⟩ :=
    exists_outcome_of_steps h hdraft hstep
  obtain ⟨vars, hvars, -⟩ := exists_of_bind_eq_ok houtcome
  exact ⟨{ step := vars, owner := before.owner, outer }, hvars, ⟨before, hbefore, rfl⟩, rfl⟩

/-! ### What is written of an entry -/

/-- How an entry is written into a deployment: its value is hidden if a name in its text is declared
secret, and shown if none is. So it is shown although the text leads to a secret if and only if no
name in the text is declared secret itself. -/
structure Covers (scopes : Scopes) (entry : Draft.ScriptVariable) (written : Json) : Prop where
  name : written.field? "name" = some (.str entry.name)
  hidden : (written.field? "secureValue" = some (.str entry.value) ∧ written.field? "value" = none) ↔
    ∃ n ∈ Placeholder.names entry.value, scopes.DeclaredSecret n
  shown : (written.field? "value" = some (.str entry.value) ∧ written.field? "secureValue" = none) ↔
    ∀ n ∈ Placeholder.names entry.value, ¬ scopes.DeclaredSecret n
  leaks : (written.field? "value" = some (.str entry.value) ∧
      ∃ n ∈ Placeholder.names entry.value, scopes.Secret n) ↔
    (∃ n ∈ Placeholder.names entry.value, scopes.Secret n) ∧
      ∀ n ∈ Placeholder.names entry.value, ¬ scopes.DeclaredSecret n

theorem secret_scriptEntry_iff (h : ∀ scope ∈ scopes.chain, scope.ListsSecure)
    (entry : Draft.ScriptVariable) :
    (scriptEntry scopes entry).secret = true ↔
      ∃ n ∈ Placeholder.names entry.value, scopes.DeclaredSecret n := by
  rw [scriptEntry, List.any_eq_true]
  simp only [Scopes.isSecret_iff_declaredSecret h]

theorem covers_scriptEntry (h : ∀ scope ∈ scopes.chain, scope.ListsSecure)
    (entry : Draft.ScriptVariable) : Covers scopes entry (scriptEntry scopes entry).toJson := by
  obtain ⟨hname, hsecure, hvalue⟩ := (scriptEntry scopes entry).field?_toJson
  have hnot : (∀ n ∈ Placeholder.names entry.value, ¬ scopes.DeclaredSecret n) ↔
      (scriptEntry scopes entry).secret = false := by
    rw [← Bool.not_eq_true, secret_scriptEntry_iff h]
    simp only [not_exists, not_and]
  rw [show (scriptEntry scopes entry).value = entry.value from rfl] at hsecure hvalue
  refine ⟨hname, ?_, ?_, ?_⟩
  · rw [hsecure, hvalue, ← secret_scriptEntry_iff h]
    cases (scriptEntry scopes entry).secret <;> simp
  · rw [hsecure, hvalue, hnot]
    cases (scriptEntry scopes entry).secret <;> simp
  · rw [hvalue, hnot]
    cases (scriptEntry scopes entry).secret <;> simp

theorem covers_scriptStep {header : StepHeader} {outcome : Outcome}
    (hscopes : ∀ scope ∈ scopes.chain, scope.ListsSecure)
    (h : scriptStep setting draft path scopes header = .ok outcome) :
    ∃ deployment, outcome.step = .deployment deployment ∧
      List.Forall₂ (Covers scopes) draft.environmentVariables
        deployment.template.scriptEnvironment := by
  obtain ⟨content, -, h⟩ := exists_of_bind_eq_ok h
  cases h
  refine ⟨_, rfl, ?_⟩
  rw [Script.scriptEnvironment_template, List.map_map, List.forall₂_map_right_iff]
  exact List.forall₂_same.2 fun entry _ => covers_scriptEntry hscopes entry

/-- What is written for a script among steps that run together. -/
theorem covers_of_seenAfter {j : Nat} (howner : owner.ListsSecure)
    (houter : ∀ scope ∈ outer, scope.ListsSecure)
    (h : steps setting phase outer label 0 taken owner drafts = .ok batch)
    (hdraft : drafts[j]? = some draft) (hstep : batch.steps[j]? = some s)
    (hseen : SeenAfter setting phase outer label taken owner (drafts.take j) draft scopes)
    (hreference : draft.reference = .ok (.script path)) :
    ∃ deployment, s = .deployment deployment ∧
      List.Forall₂ (Covers scopes) draft.environmentVariables
        deployment.template.scriptEnvironment := by
  obtain ⟨before, reference, name, outcome, hbefore, hreference', houtcome, rfl⟩ :=
    exists_outcome_of_steps h hdraft hstep
  cases hreference.symm.trans hreference'
  obtain ⟨hvars, ⟨before', hbefore', howner'⟩, houter'⟩ := hseen
  cases hbefore.symm.trans hbefore'
  obtain ⟨vars, hvars', houtcome⟩ := exists_of_bind_eq_ok houtcome
  rw [howner', hvars] at hvars'
  cases hvars'
  obtain ⟨inner, hinner, houtcome⟩ := exists_of_bind_eq_ok houtcome
  have hscopes : ∀ scope ∈ scopes.chain, scope.ListsSecure := by
    intro scope hmem
    rw [Scopes.chain, List.mem_cons, List.mem_cons, Option.mem_toList, houter'] at hmem
    rcases hmem with rfl | rfl | hmem
    · exact listsSecure_declareAll hvars
    · exact howner' ▸ listsSecure_steps howner hbefore
    · exact houter scope hmem
  have hsame : ({ step := scopes.step, owner := before.owner, outer } : Scopes) = scopes := by
    rw [howner', ← houter']
  rw [hsame] at hinner
  obtain ⟨deployment, hdeployment, hcovers⟩ := covers_scriptStep hscopes hinner
  cases houtcome
  rw [hdeployment]
  exact ⟨_, rfl, hcovers⟩

end Compile

open Compile

/-- The scopes that a step of a draft sees when it is compiled. A step that prepares or cleans up
belongs to the definition, and what the steps before it set is declared there; a step of a scenario
belongs to the scenario and sees the definition as it is in the end. -/
inductive Sources.Sees (sources : Sources) (draft : Draft.Definition) (path : String)
    (definition : Definition) : Draft.Step → Step → Scopes → Prop
  | prepare {own : Declarations} {j : Nat} {draftStep : Draft.Step} {step : Step} {scopes : Scopes}
      (hown : definitionScope definition.scope draft.vars = .ok own)
      (hdraft : draft.prepareSteps[j]? = some draftStep)
      (hstep : definition.prepareSteps[j]? = some step)
      (hseen : SeenAfter (sources.setting definition.scope path) .prepare none "prepare" [] own
        (draft.prepareSteps.take j) draftStep scopes) :
      Sees sources draft path definition draftStep step scopes
  | cleanup {own : Declarations} {prepare : Batch} {j : Nat} {draftStep : Draft.Step} {step : Step}
      {scopes : Scopes} (hown : definitionScope definition.scope draft.vars = .ok own)
      (hprepare : steps (sources.setting definition.scope path) .prepare none "prepare" 0 [] own
        draft.prepareSteps = .ok prepare)
      (hdraft : draft.cleanupSteps[j]? = some draftStep)
      (hstep : definition.cleanupSteps[j]? = some step)
      (hseen : SeenAfter (sources.setting definition.scope path) .cleanup none "cleanup"
        (prepare.steps.map Step.name) prepare.owner (draft.cleanupSteps.take j) draftStep scopes) :
      Sees sources draft path definition draftStep step scopes
  | scenario {i j : Nat} {draftScenario : Draft.Scenario} {scenario : Scenario} {vars : Declarations}
      {draftStep : Draft.Step} {step : Step} {scopes : Scopes}
      (hdraftScenario : draft.scenarios[i]? = some draftScenario)
      (hscenario : definition.scenarios[i]? = some scenario)
      (hvars : declareAll [definition.vars] draftScenario.vars = .ok vars)
      (hdraft : draftScenario.steps[j]? = some draftStep) (hstep : scenario.steps[j]? = some step)
      (hseen : SeenAfter (sources.setting definition.scope path) .scenario (some definition.vars)
        ("scenario_" ++ toString i) [] vars (draftScenario.steps.take j) draftStep scopes) :
      Sees sources draft path definition draftStep step scopes

variable {sources : Sources} {draft : Draft.Definition} {path : String} {definition : Definition}

theorem Sources.Sees.exists_declareAll {draftStep : Draft.Step} {step : Step} {scopes : Scopes}
    (h : sources.Sees draft path definition draftStep step scopes) :
    ∃ around, declareAll around draftStep.vars = .ok scopes.step := by
  cases h with
  | prepare _ _ _ hseen => exact ⟨_, hseen.step⟩
  | cleanup _ _ _ _ hseen => exact ⟨_, hseen.step⟩
  | scenario _ _ _ _ _ hseen => exact ⟨_, hseen.step⟩

theorem Sources.exists_sees (h : sources.compile draft path = .ok definition)
    {draftStep : Draft.Step} {step : Step} (hyields : definition.Yields draft draftStep step) :
    ∃ scopes, sources.Sees draft path definition draftStep step scopes := by
  obtain ⟨own, prepare, cleanup, results, hcompiles⟩ := Sources.compiles_of_compile h
  cases hyields with
  | prepare hdraft hstep =>
    obtain ⟨scopes, hseen⟩ :=
      exists_seenAfter hcompiles.prepares hdraft (hcompiles.prepareSteps ▸ hstep)
    exact ⟨scopes, .prepare hcompiles.declares hdraft hstep hseen⟩
  | cleanup hdraft hstep =>
    obtain ⟨scopes, hseen⟩ :=
      exists_seenAfter hcompiles.cleansUp hdraft (hcompiles.cleanupSteps ▸ hstep)
    exact ⟨scopes, .cleanup hcompiles.declares hcompiles.prepares hdraft hstep hseen⟩
  | scenario hdraftScenario hscenario hdraft hstep =>
    obtain ⟨specs, hcompiled⟩ := hcompiles.scenario_eq_ok hdraftScenario hscenario
    obtain ⟨vars, hvars, hrest⟩ := exists_of_bind_eq_ok hcompiled
    obtain ⟨batch, hbatch, hrest⟩ := exists_of_bind_eq_ok hrest
    cases hrest
    obtain ⟨scopes, hseen⟩ := exists_seenAfter hbatch hdraft hstep
    exact ⟨scopes, .scenario hdraftScenario hscenario hvars hdraft hstep hseen⟩

/-- **What a deployment hides of the environment of its script.** Wherever a step runs that deploys
a script, it writes one entry for each of the author's, and hides the value of an entry if and only
if a name in its text is declared secret in a scope that the step sees. The value of an entry that
leads to a secret through declared values is hidden in no other case. -/
theorem Sources.covers_compile (h : sources.compile draft path = .ok definition) :
    (∀ draftStep step, definition.Yields draft draftStep step →
      ∃ scopes, sources.Sees draft path definition draftStep step scopes) ∧
    ∀ draftStep step scopes script, sources.Sees draft path definition draftStep step scopes →
      draftStep.reference = .ok (.script script) →
      ∃ deployment, step = .deployment deployment ∧
        List.Forall₂ (Covers scopes) draftStep.environmentVariables
          deployment.template.scriptEnvironment := by
  refine ⟨fun draftStep step => Sources.exists_sees h, fun draftStep step scopes script hsees href => ?_⟩
  obtain ⟨own, prepare, cleanup, results, hcompiles⟩ := Sources.compiles_of_compile h
  have hown := listsSecure_definitionScope hcompiles.declares
  have hprepare := listsSecure_steps hown hcompiles.prepares
  have hcleanup := listsSecure_steps hprepare hcompiles.cleansUp
  have hnone : ∀ scope ∈ (none : Option Declarations), scope.ListsSecure := fun _ hmem => nomatch hmem
  cases hsees with
  | prepare hown' hdraft hstep hseen =>
    cases hcompiles.declares.symm.trans hown'
    exact covers_of_seenAfter hown hnone hcompiles.prepares hdraft (hcompiles.prepareSteps ▸ hstep)
      hseen href
  | cleanup hown' hprepare' hdraft hstep hseen =>
    cases hcompiles.declares.symm.trans hown'
    cases hcompiles.prepares.symm.trans hprepare'
    exact covers_of_seenAfter hprepare hnone hcompiles.cleansUp hdraft
      (hcompiles.cleanupSteps ▸ hstep) hseen href
  | @scenario i j draftScenario scenario vars _ _ _ hdraftScenario hscenario hvars hdraft hstep hseen =>
    rw [hcompiles.scenarios_eq, List.getElem?_map, Option.map_eq_some_iff] at hscenario
    obtain ⟨⟨_, specs⟩, hresult, rfl⟩ := hscenario
    obtain ⟨-, hscenarios⟩ := scenario_of_scenarios hcompiles.plays
    obtain ⟨vars', hvars', hrest⟩ :=
      exists_of_bind_eq_ok (hscenarios i _ draftScenario hresult hdraftScenario)
    obtain ⟨batch, hbatch, hscenario'⟩ := exists_of_bind_eq_ok hrest
    cases hscenario'
    rw [hcompiles.vars_eq] at hvars hseen
    cases hvars.symm.trans hvars'
    rw [Nat.zero_add] at hbatch
    have houter : ∀ scope ∈ some cleanup.owner, scope.ListsSecure := fun scope hmem =>
      Option.mem_some_iff.1 hmem ▸ hcleanup
    exact covers_of_seenAfter (listsSecure_declareAll hvars) houter hbatch hdraft hstep hseen href

/-! ### A secret behind an alias -/

namespace Compile

/-- Nothing but files. -/
def emptyFiles : Sources where
  files := ⟨fun _ => .ok ""⟩

/-- What the step below declares: a secret, and a text that is nothing but its placeholder. -/
def aliasedKey : Dict Declaration :=
  Dict.ofList [("alias", .brief "$(key)"), ("key", .full (.secureString "hunter2"))]

/-- A step whose script finds the secret in its environment. -/
def passingAlias : Draft.Step where
  name := some "s"
  script := some "f.sh"
  environmentVariables := [{ name := "KEY", value := "$(alias)" }]
  vars := aliasedKey

/-- A draft with only this step. -/
def aliasPassed : Draft.Definition where
  scope := some "None"
  scenarios := [{ steps := [passingAlias] }]

/-- The only step of a definition, if that deploys something. -/
def onlyDeployment? (definition : Definition) : Option DeploymentStep :=
  match definition with
  | { scenarios := [{ steps := [.deployment step], .. }], .. } => some step
  | _ => none

theorem yields_onlyDeployment {definition : Definition} {step : DeploymentStep}
    (h : onlyDeployment? definition = some step) :
    definition.Yields aliasPassed passingAlias (.deployment step) := by
  unfold onlyDeployment? at h
  split at h
  · cases h
    exact .scenario (i := 0) (j := 0) rfl rfl rfl rfl
  · cases h

/-- The draft compiles, and the first entry that is written does not hide its value. -/
theorem exists_aliasPassed : ∃ definition step written,
    emptyFiles.compile aliasPassed "f" = .ok definition ∧
      definition.Yields aliasPassed passingAlias (.deployment step) ∧
      step.template.scriptEnvironment[0]? = some written ∧ written.field? "secureValue" = none := by
  have hcheck : (emptyFiles.compile aliasPassed "f").toOption.any (fun definition =>
      (onlyDeployment? definition).any fun step =>
        step.template.scriptEnvironment[0]?.any fun written =>
          (written.field? "secureValue").isNone) = true := by
    cbv
  obtain ⟨definition, hcompile, hstep⟩ := exists_ok_of_any hcheck
  obtain ⟨step, honly, hentry⟩ := (Option.any_eq_true _ _).1 hstep
  obtain ⟨written, hwritten, hplain⟩ := (Option.any_eq_true _ _).1 hentry
  exact ⟨definition, step, written, hcompile, yields_onlyDeployment honly, hwritten,
    Option.isNone_iff_eq_none.1 hplain⟩

/-- Wherever the declarations stand, the alias leads to the secret. -/
theorem secret_alias {around : List Declarations} {scopes : Scopes}
    (h : declareAll around aliasedKey = .ok scopes.step) : scopes.Secret "alias" := by
  have hdeclared : declareAll around aliasedKey =
      .ok { vars := Dict.ofList [("alias", .string "$(key)"), ("key", .secureString "hunter2")],
            secrets := ["key"] } := rfl
  have hstep := Except.ok.inj (hdeclared.symm.trans h)
  have hrefers : scopes.Refers "alias" "key" := by
    refine ⟨.str "$(key)", ?_, by decide⟩
    rw [Scopes.get?, Scopes.chain, List.findSome?_cons, ← hstep]
    rfl
  refine ⟨"key", .single hrefers, scopes.step, List.mem_cons_self, .inl ?_⟩
  rw [← hstep]
  exact List.mem_singleton_self "key"

end Compile

theorem Sources.covers_compile_aliasPassed : ∃ definition,
    emptyFiles.compile aliasPassed "f" = .ok definition ∧
      (∀ draftStep step, definition.Yields aliasPassed draftStep step →
        ∃ scopes, emptyFiles.Sees aliasPassed "f" definition draftStep step scopes) ∧
      ∀ draftStep step scopes script,
        emptyFiles.Sees aliasPassed "f" definition draftStep step scopes →
        draftStep.reference = .ok (.script script) →
        ∃ deployment, step = .deployment deployment ∧
          List.Forall₂ (Covers scopes) draftStep.environmentVariables
            deployment.template.scriptEnvironment := by
  obtain ⟨definition, step, written, hcompile, -, -, -⟩ := exists_aliasPassed
  exact ⟨definition, hcompile, Sources.covers_compile hcompile⟩

/-- The entry refers to a secret through an alias, and its value is not hidden. -/
theorem Sources.not_forall_covers_compile :
    ¬ ∀ (sources : Sources) (draft : Draft.Definition) (path : String) (definition : Definition),
      sources.compile draft path = .ok definition →
      ∀ (draftStep : Draft.Step) (deployment : DeploymentStep) (scopes : Scopes),
        sources.Sees draft path definition draftStep (.deployment deployment) scopes →
        ∀ (k : Nat) (entry : Draft.ScriptVariable) (written : Json),
          draftStep.environmentVariables[k]? = some entry →
          deployment.template.scriptEnvironment[k]? = some written →
          (∃ n ∈ Placeholder.names entry.value, scopes.Secret n) →
          written.field? "secureValue" = some (.str entry.value) := by
  intro hall
  obtain ⟨definition, step, written, hcompile, hyields, hwritten, hplain⟩ := exists_aliasPassed
  obtain ⟨scopes, hsees⟩ := Sources.exists_sees hcompile hyields
  obtain ⟨around, hdeclares⟩ := hsees.exists_declareAll
  have hnames : "alias" ∈ Placeholder.names "$(alias)" := by decide
  have hhidden := hall emptyFiles aliasPassed "f" definition hcompile passingAlias step scopes hsees 0
    { name := "KEY", value := "$(alias)" } written rfl hwritten
    ⟨"alias", hnames, secret_alias hdeclares⟩
  rw [hplain] at hhidden
  cases hhidden

end Rehearsal
