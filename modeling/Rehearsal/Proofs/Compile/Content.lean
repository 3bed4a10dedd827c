import Rehearsal.Proofs.Compile.Binding
import Rehearsal.Proofs.Compile.Naming
import Rehearsal.Proofs.Compile.Script
import Rehearsal.Proofs.Placeholder

/-!
# What a deployment carries of a script

A step that deploys a script has the text of the script file in its template, as it stands in the file
(`Sources.exists_carries_of_yields`). Where the strings of a template are replaced, this text is
replaced with them and stays in its place (`Json.exists_scriptContent_of_traverse`).

* `Json.scriptContent?`: the text of the script in a template;
* `Compile.Carries`: a step and the script that its draft refers to;
* `Step.Compiled`: steps that come from a draft.
-/

namespace Rehearsal

/-! ### The text in a template -/

namespace Json

/-- What stands in a template in the place of the text of its script. -/
def scriptContent? (template : Json) : Option Json :=
  template.field? "resources" >>= items? >>= List.head? >>= (·.field? "properties") >>=
    (·.field? "scriptContent")

variable {ε : Type} {f : String → Except ε Json} {json json' value : Json} {name : String}

/-- Every member stays under its name. -/
theorem get?_of_mapM_traverseMember {members members' : List (String × Json)}
    (h : members.mapM (traverseMember f) = .ok members')
    (hvalue : Assoc.get? name members = some value) :
    ∃ value', Assoc.get? name members' = some value' ∧ value.traverse f = .ok value' := by
  induction members generalizing members' with
  | nil => cases hvalue
  | cons member members ih =>
    obtain ⟨key, first⟩ := member
    rw [List.mapM_cons] at h
    obtain ⟨member', hmember, h⟩ := exists_of_bind_eq_ok h
    obtain ⟨rest, hrest, h⟩ := exists_of_bind_eq_ok h
    obtain ⟨first', hfirst, rfl⟩ := exists_of_map_eq_ok hmember
    cases h
    rw [Assoc.get?] at hvalue ⊢
    -- Replacing does not touch names, so the first member of the name is in the same place.
    by_cases hkey : key = name
    · rw [if_pos hkey] at hvalue ⊢
      cases hvalue
      exact ⟨first', rfl, hfirst⟩
    · rw [if_neg hkey] at hvalue ⊢
      exact ih hrest hvalue

/-- The members of an object stay, with their values replaced. -/
theorem exists_field_of_traverse (h : json.traverse f = .ok json')
    (hvalue : json.field? name = some value) :
    ∃ value', json'.field? name = some value' ∧ value.traverse f = .ok value' := by
  cases json with
  | obj members =>
    rw [traverse_obj] at h
    obtain ⟨members', hmembers, rfl⟩ := exists_of_map_eq_ok h
    exact get?_of_mapM_traverseMember hmembers hvalue
  | null | bool | int | float | str | arr => cases hvalue

/-- The first item of an array stays the first, replaced. -/
theorem exists_head_of_traverse (h : json.traverse f = .ok json')
    (hvalue : (json.items? >>= List.head?) = some value) :
    ∃ value', (json'.items? >>= List.head?) = some value' ∧ value.traverse f = .ok value' := by
  cases json with
  | arr items =>
    cases items with
    | nil => cases hvalue
    | cons item items =>
      cases hvalue
      rw [traverse_arr, List.mapM_cons] at h
      obtain ⟨items', hitems, rfl⟩ := exists_of_map_eq_ok h
      obtain ⟨value', hvalue, hitems⟩ := exists_of_bind_eq_ok hitems
      obtain ⟨rest, -, hitems⟩ := exists_of_bind_eq_ok hitems
      cases hitems
      exact ⟨value', rfl, hvalue⟩
  | null | bool | int | float | str | obj => cases hvalue

theorem scriptContent_eq_some :
    json.scriptContent? = some value ↔
      ∃ resources resource properties, json.field? "resources" = some resources ∧
        (resources.items? >>= List.head?) = some resource ∧
        resource.field? "properties" = some properties ∧
        properties.field? "scriptContent" = some value := by
  simp only [scriptContent?, Option.bind_eq_bind, Option.bind_eq_some_iff]
  grind

/-- **Where the strings of a template are replaced, so is the text of its script**, and nothing else
comes in its place. -/
theorem exists_scriptContent_of_traverse (h : json.traverse f = .ok json')
    (hvalue : json.scriptContent? = some value) :
    ∃ value', json'.scriptContent? = some value' ∧ value.traverse f = .ok value' := by
  obtain ⟨resources, resource, properties, hresources, hresource, hproperties, hcontent⟩ :=
    scriptContent_eq_some.1 hvalue
  obtain ⟨resources', hresources', hreplaced⟩ := exists_field_of_traverse h hresources
  obtain ⟨resource', hresource', hreplaced⟩ := exists_head_of_traverse hreplaced hresource
  obtain ⟨properties', hproperties', hreplaced⟩ := exists_field_of_traverse hreplaced hproperties
  obtain ⟨value', hcontent', hreplaced⟩ := exists_field_of_traverse hreplaced hcontent
  exact ⟨value', scriptContent_eq_some.2
    ⟨resources', resource', properties', hresources', hresource', hproperties', hcontent'⟩, hreplaced⟩

end Json

theorem Script.scriptContent_template (s : Script) :
    s.template.toJson.scriptContent? = some (.str s.content) := by
  refine Json.scriptContent_eq_some.2 ⟨.arr [s.resource], s.resource, s.properties, ?_, rfl, ?_, ?_⟩
  · rw [Template.toJson, Json.field?_ofMembers, List.reverse_append]
    rfl
  · rw [resource, Json.field?_ofMembers]
    rfl
  · rw [properties, Json.ofFields, Json.field?_ofMembers]
    cases s.arguments <;> cases s.environment.isEmpty <;> simp

/-! ### The text in a compiled step -/

namespace Compile

/-- A step deploys the script that its draft refers to, with this text of the script file. -/
structure Carries (setting : Setting) (draft : Draft.Step) (step : DeploymentStep) (content : String) :
    Prop where
  file : ∃ path, draft.reference = .ok (.script path) ∧ step.sourceFile = setting.resolve path
  read : setting.sources.files.read step.sourceFile = .ok content
  template : ∃ script : Script, script.content = content ∧ step.template = script.template

variable {setting : Setting} {draft : Draft.Step} {reference : Draft.Reference} {scopes : Scopes}
  {header : StepHeader} {outcome : Outcome} {step : DeploymentStep} {kind : ScriptKind}

/-- The text of a script gets into its step as it is in the file. -/
theorem exists_carries_of_particular
    (h : particular setting draft reference scopes header = .ok outcome)
    (hreference : draft.reference = .ok reference) (hstep : outcome.step = .deployment step)
    (hkind : step.scriptKind = some kind) : ∃ content, Carries setting draft step content := by
  cases reference with
  | operation id =>
    obtain ⟨op, source, values, within, parameters, responses, -, -, -, -, rfl⟩ := operationStep_eq_ok h
    cases hstep
  | fixture path =>
    obtain ⟨fixture, op, source, before, parameters, responses, -, -, -, -, rfl⟩ := fixtureStep_eq_ok h
    cases hstep
  | template path =>
    -- A step for a template runs no script.
    obtain ⟨document, template, within, -, -, -, rfl⟩ := templateStep_eq_ok h
    cases hstep
    cases hkind
  | script path =>
    obtain ⟨content, hcontent, h⟩ := exists_of_bind_eq_ok h
    cases h
    cases hstep
    exact ⟨content, ⟨path, hreference, rfl⟩, eq_ok_of_mapError_eq_ok hcontent, _, rfl, rfl⟩

end Compile

open Compile

variable {sources : Sources} {draft : Draft.Definition} {path : String} {definition : Definition}

/-- **A compiled script is the text of its file.** Wherever a definition deploys a script, the draft
refers to the script file, and the template of the step has the text of this file. -/
theorem Sources.exists_carries_of_yields (h : sources.compile draft path = .ok definition)
    {draftStep : Draft.Step} {step : DeploymentStep}
    (hyields : definition.Yields draft draftStep (.deployment step)) {kind : ScriptKind}
    (hkind : step.scriptKind = some kind) :
    ∃ content, Carries (sources.setting definition.scope path) draftStep step content := by
  obtain ⟨phase, outer, owner, reference, name, outcome, hreference, hstep, heq⟩ :=
    Sources.exists_outcome_of_yields h hyields
  obtain ⟨vars, -, hstep⟩ := exists_of_bind_eq_ok hstep
  obtain ⟨inner, hinner, hstep⟩ := exists_of_bind_eq_ok hstep
  cases hstep
  dsimp only at heq
  -- All that is added to the step behind this is in its header.
  cases hs : inner.step with
  | rest s =>
    rw [hs] at heq
    cases heq
  | deployment s =>
    rw [hs] at heq
    cases heq
    obtain ⟨content, hfile, hread, htemplate⟩ := exists_carries_of_particular hinner hreference hs hkind
    exact ⟨content, hfile, hread, htemplate⟩

/-- A step is one of a definition that was compiled from a draft. -/
def Step.Compiled (s : Step) : Prop :=
  ∃ (sources : Sources) (draft : Draft.Definition) (path : String) (definition : Definition)
    (draftStep : Draft.Step), sources.compile draft path = .ok definition ∧
      definition.Yields draft draftStep s

theorem Compile.Lines.exists_draft {setting : Setting} {phase : Phase} {label : String}
    {drafts : List Draft.Step} {steps : List Step} (h : Lines setting phase label 0 drafts steps)
    {s : Step} (hs : s ∈ steps) :
    ∃ (j : Nat) (draftStep : Draft.Step), drafts[j]? = some draftStep ∧ steps[j]? = some s := by
  obtain ⟨j, hj⟩ := List.mem_iff_getElem?.1 hs
  obtain ⟨hlt, -⟩ := List.getElem?_eq_some_iff.1 hj
  rw [h.length] at hlt
  exact ⟨j, _, List.getElem?_eq_getElem hlt, hj⟩

/-- All steps of a compiled definition come from its draft. -/
theorem Sources.compiled_of_mem (h : sources.compile draft path = .ok definition) :
    (∀ s ∈ definition.prepareSteps ++ definition.cleanupSteps, s.Compiled) ∧
      ∀ scenario ∈ definition.scenarios, ∀ s ∈ scenario.steps, s.Compiled := by
  have hmirrors := Sources.mirrors_of_compile h
  refine ⟨fun s hs => ?_, fun scenario hscenario s hs => ?_⟩
  · rcases List.mem_append.1 hs with hs | hs
    · obtain ⟨j, draftStep, hdraft, hstep⟩ := hmirrors.prepare.exists_draft hs
      exact ⟨sources, draft, path, definition, draftStep, h, .prepare hdraft hstep⟩
    · obtain ⟨j, draftStep, hdraft, hstep⟩ := hmirrors.cleanup.exists_draft hs
      exact ⟨sources, draft, path, definition, draftStep, h, .cleanup hdraft hstep⟩
  · obtain ⟨i, hi⟩ := List.mem_iff_getElem?.1 hscenario
    obtain ⟨hlt, -⟩ := List.getElem?_eq_some_iff.1 hi
    rw [hmirrors.length] at hlt
    have hdraftScenario := List.getElem?_eq_getElem hlt
    obtain ⟨hlines, -⟩ := hmirrors.scenario i _ scenario hdraftScenario hi
    obtain ⟨j, draftStep, hdraft, hstep⟩ := hlines.exists_draft hs
    exact ⟨sources, draft, path, definition, draftStep, h, .scenario hdraftScenario hi hdraft hstep⟩

end Rehearsal
