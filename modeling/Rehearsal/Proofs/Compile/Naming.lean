import Rehearsal.Proofs.Compile.Isolation

/-!
# Steps and their names

A draft and the definition that it is compiled to have the same steps in the same places, and the
names of steps that run together differ (`Sources.mirrors_compile`). A name is taken from the draft,
or made from the place of the step and from what it refers to; both kinds of names are checked
against all names that were taken before, and the steps that clean up go on with the names of those
that prepare.

* `Compile.Stems`: what a step has from its draft and its place;
* `Compile.Lines`: steps and their drafts, place by place;
* `Definition.Mirrors`: a definition and its draft.
-/

namespace Rehearsal

namespace Compile

/-- A step calls or deploys what its draft refers to. -/
inductive Realizes (setting : Setting) (draft : Draft.Step) : Draft.Reference → Step → Prop
  | operation {id : String} {source : Option String} {s : RestCallStep}
      (found : setting.operation id draft.externalReference = .ok (s.operation, source))
      (file : s.exampleFile = none) : Realizes setting draft (.operation id) (.rest s)
  | fixture {path : String} {s : RestCallStep} (file : s.exampleFile = some (setting.resolve path)) :
      Realizes setting draft (.fixture path) (.rest s)
  | template {path : String} {s : DeploymentStep} (file : s.sourceFile = setting.resolve path)
      (kind : s.scriptKind = none) : Realizes setting draft (.template path) (.deployment s)
  | script {path : String} {s : DeploymentStep} (file : s.sourceFile = setting.resolve path)
      (kind : s.scriptKind = some (ScriptKind.ofPath (setting.resolve path))) :
      Realizes setting draft (.script path) (.deployment s)

/-- A step is what the draft in place `index` of a list was compiled to: it does what the draft
refers to, in the phase of the list, and it has the name that the draft gives or else one made from
its place and its reference. -/
structure Stems (setting : Setting) (phase : Phase) (label : String) (index : Nat) (draft : Draft.Step)
    (s : Step) : Prop where
  reference : ∃ reference, draft.reference = .ok reference ∧ Realizes setting draft reference s ∧
    s.name = draft.name.getD (label ++ "_" ++ toString index ++ "_" ++ nameOfReference reference)
  phase : s.header.phase = phase
  description : s.header.description = draft.description
  outputs : s.header.outputs = draft.outputVariables.mapValues fun _ output => outputVariable output

/-- Steps that run together, the first of which has place `index`, and their drafts: as many of the
one as of the other, and in the same order. -/
structure Lines (setting : Setting) (phase : Phase) (label : String) (index : Nat)
    (drafts : List Draft.Step) (steps : List Step) : Prop where
  length : steps.length = drafts.length
  stems : ∀ (j : Nat) (draft : Draft.Step) (s : Step), drafts[j]? = some draft → steps[j]? = some s →
    Stems setting phase label (index + j) draft s

variable {setting : Setting} {phase : Phase} {outer : Option Declarations} {label : String}
  {index : Nat} {taken : List String} {owner : Declarations} {draft : Draft.Step}
  {reference : Draft.Reference} {scopes : Scopes} {header : StepHeader} {outcome : Outcome} {s : Step}
  {name : String}

theorem Realizes.modifyHeader (h : Realizes setting draft reference s) (f : StepHeader → StepHeader) :
    Realizes setting draft reference (s.modifyHeader f) := by
  cases h with
  | operation found file => exact .operation found file
  | fixture file => exact .fixture file
  | template file kind => exact .template file kind
  | script file kind => exact .script file kind

theorem realizes_operationStep {id : String}
    (h : operationStep setting draft id scopes header = .ok outcome) :
    Realizes setting draft (.operation id) outcome.step ∧ outcome.step.header = header := by
  obtain ⟨op, source, values, within, parameters, responses, hop, -, -, -, rfl⟩ :=
    operationStep_eq_ok h
  exact ⟨.operation hop rfl, rfl⟩

theorem realizes_fixtureStep {path : String}
    (h : fixtureStep setting draft path scopes header = .ok outcome) :
    Realizes setting draft (.fixture path) outcome.step ∧ outcome.step.header = header := by
  obtain ⟨fixture, op, source, before, parameters, responses, -, -, -, -, rfl⟩ := fixtureStep_eq_ok h
  exact ⟨.fixture rfl, rfl⟩

theorem realizes_templateStep {path : String}
    (h : templateStep setting path scopes header = .ok outcome) :
    Realizes setting draft (.template path) outcome.step ∧ outcome.step.header = header := by
  obtain ⟨document, template, within, -, -, -, rfl⟩ := templateStep_eq_ok h
  exact ⟨.template rfl rfl, rfl⟩

theorem realizes_scriptStep {path : String}
    (h : scriptStep setting draft path scopes header = .ok outcome) :
    Realizes setting draft (.script path) outcome.step ∧ outcome.step.header = header := by
  obtain ⟨content, -, h⟩ := exists_of_bind_eq_ok h
  cases h
  exact ⟨.script rfl rfl, rfl⟩

theorem realizes_particular (h : particular setting draft reference scopes header = .ok outcome) :
    Realizes setting draft reference outcome.step ∧ outcome.step.header = header := by
  cases reference with
  | operation id => exact realizes_operationStep h
  | fixture path => exact realizes_fixtureStep h
  | template path => exact realizes_templateStep h
  | script path => exact realizes_scriptStep h

/-- What a step has from its draft, and under which name it was compiled. -/
theorem realizes_step (h : step setting phase outer owner draft reference name = .ok outcome) :
    Realizes setting draft reference outcome.step ∧
      ∃ vars, outcome.step.header =
        { name, description := draft.description, phase, vars,
          outputs := draft.outputVariables.mapValues fun _ output => outputVariable output } := by
  obtain ⟨vars, -, h⟩ := exists_of_bind_eq_ok h
  obtain ⟨inner, hinner, h⟩ := exists_of_bind_eq_ok h
  obtain ⟨hrealizes, hheader⟩ := realizes_particular hinner
  cases h
  dsimp only
  rw [Step.header_modifyHeader, hheader]
  exact ⟨hrealizes.modifyHeader _, vars, rfl⟩

theorem stems_labelledStep
    (h : labelledStep setting phase outer taken owner (label ++ "_" ++ toString index) draft =
      .ok outcome) :
    Stems setting phase label index draft outcome.step ∧ outcome.step.name ∉ taken := by
  unfold labelledStep at h
  split at h
  · cases h
  · next reference hreference =>
    dsimp only at h
    split at h
    · cases h
    · next hfree =>
      cases hstep : step setting phase outer owner draft reference
          (draft.name.getD (label ++ "_" ++ toString index ++ "_" ++ nameOfReference reference)) with
      | error e =>
        rw [hstep] at h
        cases h
      | ok result =>
        rw [hstep] at h
        cases h
        obtain ⟨hrealizes, vars, hheader⟩ := realizes_step hstep
        have hname := congrArg StepHeader.name hheader
        refine ⟨⟨⟨reference, hreference, hrealizes, hname⟩, ?_, ?_, ?_⟩, ?_⟩
        · rw [hheader]
        · rw [hheader]
        · rw [hheader]
        · rwa [Step.name, hname]

/-- Steps that run together stand in the places of their drafts, and a name is neither used twice
among them nor one of those that were taken before. -/
theorem lines_steps {drafts : List Draft.Step} {batch : Batch}
    (h : steps setting phase outer label index taken owner drafts = .ok batch) :
    Lines setting phase label index drafts batch.steps ∧ (batch.steps.map Step.name).Nodup ∧
      ∀ s ∈ batch.steps, s.name ∉ taken := by
  induction drafts generalizing index taken owner batch with
  | nil =>
    cases h
    exact ⟨⟨rfl, fun _ _ _ hdraft => nomatch hdraft⟩, List.nodup_nil, fun _ hs => nomatch hs⟩
  | cons draft drafts ih =>
    rw [steps] at h
    obtain ⟨outcome, hfirst, h⟩ := exists_of_bind_eq_ok h
    obtain ⟨rest, hrest, h⟩ := exists_of_bind_eq_ok h
    obtain ⟨hstems, hfree⟩ := stems_labelledStep hfirst
    obtain ⟨⟨hlength, hothers⟩, hnodup, hnew⟩ := ih hrest
    cases h
    have hfirstNew : outcome.step.name ∉ rest.steps.map Step.name := by
      intro hmem
      obtain ⟨s, hs, heq⟩ := List.mem_map.1 hmem
      exact hnew s hs (heq ▸ List.mem_cons_self)
    refine ⟨⟨congrArg (· + 1) hlength, fun j other s hother hs => ?_⟩,
      List.nodup_cons.2 ⟨hfirstNew, hnodup⟩, fun s hs => ?_⟩
    · cases j with
      | zero =>
        cases hother
        cases hs
        exact hstems
      | succ j =>
        have hstems := hothers j other s hother hs
        rwa [Nat.add_right_comm] at hstems
    · rcases List.mem_cons.1 hs with rfl | hs
      · exact hfree
      · exact fun hmem => hnew s hs (List.mem_cons_of_mem _ hmem)

end Compile

open Compile

/-- Steps of a list of which two give the same name. -/
def Draft.Step.NamedTwice (drafts : List Draft.Step) : Prop :=
  ∃ (i j : Nat) (a b : Draft.Step) (name : String), i ≠ j ∧ drafts[i]? = some a ∧
    drafts[j]? = some b ∧ a.name = some name ∧ b.name = some name

/-- Two steps of a draft that run together give the same name: two steps that prepare or clean up, or
two of one scenario. -/
def Draft.Definition.NamesTwice (draft : Draft.Definition) : Prop :=
  Draft.Step.NamedTwice (draft.prepareSteps ++ draft.cleanupSteps) ∨
    ∃ scenario ∈ draft.scenarios, Draft.Step.NamedTwice scenario.steps

/-- A definition has the steps of its draft, each list of them place by place and in its phase, and
steps that run together have different names. -/
structure Definition.Mirrors (definition : Definition) (draft : Draft.Definition) (setting : Setting) :
    Prop where
  prepare : Lines setting .prepare "prepare" 0 draft.prepareSteps definition.prepareSteps
  cleanup : Lines setting .cleanup "cleanup" 0 draft.cleanupSteps definition.cleanupSteps
  names : ((definition.prepareSteps ++ definition.cleanupSteps).map Step.name).Nodup
  length : definition.scenarios.length = draft.scenarios.length
  scenario : ∀ (i : Nat) (draftScenario : Draft.Scenario) (scenario : Scenario),
    draft.scenarios[i]? = some draftScenario → definition.scenarios[i]? = some scenario →
    Lines setting .scenario ("scenario_" ++ toString i) 0 draftScenario.steps scenario.steps ∧
      (scenario.steps.map Step.name).Nodup

variable {sources : Sources} {draft : Draft.Definition} {path : String} {definition : Definition}
  {setting : Setting}

/-- The names that drafts give are those of their steps, place by place. -/
def Compile.Bears (drafts : List Draft.Step) (names : List String) : Prop :=
  ∀ (j : Nat) (draft : Draft.Step) (name : String), drafts[j]? = some draft →
    draft.name = some name → names[j]? = some name

theorem Compile.Lines.bears {phase : Phase} {label : String} {index : Nat} {drafts : List Draft.Step}
    {steps : List Step} (h : Lines setting phase label index drafts steps) :
    Bears drafts (steps.map Step.name) := by
  intro j draft name hdraft hname
  obtain ⟨hj, -⟩ := List.getElem?_eq_some_iff.1 hdraft
  have hstep := List.getElem?_eq_getElem (h.length ▸ hj)
  obtain ⟨reference, -, -, heq⟩ := (h.stems j draft _ hdraft hstep).reference
  rw [List.getElem?_map, hstep, Option.map_some, heq, hname, Option.getD_some]

theorem Compile.Bears.append {drafts drafts' : List Draft.Step} {names names' : List String}
    (h : Bears drafts names) (h' : Bears drafts' names') (hlength : names.length = drafts.length) :
    Bears (drafts ++ drafts') (names ++ names') := by
  intro j draft name hdraft hname
  rw [List.getElem?_append] at hdraft ⊢
  rw [hlength]
  split at hdraft
  · next hj =>
    rw [if_pos hj]
    exact h j draft name hdraft hname
  · next hj =>
    rw [if_neg hj]
    exact h' _ draft name hdraft hname

/-- Where all names differ, no two drafts give the same. -/
theorem Compile.Bears.not_namedTwice {drafts : List Draft.Step} {names : List String}
    (h : Bears drafts names) (hnodup : names.Nodup) : ¬ Draft.Step.NamedTwice drafts := by
  rintro ⟨i, j, a, b, name, hne, ha, hb, haname, hbname⟩
  have hi := h i a name ha haname
  have hj := h j b name hb hbname
  obtain ⟨hlt, -⟩ := List.getElem?_eq_some_iff.1 hi
  exact hne ((List.getElem?_inj hlt hnodup).1 (hi.trans hj.symm))

theorem Definition.Mirrors.not_namesTwice (h : definition.Mirrors draft setting) :
    ¬ draft.NamesTwice := by
  rintro (htwice | ⟨draftScenario, hmem, htwice⟩)
  · have hbears := h.prepare.bears.append h.cleanup.bears (by rw [List.length_map, h.prepare.length])
    rw [← List.map_append] at hbears
    exact hbears.not_namedTwice h.names htwice
  · obtain ⟨i, hdraft⟩ := List.mem_iff_getElem?.1 hmem
    obtain ⟨hi, -⟩ := List.getElem?_eq_some_iff.1 hdraft
    have hscenario := List.getElem?_eq_getElem (h.length ▸ hi)
    obtain ⟨hlines, hnodup⟩ := h.scenario i draftScenario _ hdraft hscenario
    exact hlines.bears.not_namedTwice hnodup htwice

theorem Sources.mirrors_of_compile (h : sources.compile draft path = .ok definition) :
    definition.Mirrors draft (sources.setting definition.scope path) := by
  obtain ⟨own, prepare, cleanup, results, hcompiles⟩ := Sources.compiles_of_compile h
  obtain ⟨hprepare, hnames, -⟩ := lines_steps hcompiles.prepares
  obtain ⟨hcleanup, hnames', hnew⟩ := lines_steps hcompiles.cleansUp
  refine ⟨hcompiles.prepareSteps ▸ hprepare, hcompiles.cleanupSteps ▸ hcleanup, ?_,
    Sources.length_scenarios h, fun i draftScenario scenario hdraft hscenario => ?_⟩
  · rw [hcompiles.prepareSteps, hcompiles.cleanupSteps, List.map_append]
    refine List.nodup_append.2 ⟨hnames, hnames', fun a ha b hb heq => ?_⟩
    obtain ⟨s, hs, rfl⟩ := List.mem_map.1 hb
    exact hnew s hs (heq ▸ ha)
  · obtain ⟨specs, hcompiled⟩ := hcompiles.scenario_eq_ok hdraft hscenario
    obtain ⟨vars, -, hrest⟩ := exists_of_bind_eq_ok hcompiled
    obtain ⟨batch, hbatch, hrest⟩ := exists_of_bind_eq_ok hrest
    cases hrest
    obtain ⟨hlines, hnodup, -⟩ := lines_steps hbatch
    exact ⟨hlines, hnodup⟩

/-- **Steps are compiled one by one and keep apart by name.** A definition has a step for each step of
its draft, in the same order, doing what the draft refers to and in the phase of its list; and the
names of the steps that prepare and clean up differ from each other, as do those of each scenario,
wherever they come from. A draft in which two such steps give the same name does not compile. -/
theorem Sources.mirrors_compile (sources : Sources) (draft : Draft.Definition) (path : String) :
    (∀ definition, sources.compile draft path = .ok definition →
      definition.Mirrors draft (sources.setting definition.scope path)) ∧
      (draft.NamesTwice → ∃ e, sources.compile draft path = .error e) := by
  refine ⟨fun definition h => Sources.mirrors_of_compile h, fun htwice => ?_⟩
  cases h : sources.compile draft path with
  | error e => exact ⟨e, rfl⟩
  | ok definition => exact absurd htwice (Sources.mirrors_of_compile h).not_namesTwice

/-! ### Names given and names made -/

namespace Compile

/-- A step that calls the first operation, under a name or without one. -/
def callingAs (name : Option String) : Draft.Step := { name, operationId := some "o" }

/-- A draft that names only some of its steps. -/
def namedInPart : Draft.Definition where
  scope := some "None"
  prepareSteps := [callingAs (some "begin"), callingAs none]
  cleanupSteps := [callingAs none, callingAs (some "end")]
  scenarios := [{ steps := [callingAs none, callingAs (some "begin")] }]

/-- A draft that names a step that prepares and one that cleans up alike. -/
def namedAlike : Draft.Definition where
  scope := some "None"
  prepareSteps := [callingAs none, callingAs (some "begin")]
  cleanupSteps := [callingAs (some "begin")]

end Compile

/-- The first draft compiles, and a scenario may use a name of the definition again; the second does
not compile. -/
theorem Sources.mirrors_compile_named :
    (∃ definition, twoOperations.compile namedInPart "f" = .ok definition ∧
      definition.Mirrors namedInPart (twoOperations.setting definition.scope "f")) ∧
      namedAlike.NamesTwice ∧ ∃ e, twoOperations.compile namedAlike "f" = .error e := by
  have hcheck : (twoOperations.compile namedInPart "f").toOption.any (fun _ => true) = true := by
    decide +kernel
  obtain ⟨definition, hcompile, -⟩ := exists_ok_of_any hcheck
  have htwice : namedAlike.NamesTwice := .inl ⟨1, 2, _, _, "begin", by decide, rfl, rfl, rfl, rfl⟩
  exact ⟨⟨definition, hcompile, (Sources.mirrors_compile _ _ _).1 definition hcompile⟩, htwice,
    (Sources.mirrors_compile _ _ _).2 htwice⟩

end Rehearsal
