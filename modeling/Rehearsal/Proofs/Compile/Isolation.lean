import Rehearsal.Proofs.Compile.Demand

/-!
# Scenarios are compiled apart

The steps that prepare and clean up are compiled first, and what the definition declares grows with
them. It does not grow any more with the scenarios: a draft without its scenarios is compiled to the
definition without its scenarios (`Sources.compile_withoutScenarios`), and each scenario is compiled
from its draft and its place and from what the definition declares (`Sources.getElem?_scenarios`).
So two drafts that differ in other scenarios only agree on this one and on all that belongs to the
definition (`Sources.agreesAt_compile`).

They need not agree on the list of files that describe the operations in use. It begins with the
files behind the steps that prepare and clean up, and every scenario adds to it.
-/

namespace Rehearsal

open Compile

/-- Two drafts differ in nothing but scenarios, and not in the one in place `i`. -/
structure Draft.Definition.AgreesAt (i : Nat) (draft draft' : Draft.Definition) : Prop where
  scope : draft'.scope = draft.scope
  vars : draft'.vars = draft.vars
  prepareSteps : draft'.prepareSteps = draft.prepareSteps
  cleanupSteps : draft'.cleanupSteps = draft.cleanupSteps
  scenario : draft'.scenarios[i]? = draft.scenarios[i]?

/-- Two definitions differ in nothing but scenarios and the files behind them, and not in the
scenario in place `i`. -/
structure Definition.AgreesAt (i : Nat) (definition definition' : Definition) : Prop where
  scope : definition'.scope = definition.scope
  filePath : definition'.filePath = definition.filePath
  vars : definition'.vars = definition.vars
  prepareSteps : definition'.prepareSteps = definition.prepareSteps
  cleanupSteps : definition'.cleanupSteps = definition.cleanupSteps
  scenario : definition'.scenarios[i]? = definition.scenarios[i]?

/-- A draft without its scenarios. -/
def Draft.Definition.withoutScenarios (draft : Draft.Definition) : Draft.Definition :=
  { draft with scenarios := [] }

/-- A definition without its scenarios, and with other files. -/
def Definition.withoutScenarios (definition : Definition) (specs : List String) : Definition :=
  { definition with scenarios := [], referencedSpecs := specs }

variable {sources : Sources} {draft draft' : Draft.Definition} {path : String}
  {definition definition' : Definition} {i : Nat}

theorem Draft.Definition.AgreesAt.withoutScenarios_eq (h : draft.AgreesAt i draft') :
    draft'.withoutScenarios = draft.withoutScenarios := by
  rw [withoutScenarios, withoutScenarios, h.scope, h.vars, h.prepareSteps, h.cleanupSteps]

/-- A list of names without repeats only grows with the names behind. -/
theorem Declarations.foldl_appendNew_prefix (names front more : List String) :
    front.foldl appendNew names <+: (front ++ more).foldl appendNew names := by
  rw [List.foldl_append]
  generalize front.foldl appendNew names = names
  induction more generalizing names with
  | nil => exact List.prefix_rfl
  | cons name more ih =>
    refine List.IsPrefix.trans ?_ (ih (appendNew names name))
    rw [appendNew]
    split
    · exact List.prefix_rfl
    · exact List.prefix_append names [name]

/-- What belongs to a definition is compiled from what belongs to its draft. -/
theorem Sources.compile_withoutScenarios (h : sources.compile draft path = .ok definition) :
    ∃ specs, sources.compile draft.withoutScenarios path = .ok (definition.withoutScenarios specs) ∧
      specs <+: definition.referencedSpecs := by
  obtain ⟨hscope, hpath, own, prepare, cleanup, results, hcompiles, hspecs⟩ :=
    Sources.compile_eq_ok h
  refine ⟨(prepare.specs ++ cleanup.specs).foldl Declarations.appendNew [], ?_, ?_⟩
  · have hprepares := hcompiles.prepares
    have hcleansUp := hcompiles.cleansUp
    rw [Sources.setting] at hprepares hcleansUp
    -- Every stage is the same, up to the scenarios, of which there are none.
    simp only [Sources.compile, Draft.Definition.withoutScenarios, hscope, bind, Except.bind, pure,
      Except.pure, hcompiles.declares, hprepares, hcleansUp, Compile.scenarios]
    rw [Definition.withoutScenarios, hpath, hcompiles.prepareSteps, hcompiles.cleanupSteps,
      hcompiles.vars_eq]
    simp only [List.map_nil, List.flatMap_nil, List.append_nil]
  · rw [hspecs]
    exact Declarations.foldl_appendNew_prefix _ _ _

theorem Sources.length_scenarios (h : sources.compile draft path = .ok definition) :
    definition.scenarios.length = draft.scenarios.length := by
  obtain ⟨own, prepare, cleanup, results, hcompiles⟩ := Sources.compiles_of_compile h
  rw [hcompiles.scenarios_eq, List.length_map, (scenario_of_scenarios hcompiles.plays).1]

/-- Every scenario is compiled from its draft and its place, and from what the definition declares
behind its steps to prepare and to clean up. -/
theorem Sources.getElem?_scenarios (h : sources.compile draft path = .ok definition) (i : Nat) :
    definition.scenarios[i]? = draft.scenarios[i]?.bind fun draftScenario =>
      (scenario (sources.setting definition.scope path) definition.vars i draftScenario).toOption.map
        Prod.fst := by
  obtain ⟨own, prepare, cleanup, results, hcompiles⟩ := Sources.compiles_of_compile h
  have hlength := Sources.length_scenarios h
  cases hdraft : draft.scenarios[i]? with
  | none =>
    rw [List.getElem?_eq_none_iff] at hdraft
    exact List.getElem?_eq_none (hlength ▸ hdraft)
  | some draftScenario =>
    obtain ⟨hi, -⟩ := List.getElem?_eq_some_iff.1 hdraft
    have hscenario := List.getElem?_eq_getElem (hlength ▸ hi)
    obtain ⟨specs, hcompiled⟩ := hcompiles.scenario_eq_ok hdraft hscenario
    rw [hscenario, Option.bind_some, hcompiled]
    rfl

/-- **Scenarios are compiled apart.** If two drafts that compile differ in other scenarios only, they
are compiled to the same scenario, and to the same declarations and steps of the definition. Every
scenario of a draft is compiled. -/
theorem Sources.agreesAt_compile (hdraft : draft.AgreesAt i draft')
    (h : sources.compile draft path = .ok definition)
    (h' : sources.compile draft' path = .ok definition') :
    definition.AgreesAt i definition' ∧
      definition.scenarios.length = draft.scenarios.length := by
  obtain ⟨specs, hbare, -⟩ := Sources.compile_withoutScenarios h
  obtain ⟨specs', hbare', -⟩ := Sources.compile_withoutScenarios h'
  rw [hdraft.withoutScenarios_eq, hbare] at hbare'
  have hsame := Except.ok.inj hbare'
  have hscope : definition'.scope = definition.scope := (congrArg Definition.scope hsame).symm
  have hvars : definition'.vars = definition.vars := (congrArg Definition.vars hsame).symm
  refine ⟨⟨hscope, (congrArg Definition.filePath hsame).symm, hvars,
    (congrArg Definition.prepareSteps hsame).symm, (congrArg Definition.cleanupSteps hsame).symm, ?_⟩,
    Sources.length_scenarios h⟩
  rw [Sources.getElem?_scenarios h', Sources.getElem?_scenarios h, hdraft.scenario, hscope, hvars]

/-! ### A scenario behind another one -/

/-- A draft with a scenario that sets a name behind a step that needs it, and a scenario that needs
it as well. -/
def Compile.neededTwice : Draft.Definition where
  scope := some "None"
  scenarios := [callingBeforeSetting, callingAndScripting]

/-- The same draft with nothing in its first scenario. -/
def Compile.neededOnce : Draft.Definition := { neededTwice with scenarios := [{}, callingAndScripting] }

/-- The second scenario has to be supplied with the name, whatever is set in the first. -/
theorem Sources.agreesAt_compile_needed : ∃ definition definition' scenario,
    twoOperations.compile neededTwice "f" = .ok definition ∧
      twoOperations.compile neededOnce "f" = .ok definition' ∧
      definition.AgreesAt 1 definition' ∧ definition.scenarios[1]? = some scenario ∧
      scenario.vars.required = ["x"] := by
  have hcheck : (twoOperations.compile neededTwice "f").toOption.any (fun definition =>
      definition.scenarios[1]?.any fun scenario => scenario.vars.required == ["x"]) = true := by
    decide +kernel
  have hcheck' : (twoOperations.compile neededOnce "f").toOption.any (fun _ => true) = true := by
    decide +kernel
  obtain ⟨definition, hcompile, hneeds⟩ := exists_ok_of_any hcheck
  obtain ⟨definition', hcompile', -⟩ := exists_ok_of_any hcheck'
  obtain ⟨scenario, hscenario, hneeds⟩ := (Option.any_eq_true _ _).1 hneeds
  have hdraft : neededTwice.AgreesAt 1 neededOnce := ⟨rfl, rfl, rfl, rfl, rfl⟩
  exact ⟨definition, definition', scenario, hcompile, hcompile',
    (Sources.agreesAt_compile hdraft hcompile hcompile').1, hscenario, beq_iff_eq.1 hneeds⟩

end Rehearsal
