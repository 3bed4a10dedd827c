import Rehearsal.Proofs.Compile.Definition
import Rehearsal.Proofs.Compile.Secrecy

/-!
# Outputs that are secret

A step may say of a name that it sets that it is secret: by the kind of variable that it makes of an
output, or by the type of an output of its template. The two need not agree, and neither need agree
with what is declared for the name elsewhere. Whatever they say, the name is on the list of secret
names of those that the step sets variables for (`Sources.guards_compile`).

* `VariableKind.Spells`, `Step.SetsSecret`: what counts as saying so;
* `Step.Guarded`: all secret outputs of some steps are on a list.
-/

namespace Rehearsal

namespace VariableKind

/-- A text is the name of a kind, in any case. -/
def Spells (kind : VariableKind) (text : String) : Prop :=
  text.toList.map Char.toLower = kind.name.toList.map Char.toLower

theorem spells_iff {kind : VariableKind} {lowered : String}
    (h : kind.name.toList.map Char.toLower = lowered.toList) (text : String) :
    kind.Spells text ↔ String.ofList (text.toList.map Char.toLower) = lowered := by
  rw [Spells, h]
  constructor
  · intro hlower
    rw [hlower, String.ofList_toList]
  · intro hlower
    rw [← hlower, String.toList_ofList]

/-- Secret kinds have one spelling each, up to the case. -/
theorem isSecure_parse_iff {text : String} :
    (parse text).any isSecure = true ↔ secureString.Spells text ∨ secureObject.Spells text := by
  have hstring : secureString.name.toList.map Char.toLower = "securestring".toList := by decide
  have hobject : secureObject.name.toList.map Char.toLower = "secureobject".toList := by decide
  rw [spells_iff hstring, spells_iff hobject]
  unfold parse
  split <;> simp_all [isSecure]

end VariableKind

theorem TemplateOutput.isSecure_kind_iff {output : TemplateOutput} :
    output.kind.isSecure = true ↔
      VariableKind.secureString.Spells output.typeName ∨
        VariableKind.secureObject.Spells output.typeName := by
  rw [← VariableKind.isSecure_parse_iff, kind]
  cases VariableKind.parse output.typeName <;> simp [VariableKind.isSecure]

namespace Step

/-- The outputs of the template that a step deploys. -/
def templateOutputs : Step → Dict TemplateOutput
  | .rest _ => ∅
  | .deployment step => step.template.outputs

/-- A step says of a name that it sets a secret under it. -/
def SetsSecret (s : Step) (name : String) : Prop :=
  (∃ output, s.header.outputs.get? name = some output ∧ output.kind.isSecure = true) ∨
    ∃ output, s.templateOutputs.get? name = some output ∧
      (VariableKind.secureString.Spells output.typeName ∨
        VariableKind.secureObject.Spells output.typeName)

/-- All names that some steps say they set secrets under are among those that are kept secret. -/
def Guarded (steps : List Step) (secrets : List String) : Prop :=
  ∀ s ∈ steps, ∀ name, s.SetsSecret name → name ∈ secrets

variable {steps steps' : List Step} {secrets secrets' : List String}

theorem Guarded.mono (h : Guarded steps secrets) (hsecrets : secrets ⊆ secrets') :
    Guarded steps secrets' :=
  fun s hs name hsets => hsecrets (h s hs name hsets)

theorem Guarded.append (h : Guarded steps secrets) (h' : Guarded steps' secrets) :
    Guarded (steps ++ steps') secrets :=
  fun s hs => (List.mem_append.1 hs).elim (h s) (h' s)

theorem templateOutputs_modifyHeader (s : Step) (f : StepHeader → StepHeader) :
    (s.modifyHeader f).templateOutputs = s.templateOutputs := by
  cases s <;> rfl

end Step

namespace Declarations

variable {scope : Declarations} {name other : String} {kind : VariableKind}

theorem mem_secrets_declareOutput :
    other ∈ (scope.declareOutput name kind).secrets ↔
      other ∈ scope.secrets ∨ kind.isSecure = true ∧ other = name := by
  have hdeclared : (if scope.contains name then scope
      else scope.declare name (.placeholder kind)).secrets = scope.secrets := by
    split <;> rfl
  rw [declareOutput]
  split
  · next hsecure => rw [mem_secrets_markSecret, hdeclared, hsecure, eq_self, true_and]
  · next hplain => simp [hdeclared, hplain]

/-- Declaring outputs lists those of a secret kind, and no other names. -/
theorem mem_secrets_declareOutputs {α : Type} {kind : α → VariableKind}
    {outputs : List (String × α)} :
    name ∈ (outputs.foldl (fun owner entry => owner.declareOutput entry.1 (kind entry.2))
        scope).secrets ↔
      name ∈ scope.secrets ∨ ∃ output, (name, output) ∈ outputs ∧ (kind output).isSecure = true := by
  induction outputs generalizing scope with
  | nil => simp
  | cons entry outputs ih =>
    obtain ⟨first, output⟩ := entry
    rw [List.foldl_cons, ih, mem_secrets_declareOutput, or_assoc]
    refine or_congr_right ?_
    constructor
    · rintro (⟨hsecure, rfl⟩ | ⟨output', hmem, hsecure⟩)
      · exact ⟨output, List.mem_cons_self, hsecure⟩
      · exact ⟨output', List.mem_cons_of_mem _ hmem, hsecure⟩
    · rintro ⟨output', hmem, hsecure⟩
      rcases List.mem_cons.1 hmem with heq | hmem
      · cases heq
        exact .inl ⟨hsecure, rfl⟩
      · exact .inr ⟨output', hmem, hsecure⟩

/-- A name that is on the list stays there. -/
theorem stable_mem_secrets (name : String) : Stable fun scope => name ∈ scope.secrets where
  require h _ := h
  declareOutput h _ _ := mem_secrets_declareOutput.2 (.inl h)

end Declarations

namespace Compile

open Declarations (mem_secrets_declareOutputs stable_mem_secrets)
open Step (Guarded)

variable {setting : Setting} {draft : Draft.Step} {reference : Draft.Reference} {scopes : Scopes}
  {header : StepHeader} {outcome : Outcome} {name : String} {phase : Phase}
  {outer : Option Declarations} {owner : Declarations} {label : String} {taken : List String}

theorem templateOutputs_operationStep {id : String}
    (h : operationStep setting draft id scopes header = .ok outcome) :
    outcome.step.templateOutputs = ∅ := by
  obtain ⟨op, source, values, within, parameters, responses, -, -, -, -, rfl⟩ := operationStep_eq_ok h
  rfl

theorem templateOutputs_fixtureStep {path : String}
    (h : fixtureStep setting draft path scopes header = .ok outcome) :
    outcome.step.templateOutputs = ∅ := by
  obtain ⟨fixture, op, source, before, parameters, responses, -, -, -, -, rfl⟩ := fixtureStep_eq_ok h
  rfl

/-- What a template says is secret is on the list of its owner. -/
theorem mem_secrets_particular (h : particular setting draft reference scopes header = .ok outcome)
    {output : TemplateOutput} (houtput : outcome.step.templateOutputs.get? name = some output)
    (hsecure : output.kind.isSecure = true) : name ∈ outcome.owner.secrets := by
  cases reference with
  | operation id =>
    rw [templateOutputs_operationStep h] at houtput
    cases houtput
  | fixture path =>
    rw [templateOutputs_fixtureStep h] at houtput
    cases houtput
  | template path =>
    obtain ⟨document, template, within, -, -, -, rfl⟩ := templateStep_eq_ok h
    exact mem_secrets_declareOutputs.2 (.inr ⟨output, Dict.mem_entries_iff.2 houtput, hsecure⟩)
  | script path =>
    -- The template around a script has no outputs.
    obtain ⟨content, -, h⟩ := exists_of_bind_eq_ok h
    cases h
    cases houtput

theorem mem_secrets_step (h : step setting phase outer owner draft reference label = .ok outcome)
    (hsets : outcome.step.SetsSecret name) : name ∈ outcome.owner.secrets := by
  obtain ⟨vars, -, h⟩ := exists_of_bind_eq_ok h
  obtain ⟨inner, hinner, h⟩ := exists_of_bind_eq_ok h
  cases h
  -- The outputs of a template are declared first, then those of the step, and neither is taken back.
  refine (stable_mem_secrets name).requireAll (mem_secrets_declareOutputs.2 ?_) vars.required
  rcases hsets with ⟨output, houtput, hsecure⟩ | ⟨output, houtput, hspells⟩
  · rw [Step.header_modifyHeader] at houtput
    exact .inr ⟨output, Dict.mem_entries_iff.2 houtput, hsecure⟩
  · rw [Step.templateOutputs_modifyHeader] at houtput
    exact .inl (mem_secrets_particular hinner houtput (TemplateOutput.isSecure_kind_iff.2 hspells))

theorem guards_steps {index : Nat} {drafts : List Draft.Step} {batch : Batch}
    (h : steps setting phase outer label index taken owner drafts = .ok batch) :
    Guarded batch.steps batch.owner.secrets := by
  induction drafts generalizing index taken owner batch with
  | nil =>
    cases h
    exact fun s hs => absurd hs List.not_mem_nil
  | cons draft drafts ih =>
    rw [steps] at h
    obtain ⟨outcome, hfirst, h⟩ := exists_of_bind_eq_ok h
    obtain ⟨rest, hrest, h⟩ := exists_of_bind_eq_ok h
    obtain ⟨reference, label', -, -, hstep⟩ := labelledStep_eq_ok hfirst
    have hfirst : ∀ name, outcome.step.SetsSecret name → name ∈ rest.owner.secrets :=
      fun name hsets => (stable_mem_secrets name).steps (mem_secrets_step hstep hsets) hrest
    have hothers := ih hrest
    cases h
    intro s hs
    rcases List.mem_cons.1 hs with rfl | hs
    · exact hfirst
    · exact hothers s hs

theorem guards_scenario {index : Nat} {draft : Draft.Scenario} {compiled : Scenario}
    {specs : List String} (h : scenario setting owner index draft = .ok (compiled, specs)) :
    Guarded compiled.steps compiled.vars.secrets := by
  obtain ⟨vars, -, h⟩ := exists_of_bind_eq_ok h
  obtain ⟨batch, hbatch, h⟩ := exists_of_bind_eq_ok h
  cases h
  exact (guards_steps hbatch).mono fun name hname =>
    (stable_mem_secrets name).requireAll hname owner.required

end Compile

open Compile

/-- All names that steps say they set secrets under are kept secret where the steps set them: by the
definition if they prepare or clean up, and otherwise by their scenario. -/
structure Definition.Guards (definition : Definition) : Prop where
  own : Step.Guarded (definition.prepareSteps ++ definition.cleanupSteps) definition.vars.secrets
  scenarios : ∀ scenario ∈ definition.scenarios, Step.Guarded scenario.steps scenario.vars.secrets

/-- **A compiled definition keeps every secret output secret.** -/
theorem Sources.guards_compile {sources : Sources} {draft : Draft.Definition} {path : String}
    {definition : Definition} (h : sources.compile draft path = .ok definition) :
    definition.Guards := by
  obtain ⟨own, prepare, cleanup, results, hcompiles⟩ := Sources.compiles_of_compile h
  constructor
  case own =>
    rw [hcompiles.prepareSteps, hcompiles.cleanupSteps, hcompiles.vars_eq]
    refine Step.Guarded.append ?_ (guards_steps hcompiles.cleansUp)
    exact (guards_steps hcompiles.prepares).mono fun name hname =>
      (Declarations.stable_mem_secrets name).steps hname hcompiles.cleansUp
  case scenarios =>
    intro scenario hscenario
    rw [hcompiles.scenarios_eq] at hscenario
    obtain ⟨⟨compiled, specs⟩, hresult, rfl⟩ := List.mem_map.1 hscenario
    obtain ⟨i, hi⟩ := List.mem_iff_getElem?.1 hresult
    obtain ⟨hlength, hall⟩ := scenario_of_scenarios hcompiles.plays
    have hdraft : i < draft.scenarios.length := by
      rw [← hlength]
      exact (List.getElem?_eq_some_iff.1 hi).1
    exact guards_scenario (hall i _ _ hi (List.getElem?_eq_getElem hdraft))

end Rehearsal
