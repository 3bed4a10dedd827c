import Rehearsal.Proofs.Compile.Script
import Rehearsal.Proofs.Request.Building

/-!
# Parameters from the draft to the request

The compiler and the runner walk along the parameters of an operation, each by its own rules: the
compiler finds a value for every parameter that a request cannot do without, and a request is built
from the values that are there. Where a step names its operation and edits no parameters, the two
agree (`Sources.agrees_compile`): no request lacks a value, and what the author gives arrives in the
place of its parameter. A form field stops a request only if it has a value that was meant for
something else, for another parameter of its name or for the version of the API.
-/

namespace Rehearsal

namespace Compile

variable {setting : Setting} {draft : Draft.Step} {op : Operation} {parameter : Parameter}
  {values values' : Dict Json} {scopes scopes' : Scopes} {header : StepHeader} {outcome : Outcome}

/-- What the compiler does with one parameter of an operation. -/
inductive Binding (draft : Draft.Step) (parameter : Parameter) (values : Dict Json) : Dict Json → Prop
  /-- The version of the API has its value from the operation. -/
  | version (hname : parameter.name = Operation.apiVersionName) : Binding draft parameter values values
  /-- A form field is left out; nobody gives it a value, and no request has to have it. -/
  | refused (hlocation : parameter.location = .formData) (hneeded : parameter.required = false)
      (hgiven : draft.parameters.get? parameter.name = none) :
      Binding draft parameter values values
  /-- The author gives a value. -/
  | given {value : Json} (hlocation : parameter.location ≠ .formData)
      (hgiven : draft.parameters.get? parameter.name = some value) :
      Binding draft parameter values (values.insert parameter.name value)
  /-- The value is taken from the environment. -/
  | taken (hlocation : parameter.location ≠ .formData)
      (hgiven : draft.parameters.get? parameter.name = none) :
      Binding draft parameter values
        (values.insert parameter.name (fromEnvironment parameter.name))
  /-- A parameter that a request can do without is left out. -/
  | omitted (hpath : parameter.location ≠ .path) (hneeded : parameter.required = false)
      (hgiven : draft.parameters.get? parameter.name = none) :
      Binding draft parameter values values

theorem binding_bindParameter
    (h : bindParameter setting draft op (values, scopes) parameter = .ok (values', scopes')) :
    Binding draft parameter values values' := by
  unfold bindParameter at h
  dsimp only at h
  split at h
  · next hname =>
    cases h
    exact .version hname
  · split at h
    · next hsupported =>
      have hlocation : parameter.location = .formData := by
        cases hlocation : parameter.location <;> simp_all [ParameterLocation.isSupported]
      split at h
      · cases h
      · next hneeded =>
        cases h
        rw [Bool.or_eq_true, not_or] at hneeded
        exact .refused hlocation (by simpa using hneeded.2) (by simpa using hneeded.1)
    · next hsupported =>
      have hlocation : parameter.location ≠ .formData := by
        intro heq
        exact hsupported (by rw [heq]; rfl)
      split at h
      · next value hgiven =>
        cases h
        exact .given hlocation hgiven
      · next hgiven =>
        split at h
        · cases h
          exact .taken hlocation hgiven
        · split at h
          · cases h
            exact .taken hlocation hgiven
          · next hneeded =>
            cases h
            rw [Bool.or_eq_true, not_or] at hneeded
            exact .omitted (by simpa using hneeded.1) (by simpa using hneeded.2) hgiven

/-- What the compiler has bound of the parameters that it has seen. -/
structure Bound (draft : Draft.Step) (seen : List Parameter) (values : Dict Json) : Prop where
  /-- The values that the author gives are bound. -/
  given : ∀ parameter ∈ seen, parameter.name ≠ Operation.apiVersionName → ∀ value,
    draft.parameters.get? parameter.name = some value → values.get? parameter.name = some value
  /-- What a request cannot do without is bound. -/
  needed : ∀ parameter ∈ seen, parameter.name ≠ Operation.apiVersionName →
    parameter.required = true ∨ parameter.location = .path → (values.get? parameter.name).isSome = true
  /-- What is bound belongs to a parameter that is no form field. -/
  carried : ∀ name value, values.get? name = some value →
    ∃ parameter ∈ seen, parameter.name = name ∧ parameter.location ≠ .formData

namespace Bound

variable {seen : List Parameter}

theorem nil : Bound draft [] ∅ where
  given _ hmem := absurd hmem List.not_mem_nil
  needed _ hmem := absurd hmem List.not_mem_nil
  carried _ _ hvalue := nomatch hvalue

/-- Another parameter is seen, and its value is bound; what the author gives goes first. -/
theorem insert (h : Bound draft seen values) (hlocation : parameter.location ≠ .formData) {value : Json}
    (hgiven : ∀ other, draft.parameters.get? parameter.name = some other → value = other) :
    Bound draft (seen ++ [parameter]) (values.insert parameter.name value) where
  given other hmem hname found hfound := by
    rw [Dict.get?_insert]
    split
    · next heq => rw [hgiven found (heq ▸ hfound)]
    · next hne =>
      rcases List.mem_append.1 hmem with hmem | hmem
      · exact h.given other hmem hname found hfound
      · exact absurd (congrArg Parameter.name (List.mem_singleton.1 hmem)) hne
  needed other hmem hname hneeded := by
    rw [Dict.get?_insert]
    split
    · rfl
    · next hne =>
      rcases List.mem_append.1 hmem with hmem | hmem
      · exact h.needed other hmem hname hneeded
      · exact absurd (congrArg Parameter.name (List.mem_singleton.1 hmem)) hne
  carried name found hfound := by
    rw [Dict.get?_insert] at hfound
    split at hfound
    · next heq => exact ⟨parameter, List.mem_append_right _ List.mem_cons_self, heq.symm, hlocation⟩
    · obtain ⟨other, hmem, hother⟩ := h.carried name found hfound
      exact ⟨other, List.mem_append_left _ hmem, hother⟩

/-- Another parameter is seen that nothing is bound for. -/
theorem skip (h : Bound draft seen values)
    (hfree : parameter.name = Operation.apiVersionName ∨
      draft.parameters.get? parameter.name = none ∧ parameter.required = false ∧
        parameter.location ≠ .path) :
    Bound draft (seen ++ [parameter]) values where
  given other hmem hname found hfound := by
    rcases List.mem_append.1 hmem with hmem | hmem
    · exact h.given other hmem hname found hfound
    · rw [List.mem_singleton.1 hmem] at hname hfound
      rcases hfree with heq | ⟨hnone, -, -⟩
      · exact absurd heq hname
      · rw [hnone] at hfound
        cases hfound
  needed other hmem hname hneeded := by
    rcases List.mem_append.1 hmem with hmem | hmem
    · exact h.needed other hmem hname hneeded
    · rw [List.mem_singleton.1 hmem] at hname hneeded
      rcases hfree with heq | ⟨-, hrequired, hpath⟩
      · exact absurd heq hname
      · rcases hneeded with hneeded | hneeded
        · rw [hrequired] at hneeded
          cases hneeded
        · exact absurd hneeded hpath
  carried name found hfound := by
    obtain ⟨other, hmem, hother⟩ := h.carried name found hfound
    exact ⟨other, List.mem_append_left _ hmem, hother⟩

theorem step (h : Bound draft seen values) (hbinding : Binding draft parameter values values') :
    Bound draft (seen ++ [parameter]) values' := by
  cases hbinding with
  | version hname => exact h.skip (.inl hname)
  | refused hlocation hneeded hgiven =>
    exact h.skip (.inr ⟨hgiven, hneeded, by rw [hlocation]; decide⟩)
  | omitted hpath hneeded hgiven => exact h.skip (.inr ⟨hgiven, hneeded, hpath⟩)
  | given hlocation hgiven =>
    refine h.insert hlocation fun other hother => ?_
    rw [hgiven] at hother
    exact Option.some.inj hother
  | taken hlocation hgiven =>
    refine h.insert hlocation fun other hother => ?_
    rw [hgiven] at hother
    cases hother

theorem foldlM {parameters : List Parameter} (h : Bound draft seen values)
    (hbinds : parameters.foldlM (bindParameter setting draft op) (values, scopes) =
      .ok (values', scopes')) :
    Bound draft (seen ++ parameters) values' := by
  induction parameters generalizing seen values scopes with
  | nil =>
    cases hbinds
    rwa [List.append_nil]
  | cons parameter parameters ih =>
    rw [List.foldlM_cons] at hbinds
    obtain ⟨⟨next, within⟩, hone, hrest⟩ := exists_of_bind_eq_ok hbinds
    rw [← List.singleton_append, ← List.append_assoc]
    exact ih (h.step (binding_bindParameter hone)) hrest

end Bound

/-- A step that names its operation and edits no parameters has what the compiler has bound, and
the version of the API. -/
theorem bound_operationStep {id : String}
    (h : operationStep setting draft id scopes header = .ok outcome)
    (hupdate : draft.requestUpdate = []) :
    ∃ s source values, outcome.step = .rest s ∧
      setting.operation id draft.externalReference = .ok (s.operation, source) ∧
      Bound draft s.operation.parameters values ∧
      s.parameters = withApiVersion s.operation values := by
  obtain ⟨op, source, values, within, parameters, responses, hop, hbinds, hedited, -, rfl⟩ :=
    operationStep_eq_ok h
  rw [hupdate, updateDict_nil] at hedited
  cases hedited
  exact ⟨_, source, values, rfl, hop, Bound.nil.foldlM hbinds, rfl⟩

/-! ### Requests -/

/-- The request of a step agrees with what the author of the step gives. -/
structure Agrees (given : Dict Json) (s : RestCallStep) : Prop where
  /-- No parameter that the request cannot do without is missing. -/
  complete : ∀ op name, Request.ofStep s ≠ .error (.missingParameter op name)
  /-- A form field only stops the request if its name is that of the version of the API, or of a
  parameter that is no form field. -/
  unsupported : ∀ op name location,
    Request.ofStep s = .error (.unsupportedLocation op name location) →
    location = .formData ∧ op = s.operation.id ∧ ∃ parameter ∈ s.operation.parameters,
      parameter.name = name ∧ parameter.location = .formData ∧
        (name = Operation.apiVersionName ∨
          ∃ other ∈ s.operation.parameters, other.name = name ∧ other.location ≠ .formData)
  /-- What the author gives for a parameter is in its place in the request, if no two parameters are
  the body. -/
  placed : ∀ request, Request.ofStep s = .ok request →
    (s.operation.parameters.Pairwise fun a b => ¬ (a.location = .body ∧ b.location = .body)) →
    ∀ parameter ∈ s.operation.parameters, parameter.name ≠ Operation.apiVersionName →
      ∀ value, given.get? parameter.name = some value → request.placed parameter = some value

theorem agrees_of_bound {s : RestCallStep} (hbound : Bound draft s.operation.parameters values)
    (hparameters : s.parameters = withApiVersion s.operation values) :
    Agrees draft.parameters s := by
  have hversion : s.parameters.get? Operation.apiVersionName = some (.str s.operation.apiVersion) := by
    rw [hparameters, withApiVersion, Dict.get?_insert, if_pos rfl]
  have hothers {name : String} (hname : name ≠ Operation.apiVersionName) :
      s.parameters.get? name = values.get? name := by
    rw [hparameters, withApiVersion, Dict.get?_insert, if_neg hname]
  refine ⟨fun op name h => ?_, fun op name location h => ?_, fun request h hbody parameter hmem hname
    value hvalue => ?_⟩
  · obtain ⟨parameter, hmem, hfault⟩ := Request.exists_fault_of_ofStep h
    cases hfault with
    | missing hnone hneeded =>
      have hname : parameter.name ≠ Operation.apiVersionName := by
        intro heq
        rw [heq, hversion] at hnone
        cases hnone
      have hsome := hbound.needed parameter hmem hname hneeded
      rw [← hothers hname, hnone] at hsome
      cases hsome
  · obtain ⟨parameter, hmem, hfault⟩ := Request.exists_fault_of_ofStep h
    cases hfault with
    | unsupported hsome hlocation =>
      refine ⟨rfl, rfl, parameter, hmem, rfl, hlocation, ?_⟩
      by_cases hname : parameter.name = Operation.apiVersionName
      · exact .inl hname
      · rw [hothers hname] at hsome
        obtain ⟨value, hvalue⟩ := Option.isSome_iff_exists.1 hsome
        exact .inr (hbound.carried parameter.name value hvalue)
  · refine Request.placed_of_ofStep h hmem (fun _ => hbody) ?_
    rw [hothers hname]
    exact hbound.given parameter hmem hname value hvalue

end Compile

open Compile

variable {sources : Sources} {draft : Draft.Definition} {path : String} {definition : Definition}

/-- Wherever a step of a definition runs, it was compiled from the step of the draft. -/
theorem Sources.exists_outcome_of_yields (h : sources.compile draft path = .ok definition)
    {draftStep : Draft.Step} {step : Step} (hyields : definition.Yields draft draftStep step) :
    ∃ phase outer owner reference name outcome, draftStep.reference = .ok reference ∧
      Compile.step (sources.setting definition.scope path) phase outer owner draftStep reference name =
        .ok outcome ∧ outcome.step = step := by
  obtain ⟨_, _, _, _, _, _, _, _, hsteps, hdraft, hstep⟩ := Sources.exists_steps_of_yields h hyields
  obtain ⟨before, reference, name, outcome, -, hreference, houtcome, heq⟩ :=
    exists_outcome_of_steps hsteps hdraft hstep
  exact ⟨_, _, _, reference, name, outcome, hreference, houtcome, heq⟩

/-- **A compiled step makes the request that its author means.** A step that names its operation and
edits no parameters is compiled to a call of that operation, whose request never lacks a parameter, is
stopped by form fields only where names clash, and has whatever the author gives, unchanged, in the
place of its parameter. -/
theorem Sources.agrees_compile (h : sources.compile draft path = .ok definition)
    {draftStep : Draft.Step} {step : Step} (hyields : definition.Yields draft draftStep step)
    {id : String} (hreference : draftStep.reference = .ok (.operation id))
    (hupdate : draftStep.requestUpdate = []) :
    ∃ s source, step = .rest s ∧
      (sources.setting definition.scope path).operation id draftStep.externalReference =
        .ok (s.operation, source) ∧
      Agrees draftStep.parameters s := by
  obtain ⟨phase, outer, owner, reference, name, outcome, hreference', hstep, rfl⟩ :=
    Sources.exists_outcome_of_yields h hyields
  cases hreference.symm.trans hreference'
  obtain ⟨vars, -, hstep⟩ := exists_of_bind_eq_ok hstep
  obtain ⟨inner, hinner, hstep⟩ := exists_of_bind_eq_ok hstep
  cases hstep
  obtain ⟨s, source, values, hs, hop, hbound, hparameters⟩ := bound_operationStep hinner hupdate
  dsimp only
  rw [hs]
  exact ⟨_, source, rfl, hop, agrees_of_bound (s := { s with header := _ }) hbound hparameters⟩

/-! ### An item -/

namespace Compile

/-- An operation with a parameter in its path, one in its query, and the version of the API. -/
def itemOperation : Sources where
  index :=
    { own :=
        { operations := Dict.ofList
            [("o", ⟨{ id := "o", method := .get, path := "/\x7bitem\x7d", apiVersion := "1",
                      parameters := [{ name := "item", location := .path, required := true },
                        { name := "tag", location := .query },
                        { name := "api-version", location := .query, required := true }] },
              "s"⟩)] } }
  files := ⟨fun _ => .ok ""⟩

/-- A step that calls it for an item. -/
def readingItem : Draft.Step :=
  { name := some "a", operationId := some "o", parameters := Dict.ofList [("item", .int 7)] }

/-- A draft with that step. -/
def itemCall : Draft.Definition where
  scope := some "None"
  scenarios := [{ steps := [readingItem] }]

end Compile

/-- The step makes the request that its author means. -/
theorem Sources.agrees_readingItem : ∃ definition step,
    itemOperation.compile itemCall "f" = .ok definition ∧
      definition.Yields itemCall readingItem step ∧
      readingItem.reference = .ok (.operation "o") ∧ readingItem.requestUpdate = [] ∧
      ∃ s source, step = .rest s ∧
        (itemOperation.setting definition.scope "f").operation "o" readingItem.externalReference =
          .ok (s.operation, source) ∧
        Agrees readingItem.parameters s := by
  have hcheck : (itemOperation.compile itemCall "f").toOption.any (fun definition =>
      (definition.scenarios[0]?.bind fun scenario => scenario.steps[0]?).isSome) = true := by
    decide +kernel
  obtain ⟨definition, hcompile, hsome⟩ := exists_ok_of_any hcheck
  obtain ⟨step, hstep⟩ := Option.isSome_iff_exists.1 hsome
  obtain ⟨scenario, hscenario, hstep⟩ := Option.bind_eq_some_iff.1 hstep
  have hyields : definition.Yields itemCall readingItem step :=
    .scenario (i := 0) (j := 0) rfl hscenario rfl hstep
  exact ⟨definition, step, hcompile, hyields, rfl, rfl,
    Sources.agrees_compile hcompile hyields rfl rfl⟩

end Rehearsal
