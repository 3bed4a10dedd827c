import Rehearsal.Proofs.Compile.Definition
import Rehearsal.Proofs.Environment.Resolution
import Rehearsal.Proofs.Placeholder.Token

/-!
# Values that the compiler makes up

For a parameter without a value of its own a step stores the token of the parameter's name, to be
replaced when the step runs. Parameters are named by whoever describes the operation, and tokens are
read by the rules of placeholders, which know fewer names: a token comes to the value that an
environment holds for the parameter if and only if the name of the parameter is one that a
placeholder can have (`Sources.resolve_synthesized_iff`). The token of a header such as `If-Match`
is sent as it is.
-/

namespace Rehearsal

namespace Environment

variable {env : Environment} {name : String} {value : Json}

/-- The placeholder of a name comes to the value of the name, if that has no placeholder itself. -/
theorem resolve_token (hname : Placeholder.isName name = true) (hvalue : env.value? name = some value)
    (hplain : value.hasPlaceholder = false) :
    env.resolve .strict (.str (Placeholder.token name)) = .ok value := by
  have hnone : value.placeholders = [] := by simpa [Json.hasPlaceholder] using hplain
  rw [resolve_token_of_bound hname hvalue, resolveOn, Json.traverse_of_no_placeholders hnone]

/-- The token of a text stands for whatever value the text has in an environment if and only if the
text is a name. -/
theorem resolve_token_iff {name : String} :
    (∀ (env : Environment) (value : Json), env.value? name = some value →
      value.hasPlaceholder = false →
      env.resolve .strict (.str (Placeholder.token name)) = .ok value) ↔
      Placeholder.isName name = true := by
  refine ⟨fun hall => ?_, fun hname env value => resolve_token hname⟩
  cases hname : Placeholder.isName name with
  | true => rfl
  | false =>
    -- A token that is no placeholder comes to a text, whatever the environment holds.
    let env : Environment := { inner := ({} : Layer).set name (.bool (some true)) }
    have hvalue : env.value? name = some (.bool true) := by
      simp [env, value?, get?, layers, Layer.set, Layer.bind, Dict.get?_insert, Variable.isSecure,
        Variable.kind, VariableKind.isSecure, Variable.value?]
    have hresolve := hall env (.bool true) hvalue rfl
    rw [resolve, resolveOn, Json.traverse] at hresolve
    obtain ⟨text, htext⟩ := Placeholder.exists_str_of_substitute_token hname hresolve
    cases htext

end Environment

open Compile

variable {sources : Sources} {draft : Draft.Definition} {path : String} {definition : Definition}

/-- **A synthesized value stands for its parameter if and only if the parameter has the name of a
placeholder.** Before its parameters are edited as the author says, every value in a compiled step
that is neither given by the author nor the version of the API is the token of its parameter. This
token is read as the placeholder of the parameter, and resolving it yields the value that an
environment holds for the parameter, in every environment that holds one without placeholders, if
and only if the parameter's name is an identifier of placeholders. -/
theorem Sources.resolve_synthesized_iff (h : sources.compile draft path = .ok definition)
    {draftStep : Draft.Step} {step : RestCallStep}
    (hyields : definition.Yields draft draftStep (.rest step)) :
    ∃ reference given before, draftStep.reference = .ok reference ∧
      (sources.setting definition.scope path).given draftStep reference = .ok given ∧
      updateDict before draftStep.requestUpdate = .ok step.parameters ∧
      ∀ name value, before.get? name = some value →
        name ≠ Operation.apiVersionName → given.get? name ≠ some value →
        value = fromEnvironment name ∧
          (Placeholder.pieces (Placeholder.token name) = [.token name] ↔
            Placeholder.isName name = true) ∧
          ((∀ (env : Environment) (held : Json), env.value? name = some held →
            held.hasPlaceholder = false → env.resolve .strict value = .ok held) ↔
              Placeholder.isName name = true) := by
  obtain ⟨reference, hreference, hdraws⟩ := Sources.draws_of_yields h hyields
  cases hdraws with
  | @request s given before hgiven hedited hdrawn =>
    refine ⟨reference, given, before, hreference, hgiven, hedited, fun name value hvalue hversion hown => ?_⟩
    rcases hdrawn name value hvalue with ⟨heq, -⟩ | hgiven | ⟨rfl, -⟩
    · exact absurd heq hversion
    · exact absurd hgiven hown
    · exact ⟨rfl, Placeholder.pieces_token_iff.trans (and_iff_right rfl), Environment.resolve_token_iff⟩

/-! ### A header -/

namespace Compile

/-- An operation that cannot do without a header. -/
def conditionalOperation : Sources where
  index :=
    { own :=
        { operations := Dict.ofList
            [("o", ⟨{ id := "o", method := .get, path := "/", apiVersion := "1",
                      parameters := [{ name := "If-Match", location := .header, required := true }] },
              "s"⟩)] } }
  files := ⟨fun _ => .ok ""⟩

/-- A step that calls it. -/
def callingConditional : Draft.Step := { name := some "a", operationId := some "o" }

/-- A draft with that step. -/
def conditionalCall : Draft.Definition where
  scope := some "None"
  scenarios := [{ steps := [callingConditional] }]

/-- The only step of a definition, if that calls an operation. -/
def onlyRequest? (definition : Definition) : Option RestCallStep :=
  match definition with
  | { scenarios := [{ steps := [.rest step], .. }], .. } => some step
  | _ => none

theorem yields_onlyRequest {definition : Definition} {step : RestCallStep}
    (h : onlyRequest? definition = some step) :
    definition.Yields conditionalCall callingConditional (.rest step) := by
  unfold onlyRequest? at h
  split at h
  · cases h
    exact .scenario (i := 0) (j := 0) rfl rfl rfl rfl
  · cases h

/-- Whether a value is the token of the header. -/
def isHeaderToken (value : Json) : Bool :=
  match value with
  | .str text => text == "$(If-Match)"
  | _ => false

theorem eq_of_isHeaderToken {value : Json} (h : isHeaderToken value = true) :
    value = fromEnvironment "If-Match" := by
  cases value <;> try cases h
  exact congrArg Json.str (beq_iff_eq.1 h)

/-- What the draft is compiled to: a step that stores the token of the header. -/
theorem exists_conditionalCall : ∃ definition step,
    conditionalOperation.compile conditionalCall "f" = .ok definition ∧
      definition.Yields conditionalCall callingConditional (.rest step) ∧
      step.parameters.get? "If-Match" = some (fromEnvironment "If-Match") := by
  have hcheck : (conditionalOperation.compile conditionalCall "f").toOption.any (fun definition =>
      (onlyRequest? definition).any fun step =>
        (step.parameters.get? "If-Match").any isHeaderToken) = true := by
    decide +kernel
  obtain ⟨definition, hcompile, hstep⟩ := exists_ok_of_any hcheck
  obtain ⟨step, honly, hheader⟩ := (Option.any_eq_true _ _).1 hstep
  obtain ⟨value, hvalue, htoken⟩ := (Option.any_eq_true _ _).1 hheader
  refine ⟨definition, step, hcompile, yields_onlyRequest honly, ?_⟩
  rw [hvalue, eq_of_isHeaderToken htoken]

end Compile

/-- The header is stored as its token, which is no placeholder. -/
theorem Sources.resolve_synthesized_header : ∃ definition step,
    conditionalOperation.compile conditionalCall "f" = .ok definition ∧
      definition.Yields conditionalCall callingConditional (.rest step) ∧
      ∃ reference given before, callingConditional.reference = .ok reference ∧
        (conditionalOperation.setting definition.scope "f").given callingConditional reference =
          .ok given ∧
        updateDict before callingConditional.requestUpdate = .ok step.parameters ∧
        ∀ name value, before.get? name = some value →
          name ≠ Operation.apiVersionName → given.get? name ≠ some value →
          value = fromEnvironment name ∧
            (Placeholder.pieces (Placeholder.token name) = [.token name] ↔
              Placeholder.isName name = true) ∧
            ((∀ (env : Environment) (held : Json), env.value? name = some held →
              held.hasPlaceholder = false → env.resolve .strict value = .ok held) ↔
                Placeholder.isName name = true) := by
  obtain ⟨definition, step, hcompile, hyields, -⟩ := exists_conditionalCall
  exact ⟨definition, step, hcompile, hyields, Sources.resolve_synthesized_iff hcompile hyields⟩

/-- Whoever supplies `If-Match` finds that the step sends the token instead. -/
theorem Sources.not_forall_resolve_synthesized :
    ¬ ∀ (sources : Sources) (draft : Draft.Definition) (path : String) (definition : Definition),
      sources.compile draft path = .ok definition →
      ∀ (draftStep : Draft.Step) (step : RestCallStep),
        definition.Yields draft draftStep (.rest step) →
        ∀ name, step.parameters.get? name = some (fromEnvironment name) →
          draftStep.parameters.get? name = none →
          ∀ (env : Environment) (held : Json), env.value? name = some held →
            held.hasPlaceholder = false → env.resolve .strict (fromEnvironment name) = .ok held := by
  intro hall
  obtain ⟨definition, step, hcompile, hyields, hstored⟩ := exists_conditionalCall
  have hname : Placeholder.isName "If-Match" = true := Environment.resolve_token_iff.1
    (hall conditionalOperation conditionalCall "f" definition hcompile callingConditional step hyields
      "If-Match" hstored rfl)
  exact absurd hname (by decide)

end Rehearsal
