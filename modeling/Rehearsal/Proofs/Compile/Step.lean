import Rehearsal.Compile.Step
import Rehearsal.Proofs.Compile.Gains

/-!
# What a compiled step takes and sets

A step takes names from the environment when it runs: those of the parameters that it binds to it,
and those of the template that it deploys. Each of them is known to one of the scopes that the step
sees, or it is demanded of the owner of the step, or every scope binds it, and what the step sets
is all that its owner comes to declare besides (`Compile.draws_step`).
-/

namespace Rehearsal

namespace Step

/-- The template that a step deploys has an output. -/
def Produces (name : String) : Step → Prop
  | .rest _ => False
  | .deployment step => step.template.outputs.contains name = true

/-- A step sets a variable: it says so, or the template that it deploys has it as an output. -/
def Sets (s : Step) (name : String) : Prop :=
  s.header.outputs.contains name = true ∨ s.Produces name

theorem produces_modifyHeader {s : Step} {name : String} (f : StepHeader → StepHeader) :
    (s.modifyHeader f).Produces name ↔ s.Produces name := by
  cases s <;> rfl

theorem header_modifyHeader (s : Step) (f : StepHeader → StepHeader) :
    (s.modifyHeader f).header = f s.header := by
  cases s <;> rfl

end Step

namespace Compile

/-- The values of parameters that the author of a step gives: in the draft, or in the example that
the step repeats. -/
def Setting.given (setting : Setting) (draft : Draft.Step) :
    Draft.Reference → Except CompileError (Dict Json)
  | .operation _ => .ok draft.parameters
  | .fixture path =>
    (setting.document (setting.resolve path)).map fun fixture => fixtureMembers fixture "parameters"
  | .template _ | .script _ => .ok ∅

/-- What a compiled step takes from the environment has a property. A request takes the names of
parameters: before they are edited as the author says, each is the version of the API, or as given,
or it stands for the name in the environment. A deployment takes the parameters of its template that
have no default. -/
inductive Draws (setting : Setting) (draft : Draft.Step) (reference : Draft.Reference)
    (P : String → Prop) : Step → Prop
  | request {s : RestCallStep} {given before : Dict Json}
      (isGiven : setting.given draft reference = .ok given)
      (edited : updateDict before draft.requestUpdate = .ok s.parameters)
      (drawn : ∀ name value, before.get? name = some value →
        name = Operation.apiVersionName ∧ value = .str s.operation.apiVersion ∨
          given.get? name = some value ∨ value = fromEnvironment name ∧ P name) :
      Draws setting draft reference P (.rest s)
  | deployment {s : DeploymentStep}
      (drawn : ∀ entry ∈ s.template.parameters.entries, entry.2.default? = none → P entry.1) :
      Draws setting draft reference P (.deployment s)

/-- Without edits parameters stay as they are. -/
theorem updateDict_nil (dict : Dict Json) : updateDict dict [] = .ok dict :=
  congrArg Except.ok dict.ofList_entries

variable {setting : Setting} {draft : Draft.Step} {reference : Draft.Reference}
  {scopes scopes' : Scopes} {header : StepHeader} {outcome : Outcome} {P Q : String → Prop}

theorem Draws.mono {s : Step} (h : Draws setting draft reference P s) (hPQ : ∀ name, P name → Q name) :
    Draws setting draft reference Q s := by
  cases h with
  | request isGiven edited drawn =>
    exact .request isGiven edited fun name value hvalue =>
      (drawn name value hvalue).imp_right fun h => h.imp_right fun h => ⟨h.1, hPQ name h.2⟩
  | deployment drawn => exact .deployment fun entry hmem hnone => hPQ _ (drawn entry hmem hnone)

theorem Draws.modifyHeader {s : Step} (h : Draws setting draft reference P s)
    (f : StepHeader → StepHeader) : Draws setting draft reference P (s.modifyHeader f) := by
  cases h with
  | request isGiven edited drawn => exact .request isGiven edited drawn
  | deployment drawn => exact .deployment drawn

/-! ### Demands -/

/-- Scopes in which the owner may demand more. -/
structure Demands (scopes scopes' : Scopes) : Prop where
  step : scopes'.step = scopes.step
  outer : scopes'.outer = scopes.outer
  owner : Declarations.Grows (fun _ => False) scopes.owner scopes'.owner

/-- Somebody supplies a name to a step that sees some scopes, of which the owner is as it is after
the step: one of the scopes knows it, or the owner demands it, or every scope binds it. -/
def Reachable (setting : Setting) (scopes : Scopes) (owner : Declarations) (name : String) : Prop :=
  scopes.Knows name ∨ name ∈ owner.required ∨ setting.provides name = true

namespace Demands

theorem refl (scopes : Scopes) : Demands scopes scopes := ⟨rfl, rfl, .refl _ _⟩

theorem trans {scopes'' : Scopes} (h : Demands scopes scopes') (h' : Demands scopes' scopes'') :
    Demands scopes scopes'' :=
  ⟨h'.step.trans h.step, h'.outer.trans h.outer, h.owner.trans h'.owner⟩

theorem demand (setting : Setting) (scopes : Scopes) (name : String) :
    Demands scopes (setting.demand scopes name) := by
  rw [Setting.demand]
  split
  · exact refl scopes
  · exact ⟨rfl, rfl, .require _ _ name⟩

/-- What is known later on was known before or is demanded. -/
theorem reachable_of_knows (h : Demands scopes scopes') {name : String} (hknows : scopes'.Knows name) :
    Reachable setting scopes scopes'.owner name := by
  obtain ⟨scope, hmem, hscope⟩ := hknows
  rw [Scopes.chain, h.step, h.outer, List.mem_cons, List.mem_cons] at hmem
  rcases hmem with rfl | rfl | hmem
  · exact .inl ⟨_, List.mem_cons_self, hscope⟩
  · rcases hscope with hdeclared | hrequired
    · rcases h.owner.declared name hdeclared with hdeclared | hfalse
      · exact .inl ⟨_, List.mem_cons_of_mem _ List.mem_cons_self, .inl hdeclared⟩
      · exact hfalse.elim
    · exact .inr (.inl hrequired)
  · exact .inl ⟨scope, List.mem_cons_of_mem _ (List.mem_cons_of_mem _ hmem), hscope⟩

theorem reachable_of_binds (h : Demands scopes scopes') {name : String}
    (hbinds : setting.binds scopes' name = true) : Reachable setting scopes scopes'.owner name := by
  rw [Setting.binds, Bool.or_eq_true, Scopes.isDeclared_iff] at hbinds
  exact hbinds.elim h.reachable_of_knows fun h => .inr (.inr h)

end Demands

theorem Reachable.mono {owner owner' : Declarations} {name : String}
    (h : Reachable setting scopes owner name)
    (howner : ∀ name ∈ owner.required, name ∈ owner'.required) :
    Reachable setting scopes owner' name :=
  h.imp_right fun h => h.imp_left (howner name)

theorem reachable_demand (setting : Setting) (scopes scopes' : Scopes) (name : String) :
    Reachable setting scopes (setting.demand scopes' name).owner name := by
  rw [Setting.demand]
  split
  · next hprovides => exact .inr (.inr hprovides)
  · exact .inr (.inl (Declarations.mem_required_require.2 (.inr rfl)))

/-! ### Steps that call an operation -/

/-- How a step is compiled that names its operation. -/
theorem operationStep_eq_ok {id : String}
    (h : operationStep setting draft id scopes header = .ok outcome) :
    ∃ op source values within parameters responses,
      setting.operation id draft.externalReference = .ok (op, source) ∧
      op.parameters.foldlM (bindParameter setting draft op) (∅, scopes) = .ok (values, within) ∧
      updateDict (withApiVersion op values) draft.requestUpdate = .ok parameters ∧
      updateDict draft.responses draft.responseUpdate >>= assertions = .ok responses ∧
      outcome =
        { step := .rest
            { header, externalReference := draft.externalReference, operation := op, parameters,
              responses }
          owner := within.owner, source } := by
  obtain ⟨⟨op, source⟩, hop, h⟩ := exists_of_bind_eq_ok h
  obtain ⟨⟨values, within⟩, hbinds, h⟩ := exists_of_bind_eq_ok h
  obtain ⟨parameters, hedited, h⟩ := exists_of_bind_eq_ok h
  obtain ⟨responses, hexpected, h⟩ := exists_of_bind_eq_ok h
  cases h
  exact ⟨op, source, values, within, parameters, responses, hop, hbinds, hedited, hexpected, rfl⟩

/-- The parameters of an example as a step repeats them before it edits them: those that the scopes
have are taken from the environment, and the version of the API is that of the operation. -/
def repeated (setting : Setting) (scopes : Scopes) (op : Operation) (fixture : Json) :
    Except CompileError (Dict Json) :=
  (op.parameters.foldlM (rebindParameter setting scopes op) (fixtureMembers fixture "parameters")).map
    (withApiVersion op)

/-- The responses of an example that a step expects before it edits them. -/
def reshaped (setting : Setting) (draft : Draft.Step) (op : Operation) (fixture : Json)
    (before after : Dict Json) : Dict Json :=
  let recorded := fixtureMembers fixture "responses"
  if draft.requestUpdate.isEmpty then recorded else reshapeAll setting op before after recorded

/-- How a step is compiled that repeats a recorded example. -/
theorem fixtureStep_eq_ok {declared : String}
    (h : fixtureStep setting draft declared scopes header = .ok outcome) :
    ∃ fixture op source before parameters responses,
      setting.document (setting.resolve declared) = .ok fixture ∧
      repeated setting scopes op fixture = .ok before ∧
      updateDict before draft.requestUpdate = .ok parameters ∧
      updateDict (reshaped setting draft op fixture before parameters) draft.responseUpdate >>=
        assertions = .ok responses ∧
      outcome =
        { step := .rest
            { header, externalReference := draft.externalReference,
              exampleFile := some (setting.resolve declared), operation := op, parameters, responses }
          owner := scopes.owner, source } := by
  obtain ⟨fixture, hfixture, h⟩ := exists_of_bind_eq_ok h
  -- Wherever the id of the operation comes from, it is looked up in the same way.
  dsimp only at h
  split at h <;>
  · obtain ⟨id, -, h⟩ := exists_of_bind_eq_ok h
    obtain ⟨⟨op, source⟩, -, h⟩ := exists_of_bind_eq_ok h
    obtain ⟨values, hbinds, h⟩ := exists_of_bind_eq_ok h
    obtain ⟨parameters, hedited, h⟩ := exists_of_bind_eq_ok h
    obtain ⟨responses, hexpected, h⟩ := exists_of_bind_eq_ok h
    cases h
    refine ⟨fixture, op, source, withApiVersion op values, parameters, responses, hfixture, ?_,
      hedited, hexpected, rfl⟩
    rw [repeated, hbinds]
    rfl

/-- The parameters bound so far: as given, or taken from an environment that has them. -/
def BoundTo (setting : Setting) (given : Dict Json) (scopes : Scopes) (owner : Declarations)
    (values : Dict Json) : Prop :=
  ∀ name value, values.get? name = some value →
    given.get? name = some value ∨ value = fromEnvironment name ∧ Reachable setting scopes owner name

theorem BoundTo.insert {given values : Dict Json} {owner owner' : Declarations} {name : String}
    {value : Json} (h : BoundTo setting given scopes owner values)
    (howner : ∀ name ∈ owner.required, name ∈ owner'.required)
    (hvalue : given.get? name = some value ∨
      value = fromEnvironment name ∧ Reachable setting scopes owner' name) :
    BoundTo setting given scopes owner' (values.insert name value) := by
  intro other found hfound
  rw [Dict.get?_insert] at hfound
  split at hfound
  · next heq =>
    cases hfound
    exact heq ▸ hvalue
  · exact (h other found hfound).imp_right fun h => ⟨h.1, h.2.mono howner⟩

/-- Binding a parameter keeps what is bound as it should be. -/
theorem boundTo_bindParameter {op : Operation} {parameter : Parameter}
    {bound bound' : Dict Json × Scopes}
    (h : bindParameter setting draft op bound parameter = .ok bound')
    (hbound : Demands scopes bound.2 ∧
      BoundTo setting draft.parameters scopes bound.2.owner bound.1) :
    Demands scopes bound'.2 ∧
      BoundTo setting draft.parameters scopes bound'.2.owner bound'.1 := by
  obtain ⟨values, within⟩ := bound
  obtain ⟨hdemands, hvalues⟩ := hbound
  unfold bindParameter at h
  dsimp only at h
  split at h
  · cases h
    exact ⟨hdemands, hvalues⟩
  split at h
  · split at h
    · cases h
    · cases h
      exact ⟨hdemands, hvalues⟩
  split at h
  · next value hgiven =>
    cases h
    exact ⟨hdemands, hvalues.insert (fun _ h => h) (.inl hgiven)⟩
  split at h
  · next hbinds =>
    cases h
    exact ⟨hdemands,
      hvalues.insert (fun _ h => h) (.inr ⟨rfl, hdemands.reachable_of_binds hbinds⟩)⟩
  split at h
  · cases h
    have hmore := Demands.demand setting within parameter.name
    exact ⟨hdemands.trans hmore, hvalues.insert hmore.owner.required
      (.inr ⟨rfl, reachable_demand setting scopes within parameter.name⟩)⟩
  · cases h
    exact ⟨hdemands, hvalues⟩

theorem boundTo_rebindParameter {op : Operation} {parameter : Parameter} {given values values' : Dict Json}
    (h : rebindParameter setting scopes op values parameter = .ok values')
    (hvalues : BoundTo setting given scopes scopes.owner values) :
    BoundTo setting given scopes scopes.owner values' := by
  unfold rebindParameter at h
  dsimp only at h
  split at h
  · cases h
    exact hvalues
  split at h
  · split at h
    · cases h
    · cases h
      exact hvalues
  split at h
  · next hbinds =>
    cases h
    have hreachable := (Demands.refl scopes).reachable_of_binds hbinds
    exact hvalues.insert (fun _ h => h) (.inr ⟨rfl, hreachable⟩)
  · cases h
    exact hvalues

/-- With the version of the API all parameters are accounted for. -/
theorem BoundTo.withApiVersion {given values : Dict Json} {owner : Declarations}
    (h : BoundTo setting given scopes owner values) (op : Operation) (name : String) (value : Json)
    (hvalue : (withApiVersion op values).get? name = some value) :
    name = Operation.apiVersionName ∧ value = .str op.apiVersion ∨ given.get? name = some value ∨
      value = fromEnvironment name ∧ Reachable setting scopes owner name := by
  rw [Compile.withApiVersion, Dict.get?_insert] at hvalue
  split at hvalue
  · next heq =>
    cases hvalue
    exact .inl ⟨heq, rfl⟩
  · exact .inr (h name value hvalue)

/-- What is particular to a kind of step: its owner demands more and declares the outputs of a
template, and what the step takes from the environment can be had there. -/
structure Particular (setting : Setting) (draft : Draft.Step) (reference : Draft.Reference)
    (scopes : Scopes) (outcome : Outcome) : Prop where
  grows : Declarations.Grows (fun name => outcome.step.Produces name) scopes.owner outcome.owner
  draws : Draws setting draft reference (Reachable setting scopes outcome.owner) outcome.step

/-- Parameters that are repeated are given by the example, or accounted for. -/
theorem boundTo_repeated {op : Operation} {fixture : Json} {before : Dict Json}
    (h : repeated setting scopes op fixture = .ok before) (name : String) (value : Json)
    (hvalue : before.get? name = some value) :
    name = Operation.apiVersionName ∧ value = .str op.apiVersion ∨
      (fixtureMembers fixture "parameters").get? name = some value ∨
      value = fromEnvironment name ∧ Reachable setting scopes scopes.owner name := by
  obtain ⟨values, hbinds, rfl⟩ := exists_of_map_eq_ok h
  have hbound := foldlM_keeps
    (P := BoundTo setting (fixtureMembers fixture "parameters") scopes scopes.owner) hbinds
    (fun _ _ hvalue => .inl hvalue) fun _ _ _ _ => boundTo_rebindParameter
  exact hbound.withApiVersion op name value hvalue

theorem particular_operationStep {id : String}
    (h : operationStep setting draft id scopes header = .ok outcome) :
    Particular setting draft (.operation id) scopes outcome := by
  obtain ⟨op, source, values, within, parameters, responses, -, hbinds, hedited, -, rfl⟩ :=
    operationStep_eq_ok h
  have hbound := foldlM_keeps
    (P := fun bound : Dict Json × Scopes => Demands scopes bound.2 ∧
      BoundTo setting draft.parameters scopes bound.2.owner bound.1) hbinds
    ⟨.refl scopes, fun _ _ hvalue => nomatch hvalue⟩ fun _ _ _ _ => boundTo_bindParameter
  exact ⟨hbound.1.owner.mono fun _ h => h.elim, .request rfl hedited (hbound.2.withApiVersion op)⟩

theorem particular_fixtureStep {path : String}
    (h : fixtureStep setting draft path scopes header = .ok outcome) :
    Particular setting draft (.fixture path) scopes outcome := by
  obtain ⟨fixture, op, source, before, parameters, responses, hfixture, hrepeated, hedited, -, rfl⟩ :=
    fixtureStep_eq_ok h
  have hgiven : setting.given draft (.fixture path) = .ok (fixtureMembers fixture "parameters") := by
    rw [Setting.given, hfixture]
    rfl
  exact ⟨.refl _ _, .request hgiven hedited (boundTo_repeated hrepeated)⟩

/-! ### Steps that deploy -/

theorem demands_demandTemplateParameter {name : String} {parameter : TemplateParameter}
    (h : demandTemplateParameter setting scopes name parameter = .ok scopes') :
    Demands scopes scopes' ∧
      (parameter.default? = none → Reachable setting scopes scopes'.owner name) := by
  unfold demandTemplateParameter at h
  split at h
  · next hknown =>
    cases h
    refine ⟨.refl scopes, fun hnone => ?_⟩
    rw [hnone, Bool.or_eq_true, Scopes.isDeclared_iff] at hknown
    exact .inl (hknown.resolve_left nofun)
  split at h
  · cases h
    exact ⟨.demand setting scopes name, fun _ => reachable_demand setting scopes scopes name⟩
  · cases h

theorem demands_templateParameters {entries : List (String × TemplateParameter)}
    (h : entries.foldlM (fun scopes (entry : String × TemplateParameter) =>
      demandTemplateParameter setting scopes entry.1 entry.2) scopes = .ok scopes') :
    Demands scopes scopes' ∧
      ∀ entry ∈ entries, entry.2.default? = none →
        Reachable setting scopes scopes'.owner entry.1 := by
  induction entries generalizing scopes with
  | nil =>
    cases h
    exact ⟨.refl _, fun _ hmem => absurd hmem List.not_mem_nil⟩
  | cons entry entries ih =>
    rw [List.foldlM_cons] at h
    obtain ⟨next, hnext, hrest⟩ := exists_of_bind_eq_ok h
    obtain ⟨hdemands, hfirst⟩ := demands_demandTemplateParameter hnext
    obtain ⟨hdemands', hothers⟩ := ih hrest
    refine ⟨hdemands.trans hdemands', fun other hmem hnone => ?_⟩
    rcases List.mem_cons.1 hmem with rfl | hmem
    · exact (hfirst hnone).mono hdemands'.owner.required
    · rcases hothers other hmem hnone with hknows | hrest
      · exact (hdemands.reachable_of_knows hknows).mono hdemands'.owner.required
      · exact .inr hrest

/-- How a step is compiled that deploys a template. -/
theorem templateStep_eq_ok {path : String}
    (h : templateStep setting path scopes header = .ok outcome) :
    ∃ document template within,
      setting.document (setting.resolve path) = .ok document ∧
      Template.ofJson? document = some template ∧
      template.parameters.entries.foldlM (fun scopes (entry : String × TemplateParameter) =>
        demandTemplateParameter setting scopes entry.1 entry.2) scopes = .ok within ∧
      outcome =
        { step := .deployment { header, template, sourceFile := setting.resolve path }
          owner := template.outputs.entries.foldl (fun owner entry =>
            owner.declareOutput entry.1 entry.2.kind) within.owner } := by
  obtain ⟨document, hdocument, h⟩ := exists_of_bind_eq_ok h
  obtain ⟨template, htemplate, h⟩ := exists_of_bind_eq_ok h
  obtain ⟨within, hdemanded, h⟩ := exists_of_bind_eq_ok h
  cases h
  exact ⟨document, template, within, hdocument, eq_some_of_elim_eq_ok htemplate, hdemanded, rfl⟩

theorem particular_templateStep {path : String}
    (h : templateStep setting path scopes header = .ok outcome) :
    Particular setting draft (.template path) scopes outcome := by
  obtain ⟨document, template, within, -, -, hdemanded, rfl⟩ := templateStep_eq_ok h
  obtain ⟨hdemands, hreachable⟩ := demands_templateParameters hdemanded
  have houtputs : Declarations.Grows (fun name => template.outputs.contains name = true) within.owner
      (template.outputs.entries.foldl (fun owner entry =>
        owner.declareOutput entry.1 entry.2.kind) within.owner) :=
    .foldl (fun _ hmem owner => .declareOutput owner _ (Dict.contains_of_mem hmem)) within.owner
  refine ⟨(hdemands.owner.mono fun _ h => h.elim).trans houtputs, .deployment fun entry hmem hnone => ?_⟩
  exact (hreachable entry hmem hnone).mono houtputs.required

theorem particular_scriptStep {path : String}
    (h : scriptStep setting draft path scopes header = .ok outcome) :
    Particular setting draft (.script path) scopes outcome := by
  obtain ⟨content, -, h⟩ := exists_of_bind_eq_ok h
  cases h
  refine ⟨.refl _ _, .deployment fun entry hmem hnone => ?_⟩
  -- The only parameter of the template has a default.
  have hentry : entry ∈ [("utcValue", ({ typeName := "string", default? := some (.str "[utcNow()]") } :
      TemplateParameter))] := hmem
  rw [List.mem_singleton.1 hentry] at hnone
  cases hnone

/-! ### All steps -/

theorem particular_particular (h : particular setting draft reference scopes header = .ok outcome) :
    Particular setting draft reference scopes outcome := by
  cases reference with
  | operation id => exact particular_operationStep h
  | fixture path => exact particular_fixtureStep h
  | template path => exact particular_templateStep h
  | script path => exact particular_scriptStep h

/-- Somebody supplies a name to a step behind some others of its owner: the step declares it, or the
owner did before them, or one of them sets it, or a scope around the owner knows it, or the owner
demands it in the end, or every scope binds it. -/
inductive Available (setting : Setting) (draft : Draft.Step) (owner : Declarations)
    (earlier : List Step) (outer : Option Declarations) (owner' : Declarations) (name : String) : Prop
  | own (h : draft.vars.contains name = true)
  | owner (h : owner.contains name = true)
  | earlier {s : Step} (hs : s ∈ earlier) (h : s.Sets name)
  | outer {scope : Declarations} (hscope : scope ∈ outer) (h : scope.Knows name)
  | demanded (h : name ∈ owner'.required)
  | provided (h : setting.provides name = true)

/-- What a step takes from the environment can be had there, and what its owner declares besides is
what the step sets. -/
theorem draws_step {phase : Phase} {outer : Option Declarations} {owner : Declarations} {name : String}
    (h : step setting phase outer owner draft reference name = .ok outcome) :
    Declarations.Grows outcome.step.Sets owner outcome.owner ∧
      Draws setting draft reference (Available setting draft owner [] outer outcome.owner)
        outcome.step := by
  obtain ⟨vars, hvars, h⟩ := exists_of_bind_eq_ok h
  obtain ⟨inner, hinner, h⟩ := exists_of_bind_eq_ok h
  obtain ⟨hgrows, hdraws⟩ := particular_particular hinner
  cases h
  let outputs := draft.outputVariables.mapValues fun _ output => outputVariable output
  let final := inner.step.modifyHeader fun header => { header with outputs, vars }
  have hproduces : ∀ name, inner.step.Produces name → final.Sets name := fun name hname =>
    .inr ((Step.produces_modifyHeader _).2 hname)
  have hsets : ∀ entry ∈ outputs.entries, final.Sets entry.1 := fun entry hmem => by
    refine .inl ?_
    rw [Step.header_modifyHeader]
    exact Dict.contains_of_mem hmem
  have hafter : Declarations.Grows final.Sets inner.owner
      (vars.required.foldl Declarations.require (outputs.entries.foldl (fun owner entry =>
        owner.declareOutput entry.1 entry.2.kind) inner.owner)) :=
    (Declarations.Grows.foldl (fun entry hmem owner => .declareOutput owner _ (hsets entry hmem)) _).trans
      (.foldl (fun name _ owner => .require _ owner name) _)
  have hfinal : Draws setting draft reference (Reachable setting { step := vars, owner, outer } inner.owner)
      final := hdraws.modifyHeader _
  refine ⟨(hgrows.mono hproduces).trans hafter, hfinal.mono fun name hname => ?_⟩
  rcases hname.mono hafter.required with ⟨scope, hmem, hknows⟩ | hrequired | hprovides
  · rw [Scopes.chain, List.mem_cons, List.mem_cons, Option.mem_toList] at hmem
    rcases hmem with rfl | rfl | hmem
    · exact .own (contains_of_declareAll hvars hknows)
    · rcases hknows with hdeclared | hrequired
      · exact .owner hdeclared
      · exact .demanded (hafter.required _ (hgrows.required _ hrequired))
    · exact .outer hmem hknows
  · exact .demanded hrequired
  · exact .provided hprovides

end Compile

end Rehearsal
