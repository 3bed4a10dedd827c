import Rehearsal.Proofs.Compile.Demand

/-!
# What compiling steps leaves as it is

While steps are compiled their owner demands names and declares what the steps set, and nothing else
happens to it. So a property of declarations that survives these two changes (`Declarations.Stable`)
survives the compilation of any steps (`Declarations.Stable.steps`): a name that is declared keeps
its declaration, for one (`Declarations.stable_get?`).
-/

namespace Rehearsal

namespace Declarations

/-- A property of declarations that survives what steps do to their owner. -/
structure Stable (P : Declarations → Prop) : Prop where
  /-- Demanding a name keeps the property. -/
  require : ∀ {scope : Declarations}, P scope → ∀ name, P (scope.require name)
  /-- Declaring what a step sets keeps the property. -/
  declareOutput : ∀ {scope : Declarations}, P scope → ∀ name kind, P (scope.declareOutput name kind)

namespace Stable

open Compile

variable {P : Declarations → Prop} (hP : Stable P) {setting : Setting} {draft : Draft.Step}
  {reference : Draft.Reference} {scopes scopes' : Scopes} {scope : Declarations} {header : StepHeader}
  {outcome : Outcome}

include hP

theorem requireAll (h : P scope) (names : List String) : P (names.foldl Declarations.require scope) := by
  induction names generalizing scope with
  | nil => exact h
  | cons name names ih => exact ih (hP.require h name)

theorem declareOutputs {α : Type} (h : P scope) (kind : α → VariableKind)
    (outputs : List (String × α)) :
    P (outputs.foldl (fun owner entry => owner.declareOutput entry.1 (kind entry.2)) scope) := by
  induction outputs generalizing scope with
  | nil => exact h
  | cons entry outputs ih => exact ih (hP.declareOutput h entry.1 (kind entry.2))

theorem demand (h : P scopes.owner) (name : String) : P (setting.demand scopes name).owner := by
  rw [Setting.demand]
  split
  · exact h
  · exact hP.require h name

theorem bindParameter {op : Operation} {parameter : Parameter} {bound bound' : Dict Json × Scopes}
    (hbound : P bound.2.owner)
    (h : Compile.bindParameter setting draft op bound parameter = .ok bound') : P bound'.2.owner := by
  unfold Compile.bindParameter at h
  dsimp only at h
  split at h
  · cases h; exact hbound
  split at h
  · split at h
    · cases h
    · cases h; exact hbound
  split at h
  · cases h; exact hbound
  split at h
  · cases h; exact hbound
  split at h
  · cases h; exact hP.demand hbound _
  · cases h; exact hbound

theorem demandTemplateParameter {name : String} {parameter : TemplateParameter}
    (hscopes : P scopes.owner)
    (h : Compile.demandTemplateParameter setting scopes name parameter = .ok scopes') :
    P scopes'.owner := by
  unfold Compile.demandTemplateParameter at h
  split at h
  · cases h; exact hscopes
  split at h
  · cases h; exact hP.demand hscopes name
  · cases h

theorem particular (hscopes : P scopes.owner)
    (h : Compile.particular setting draft reference scopes header = .ok outcome) :
    P outcome.owner := by
  cases reference with
  | operation id =>
    obtain ⟨op, source, values, within, parameters, responses, -, hbinds, -, -, rfl⟩ :=
      operationStep_eq_ok h
    exact foldlM_keeps (P := fun bound : Dict Json × Scopes => P bound.2.owner) hbinds hscopes
      fun _ _ _ _ hnext hbefore => hP.bindParameter hbefore hnext
  | fixture path => exact owner_fixtureStep h ▸ hscopes
  | template path =>
    obtain ⟨document, template, within, -, -, hdemanded, rfl⟩ := templateStep_eq_ok h
    have hwithin : P within.owner :=
      foldlM_keeps (P := fun scopes : Scopes => P scopes.owner) hdemanded hscopes
        fun _ _ _ _ hnext hbefore => hP.demandTemplateParameter hbefore hnext
    exact hP.declareOutputs hwithin TemplateOutput.kind template.outputs.entries
  | script path =>
    obtain ⟨content, -, h⟩ := exists_of_bind_eq_ok h
    cases h
    exact hscopes

variable {phase : Phase} {outer : Option Declarations} {owner : Declarations} {label name : String}
  {taken : List String}

theorem step (howner : P owner)
    (h : Compile.step setting phase outer owner draft reference name = .ok outcome) :
    P outcome.owner := by
  obtain ⟨vars, -, h⟩ := exists_of_bind_eq_ok h
  obtain ⟨inner, hinner, h⟩ := exists_of_bind_eq_ok h
  have hparticular := hP.particular howner hinner
  cases h
  exact hP.requireAll (hP.declareOutputs hparticular OutputVariable.kind _) vars.required

/-- What survives one step survives steps that run together. -/
theorem steps {index : Nat} {drafts : List Draft.Step} {batch : Batch} (howner : P owner)
    (h : Compile.steps setting phase outer label index taken owner drafts = .ok batch) :
    P batch.owner := by
  induction drafts generalizing index taken owner batch with
  | nil => cases h; exact howner
  | cons draft drafts ih =>
    rw [Compile.steps] at h
    obtain ⟨outcome, hfirst, h⟩ := exists_of_bind_eq_ok h
    obtain ⟨rest, hrest, h⟩ := exists_of_bind_eq_ok h
    obtain ⟨reference, name, -, -, hstep⟩ := labelledStep_eq_ok hfirst
    have hothers := ih (hP.step howner hstep) hrest
    cases h
    exact hothers

end Stable

/-- What a name is declared as stays. -/
theorem stable_get? (name : String) (v : Variable) : Stable fun scope => scope.get? name = some v where
  require h _ := h
  declareOutput {scope} h other kind := by
    have hdeclared : (if scope.contains other then scope
        else scope.declare other (.placeholder kind)).get? name = some v := by
      split
      · exact h
      · next hother =>
        have hne : name ≠ other := by
          rintro rfl
          refine hother ?_
          rw [contains, Dict.contains, ← get?, h]
          rfl
        rw [get?_declare, if_neg hne]
        exact h
    rw [Declarations.declareOutput]
    split
    · exact hdeclared
    · exact hdeclared

end Declarations

end Rehearsal
