import Rehearsal.Proofs.Compile.Definition

/-!
# What a scenario demands from outside

The list of names that a scenario demands grows along its steps, while the outputs of these steps
grow what the next ones see. In the end a name is on the list for one of four reasons
(`Compile.Wanted`), and for no other (`Sources.required_compile_iff`).

* `Compile.Setting.Needs`, `Compile.Setting.Sets`: what a step of a draft cannot do without, and
  what it declares for the steps behind it;
* `Compile.Asks`: how the owner of a step comes to demand what the step needs;
* `Compile.Setting.Wants`, `Compile.Setting.WantedAlong`: what is demanded on behalf of a step, and
  of steps that run together.
-/

namespace Rehearsal

namespace Compile

open Declarations

/-! ### What a step of a draft needs and sets -/

/-- A request cannot do without a parameter, and the author of its step does not give it. -/
def Lacks (draft : Draft.Step) (parameter : Parameter) : Prop :=
  (parameter.required = true ∨ parameter.location = .path) ∧
    parameter.name ≠ Operation.apiVersionName ∧ draft.parameters.contains parameter.name = false

namespace Setting

/-- A step calls an operation and has the parameters of its own. -/
def Calls (setting : Setting) (draft : Draft.Step) (op : Operation) : Prop :=
  ∃ id source, draft.reference = .ok (.operation id) ∧
    setting.operation id draft.externalReference = .ok (op, source)

/-- A step deploys a template. -/
def Deploys (setting : Setting) (draft : Draft.Step) (template : Template) : Prop :=
  ∃ path document, draft.reference = .ok (.template path) ∧
    setting.document (setting.resolve path) = .ok document ∧
    Template.ofJson? document = some template

/-- A step cannot do without a name: it calls an operation and lacks a parameter of this name, or it
deploys a template with a parameter of this name that has no default. -/
inductive Needs (setting : Setting) (draft : Draft.Step) (name : String) : Prop
  | parameter {op : Operation} {parameter : Parameter} (calls : setting.Calls draft op)
      (hmem : parameter ∈ op.parameters) (hname : name = parameter.name)
      (hlacks : Lacks draft parameter)
  | template {template : Template} {parameter : TemplateParameter}
      (deploys : setting.Deploys draft template)
      (hparameter : template.parameters.get? name = some parameter)
      (hdefault : parameter.default? = none)

/-- A step deploys a template that has an output. -/
def Produces (setting : Setting) (draft : Draft.Step) (name : String) : Prop :=
  ∃ template, setting.Deploys draft template ∧ template.outputs.contains name = true

/-- A step sets a name for the steps behind it: its author says so, or it produces an output of this
name. -/
def Sets (setting : Setting) (draft : Draft.Step) (name : String) : Prop :=
  draft.outputVariables.contains name = true ∨ setting.Produces draft name

variable {setting : Setting} {draft : Draft.Step} {name : String}

theorem Calls.unique {op op' : Operation} (h : setting.Calls draft op) (h' : setting.Calls draft op') :
    op' = op := by
  obtain ⟨id, source, hreference, hop⟩ := h
  obtain ⟨id', source', hreference', hop'⟩ := h'
  cases hreference.symm.trans hreference'
  cases hop.symm.trans hop'
  rfl

theorem Deploys.unique {template template' : Template} (h : setting.Deploys draft template)
    (h' : setting.Deploys draft template') : template' = template := by
  obtain ⟨path, document, hreference, hdocument, htemplate⟩ := h
  obtain ⟨path', document', hreference', hdocument', htemplate'⟩ := h'
  cases hreference.symm.trans hreference'
  cases hdocument.symm.trans hdocument'
  cases htemplate.symm.trans htemplate'
  rfl

theorem Calls.not_deploys {op : Operation} {template : Template} (h : setting.Calls draft op) :
    ¬ setting.Deploys draft template := by
  obtain ⟨id, source, hreference, -⟩ := h
  rintro ⟨path, document, hreference', -⟩
  cases hreference.symm.trans hreference'

theorem needs_iff_of_calls {op : Operation} (h : setting.Calls draft op) :
    setting.Needs draft name ↔
      ∃ parameter ∈ op.parameters, name = parameter.name ∧ Lacks draft parameter := by
  constructor
  · intro hneeds
    cases hneeds with
    | parameter calls hmem hname hlacks => exact ⟨_, h.unique calls ▸ hmem, hname, hlacks⟩
    | template deploys => exact absurd deploys h.not_deploys
  · rintro ⟨parameter, hmem, hname, hlacks⟩
    exact .parameter h hmem hname hlacks

theorem needs_iff_of_deploys {template : Template} (h : setting.Deploys draft template) :
    setting.Needs draft name ↔
      ∃ entry ∈ template.parameters.entries, name = entry.1 ∧ entry.2.default? = none := by
  constructor
  · intro hneeds
    cases hneeds with
    | parameter calls => exact absurd h calls.not_deploys
    | template deploys hparameter hdefault =>
      rw [h.unique deploys] at hparameter
      exact ⟨_, Dict.mem_entries_iff.2 hparameter, rfl, hdefault⟩
  · rintro ⟨⟨_, parameter⟩, hmem, rfl, hdefault⟩
    exact .template h (Dict.mem_entries_iff.1 hmem) hdefault

theorem produces_iff_of_deploys {template : Template} (h : setting.Deploys draft template) :
    setting.Produces draft name ↔ template.outputs.contains name = true :=
  ⟨fun ⟨_, deploys, hcontains⟩ => h.unique deploys ▸ hcontains, fun hcontains => ⟨template, h, hcontains⟩⟩

end Setting

/-! ### What the owner of a step comes to demand -/

/-- The scopes around the owner of a step that it sees. -/
def aroundOwner (scopes : Scopes) : List Declarations := scopes.step :: scopes.outer.toList

/-- No scope that a step sees declares a name, and the step does not run in one that binds it. -/
def Setting.Hides (setting : Setting) (scopes : Scopes) (name : String) : Prop :=
  setting.provides name = false ∧ ¬ ∃ scope ∈ scopes.chain, scope.contains name = true

variable {setting : Setting} {scopes scopes' scopes'' : Scopes} {name : String}
  {needs needs' : String → Prop}

/-- A name that is hidden is bound only in that it is demanded already. -/
theorem demanded_of_binds (hbinds : setting.binds scopes name = true)
    (hhidden : setting.Hides scopes name) : Demanded (aroundOwner scopes) scopes.owner name := by
  obtain ⟨hprovides, hdeclares⟩ := hhidden
  rw [Setting.binds, hprovides, Bool.or_false, Scopes.isDeclared_iff] at hbinds
  obtain ⟨scope, hmem, hcontains | hrequired⟩ := hbinds
  · exact absurd ⟨scope, hmem, hcontains⟩ hdeclares
  · rw [Scopes.chain, List.mem_cons, List.mem_cons] at hmem
    rcases hmem with rfl | rfl | hmem
    · exact .inr ⟨_, List.mem_cons_self, hrequired⟩
    · exact .inl hrequired
    · exact .inr ⟨scope, List.mem_cons_of_mem _ hmem, hrequired⟩

/-- A name that no scope knows and that is not bound otherwise is hidden. -/
theorem hides_of_not_isDeclared (hdeclared : scopes.isDeclared name = false)
    (hprovides : setting.provides name = false) : setting.Hides scopes name := by
  rw [← Bool.not_eq_true, Scopes.isDeclared_iff] at hdeclared
  exact ⟨hprovides, fun ⟨scope, hmem, hcontains⟩ => hdeclared ⟨scope, hmem, .inl hcontains⟩⟩

/-- The owner of a step comes to demand what the step needs, as far as it is hidden. -/
structure Asks (setting : Setting) (needs : String → Prop) (scopes scopes' : Scopes) : Prop where
  step : scopes'.step = scopes.step
  outer : scopes'.outer = scopes.outer
  owner : Gains (aroundOwner scopes) (fun _ => False)
    (fun name => needs name ∧ setting.Hides scopes name) scopes.owner scopes'.owner

namespace Asks

theorem around_eq (h : Asks setting needs scopes scopes') : aroundOwner scopes' = aroundOwner scopes := by
  rw [aroundOwner, aroundOwner, h.step, h.outer]

/-- What is hidden stays so, as nothing is declared. -/
theorem hides_iff (h : Asks setting needs scopes scopes') :
    setting.Hides scopes' name ↔ setting.Hides scopes name := by
  have howner : scopes'.owner.contains name = scopes.owner.contains name :=
    Bool.eq_iff_iff.2 ((h.owner.declared name).trans (or_iff_left not_false))
  simp only [Setting.Hides, Scopes.chain, List.exists_mem_cons_iff, h.step, h.outer, howner]

theorem congr (h : Asks setting needs scopes scopes') (hneeds : ∀ name, needs name ↔ needs' name) :
    Asks setting needs' scopes scopes' :=
  ⟨h.step, h.outer, h.owner.congr (fun _ => .rfl) fun name => and_congr_left' (hneeds name)⟩

theorem trans (h : Asks setting needs scopes scopes') (h' : Asks setting needs' scopes' scopes'') :
    Asks setting (fun name => needs name ∨ needs' name) scopes scopes'' := by
  have hsecond := h'.owner
  rw [h.around_eq] at hsecond
  refine ⟨h'.step.trans h.step, h'.outer.trans h.outer, ?_⟩
  refine (h.owner.trans hsecond).congr (fun _ => or_self_iff) fun name => ?_
  rw [h.hides_iff, or_and_right]

/-- Nothing has to be demanded if all that is needed is bound. -/
theorem of_binds (h : ∀ name, needs name → setting.binds scopes name = true) :
    Asks setting needs scopes scopes where
  step := rfl
  outer := rfl
  owner :=
    { declared := fun _ => (or_iff_left not_false).symm
      demanded := fun name =>
        ⟨.inl, fun hname => hname.elim id fun ⟨hneeds, hhidden⟩ =>
          demanded_of_binds (h name hneeds) hhidden⟩
      nodup := id }

theorem demand (h : scopes.isDeclared name = false) :
    Asks setting (· = name) scopes (setting.demand scopes name) := by
  rw [Setting.demand]
  split
  · next hprovides =>
    refine of_binds fun other heq => ?_
    rw [heq, Setting.binds, hprovides, Bool.or_true]
  · next hprovides =>
    refine ⟨rfl, rfl, (Gains.require _ _ name).congr (fun _ => .rfl) fun other => ?_⟩
    have hhidden := hides_of_not_isDeclared h (Bool.eq_false_iff.2 hprovides)
    exact ⟨fun heq => ⟨heq, heq ▸ hhidden⟩, And.left⟩

/-- A walk along a list asks for what its steps ask for. -/
theorem foldlM {α β ε : Type} {f : β → α → Except ε β} {as : List α} {b b' : β} (within : β → Scopes)
    {needsOf : α → String → Prop} (h : as.foldlM f b = .ok b')
    (hstep : ∀ a ∈ as, ∀ b b', f b a = .ok b' → Asks setting (needsOf a) (within b) (within b')) :
    Asks setting (fun name => ∃ a ∈ as, needsOf a name) (within b) (within b') := by
  induction as generalizing b with
  | nil =>
    cases h
    exact of_binds fun _ ⟨_, hmem, _⟩ => absurd hmem List.not_mem_nil
  | cons a as ih =>
    rw [List.foldlM_cons] at h
    obtain ⟨next, hnext, hrest⟩ := exists_of_bind_eq_ok h
    have hfirst := hstep a List.mem_cons_self b next hnext
    have hothers := ih hrest fun a' hmem => hstep a' (List.mem_cons_of_mem a hmem)
    exact (hfirst.trans hothers).congr fun _ => by rw [List.exists_mem_cons_iff]

end Asks

variable {draft : Draft.Step}

/-- Binding a parameter asks for it if the step lacks it. -/
theorem asks_bindParameter {op : Operation} {parameter : Parameter} {bound bound' : Dict Json × Scopes}
    (h : bindParameter setting draft op bound parameter = .ok bound') :
    Asks setting (fun name => name = parameter.name ∧ Lacks draft parameter) bound.2 bound'.2 := by
  obtain ⟨values, within⟩ := bound
  have hleave (hbinds : Lacks draft parameter → setting.binds within parameter.name = true) :
      Asks setting (fun name => name = parameter.name ∧ Lacks draft parameter) within within :=
    .of_binds fun name ⟨heq, hlacks⟩ => heq ▸ hbinds hlacks
  unfold bindParameter at h
  dsimp only at h
  split at h
  · next hversion =>
    cases h
    exact hleave fun hlacks => absurd hversion hlacks.2.1
  split at h
  · next hunsupported =>
    split at h
    · cases h
    · next hleft =>
      cases h
      refine hleave fun hlacks => ?_
      -- What is required would have failed, and a path can carry its parameters.
      rcases hlacks.1 with hrequired | hpath
      · rw [hrequired, Bool.or_true] at hleft
        exact absurd rfl hleft
      · rw [hpath] at hunsupported
        cases hunsupported
  split at h
  · next value hgiven =>
    cases h
    refine hleave fun hlacks => ?_
    have hfree := hlacks.2.2
    rw [Dict.contains, hgiven] at hfree
    cases hfree
  · next hgiven =>
    split at h
    · next hbinds =>
      cases h
      exact hleave fun _ => hbinds
    next hversion _ _ hbinds =>
    split at h
    · next hneeded =>
      cases h
      rw [Bool.or_eq_true, decide_eq_true_iff] at hneeded
      have hlacks : Lacks draft parameter :=
        ⟨hneeded.symm, hversion, by rw [Dict.contains, hgiven]; rfl⟩
      rw [Setting.binds, Bool.or_eq_true, not_or, Bool.not_eq_true] at hbinds
      exact (Asks.demand hbinds.1).congr fun name => (and_iff_left hlacks).symm
    · next hneeded =>
      cases h
      refine hleave fun hlacks => absurd ?_ hneeded
      rw [Bool.or_eq_true, decide_eq_true_iff]
      exact hlacks.1.symm

/-- A parameter of a template is asked for if it has no default. -/
theorem asks_demandTemplateParameter {parameter : TemplateParameter}
    (h : demandTemplateParameter setting scopes name parameter = .ok scopes') :
    Asks setting (fun other => other = name ∧ parameter.default? = none) scopes scopes' := by
  unfold demandTemplateParameter at h
  split at h
  · next hleft =>
    cases h
    refine .of_binds fun other ⟨heq, hdefault⟩ => ?_
    rw [hdefault, Option.isSome_none, Bool.false_or] at hleft
    rw [heq, Setting.binds, hleft, Bool.true_or]
  · next hleft =>
    rw [Bool.or_eq_true, not_or, Bool.not_eq_true, Bool.not_eq_true, Option.isSome_eq_false_iff,
      Option.isNone_iff_eq_none] at hleft
    split at h
    · cases h
      exact (Asks.demand hleft.2).congr fun other => (and_iff_left hleft.1).symm
    · cases h

/-- What is particular to the kind of a step: its owner comes to declare the outputs of a template
and to demand what the step needs, as far as it is hidden. -/
def Serves (setting : Setting) (draft : Draft.Step) (scopes : Scopes) (owner : Declarations) : Prop :=
  Gains (aroundOwner scopes) (setting.Produces draft)
    (fun name => setting.Needs draft name ∧ setting.Hides scopes name) scopes.owner owner

variable {header : StepHeader} {outcome : Outcome}

theorem serves_operationStep {id : String} (hreference : draft.reference = .ok (.operation id))
    (h : operationStep setting draft id scopes header = .ok outcome) :
    Serves setting draft scopes outcome.owner := by
  obtain ⟨op, source, values, within, parameters, responses, hop, hbinds, -, -, rfl⟩ :=
    operationStep_eq_ok h
  have hcalls : setting.Calls draft op := ⟨id, source, hreference, hop⟩
  have hasks : Asks setting _ scopes within := .foldlM Prod.snd hbinds fun _ _ _ _ => asks_bindParameter
  refine (hasks.congr fun name => ?_).owner.congr (fun name => ?_) fun _ => .rfl
  · exact (Setting.needs_iff_of_calls hcalls).symm
  · exact ⟨False.elim, fun ⟨_, deploys, _⟩ => hcalls.not_deploys deploys⟩

/-- A step that repeats a recorded example or runs a script asks for nothing. -/
theorem serves_of_reference {reference : Draft.Reference} (h : draft.reference = .ok reference)
    (hcall : ∀ id, reference ≠ .operation id) (hdeploy : ∀ path, reference ≠ .template path) :
    Serves setting draft scopes scopes.owner := by
  have hdeploys : ∀ template, ¬ setting.Deploys draft template := by
    rintro template ⟨path, document, hreference, -⟩
    cases h.symm.trans hreference
    exact hdeploy path rfl
  refine (Gains.refl _ _).congr (fun name => ?_) fun name => ?_
  · exact ⟨False.elim, fun ⟨template, deploys, _⟩ => hdeploys template deploys⟩
  · refine ⟨False.elim, fun ⟨hneeds, _⟩ => ?_⟩
    cases hneeds with
    | parameter calls =>
      obtain ⟨id, source, hreference, -⟩ := calls
      cases h.symm.trans hreference
      exact hcall id rfl
    | template deploys => exact hdeploys _ deploys

theorem serves_templateStep {path : String} (hreference : draft.reference = .ok (.template path))
    (h : templateStep setting path scopes header = .ok outcome) :
    Serves setting draft scopes outcome.owner := by
  obtain ⟨document, template, within, hdocument, hread, hdemanded, rfl⟩ := templateStep_eq_ok h
  have hdeploys : setting.Deploys draft template := ⟨path, document, hreference, hdocument, hread⟩
  have hasks : Asks setting _ scopes within :=
    .foldlM id hdemanded fun _ _ _ _ => asks_demandTemplateParameter
  refine (hasks.owner.trans (.declareOutputs _ _ TemplateOutput.kind template.outputs)).congr
    (fun name => ?_) fun name => ?_
  · rw [Setting.produces_iff_of_deploys hdeploys, false_or]
  · rw [Setting.needs_iff_of_deploys hdeploys, or_false]

/-- A recorded example leaves the owner as it is. -/
theorem owner_fixtureStep {path : String}
    (h : fixtureStep setting draft path scopes header = .ok outcome) : outcome.owner = scopes.owner := by
  obtain ⟨fixture, op, source, before, parameters, responses, -, -, -, -, rfl⟩ := fixtureStep_eq_ok h
  rfl

theorem serves_particular {reference : Draft.Reference} (hreference : draft.reference = .ok reference)
    (h : particular setting draft reference scopes header = .ok outcome) :
    Serves setting draft scopes outcome.owner := by
  cases reference with
  | operation id => exact serves_operationStep hreference h
  | fixture path => exact owner_fixtureStep h ▸ serves_of_reference hreference nofun nofun
  | template path => exact serves_templateStep hreference h
  | script path =>
    obtain ⟨content, -, h⟩ := exists_of_bind_eq_ok h
    cases h
    exact serves_of_reference hreference nofun nofun

/-! ### Steps that run together -/

/-- A name is declared by the owner of steps or the scope around it. -/
def Sees (owner : Declarations) (outer : Option Declarations) (name : String) : Prop :=
  ∃ scope ∈ owner :: outer.toList, scope.contains name = true

namespace Setting

variable {visible visible' : String → Prop}

/-- What is demanded on behalf of a step: the texts that it leaves open, and the names that it needs
and that neither it nor anybody before it declares. -/
def Wants (setting : Setting) (visible : String → Prop) (draft : Draft.Step) (name : String) : Prop :=
  Draft.LeavesOpen draft.vars name ∨
    setting.Needs draft name ∧ setting.provides name = false ∧
      ¬ (draft.vars.contains name = true ∨ visible name)

/-- What is demanded on behalf of steps that run together, each of which sees what is set before
it. -/
def WantedAlong (setting : Setting) (visible : String → Prop) (drafts : List Draft.Step)
    (name : String) : Prop :=
  ∃ j draft, drafts[j]? = some draft ∧
    setting.Wants (fun other => visible other ∨ ∃ earlier ∈ drafts.take j, setting.Sets earlier other)
      draft name

theorem wants_congr (h : ∀ name, visible name ↔ visible' name) :
    setting.Wants visible draft name ↔ setting.Wants visible' draft name := by
  rw [Wants, Wants, h]

theorem wantedAlong_cons {drafts : List Draft.Step} :
    setting.WantedAlong visible (draft :: drafts) name ↔
      setting.Wants visible draft name ∨
        setting.WantedAlong (fun other => visible other ∨ setting.Sets draft other) drafts name := by
  have hfirst : setting.Wants (fun other => visible other ∨ ∃ earlier ∈ [], setting.Sets earlier other)
      draft name ↔ setting.Wants visible draft name :=
    wants_congr fun other => or_iff_left fun ⟨_, hmem, _⟩ => List.not_mem_nil hmem
  have hothers (j : Nat) (other : Draft.Step) :
      setting.Wants (fun other => visible other ∨
        ∃ earlier ∈ draft :: drafts.take j, setting.Sets earlier other) other name ↔
      setting.Wants (fun other => (visible other ∨ setting.Sets draft other) ∨
        ∃ earlier ∈ drafts.take j, setting.Sets earlier other) other name :=
    wants_congr fun other => by rw [List.exists_mem_cons_iff, or_assoc]
  constructor
  · rintro ⟨j, other, hother, hwants⟩
    cases j with
    | zero =>
      cases hother
      exact .inl (hfirst.1 hwants)
    | succ j => exact .inr ⟨j, other, hother, (hothers j other).1 hwants⟩
  · rintro (hwants | ⟨j, other, hother, hwants⟩)
    · exact ⟨0, draft, rfl, hfirst.2 hwants⟩
    · exact ⟨j + 1, other, hother, (hothers j other).2 hwants⟩

theorem wantedAlong_congr {drafts : List Draft.Step} (h : ∀ name, visible name ↔ visible' name) :
    setting.WantedAlong visible drafts name ↔ setting.WantedAlong visible' drafts name := by
  simp only [WantedAlong, Wants, h]

end Setting

theorem hides_iff : setting.Hides scopes name ↔ setting.provides name = false ∧
    ¬ (scopes.step.contains name = true ∨ Sees scopes.owner scopes.outer name) := by
  rw [Setting.Hides, Scopes.chain, List.exists_mem_cons_iff, Sees]

variable {phase : Phase} {outer : Option Declarations} {owner : Declarations} {label : String}
  {taken : List String}

/-- The owner of a step comes to declare what the step sets, and to demand what is wanted on its
behalf. -/
theorem gains_step {reference : Draft.Reference} (hreference : draft.reference = .ok reference)
    (h : step setting phase outer owner draft reference name = .ok outcome) :
    Gains outer.toList (setting.Sets draft) (setting.Wants (Sees owner outer) draft) owner
      outcome.owner := by
  obtain ⟨vars, hvars, h⟩ := exists_of_bind_eq_ok h
  obtain ⟨inner, hinner, h⟩ := exists_of_bind_eq_ok h
  have hserves := serves_particular hreference hinner
  cases h
  have houtputs := Gains.declareOutputs (vars :: outer.toList) inner.owner OutputVariable.kind
    (draft.outputVariables.mapValues fun _ output => outputVariable output)
  -- In the end the owner demands what the declarations of the step demand.
  have hgains := ((hserves.trans houtputs).trans (.requireAll _ _ vars.required)).of_cons
    fun name hmem => Declarations.mem_required_foldl_require.2 (.inr hmem)
  refine hgains.congr (fun name => ?_) fun name => ?_
  · rw [Dict.contains_mapValues, or_false, or_comm, Setting.Sets]
  · rw [or_false, required_declareAll hvars, or_comm, or_assoc, or_self, or_comm, hides_iff,
      contains_declareAll hvars, Setting.Wants]

theorem gains_labelledStep (h : labelledStep setting phase outer taken owner label draft = .ok outcome) :
    Gains outer.toList (setting.Sets draft) (setting.Wants (Sees owner outer) draft) owner
      outcome.owner := by
  obtain ⟨reference, name, hreference, -, hstep⟩ := labelledStep_eq_ok h
  exact gains_step hreference hstep

/-- What an owner gains is seen. -/
theorem sees_iff_of_gains {sets wants : String → Prop} {owner' : Declarations}
    (h : Gains around sets wants owner owner') :
    Sees owner' outer name ↔ Sees owner outer name ∨ sets name := by
  rw [Sees, List.exists_mem_cons_iff, h.declared, Sees, List.exists_mem_cons_iff, or_right_comm]

/-- The owner of steps that run together comes to declare what these set, and to demand what is
wanted on their behalf. -/
theorem gains_steps {index : Nat} {drafts : List Draft.Step} {batch : Batch}
    (h : steps setting phase outer label index taken owner drafts = .ok batch) :
    Gains outer.toList (fun name => ∃ draft ∈ drafts, setting.Sets draft name)
      (setting.WantedAlong (Sees owner outer) drafts) owner batch.owner := by
  induction drafts generalizing index taken owner batch with
  | nil =>
    cases h
    exact (Gains.refl _ _).congr (fun _ => by simp) fun _ => by simp [Setting.WantedAlong]
  | cons draft drafts ih =>
    rw [steps] at h
    obtain ⟨outcome, hfirst, h⟩ := exists_of_bind_eq_ok h
    obtain ⟨rest, hrest, h⟩ := exists_of_bind_eq_ok h
    have hgains := gains_labelledStep hfirst
    have hothers := ih hrest
    cases h
    refine (hgains.trans hothers).congr (fun name => ?_) fun name => ?_
    · rw [List.exists_mem_cons_iff]
    · rw [Setting.wantedAlong_cons, Setting.wantedAlong_congr fun _ => sees_iff_of_gains hgains]

/-- A scenario demands what the definition around it demands, what it leaves open itself, and what is
wanted on behalf of its steps. -/
theorem required_scenario {outer : Declarations} {index : Nat} {draft : Draft.Scenario}
    {compiled : Scenario} {specs : List String}
    (h : scenario setting outer index draft = .ok (compiled, specs)) :
    compiled.vars.required.Nodup ∧ ∀ name, name ∈ compiled.vars.required ↔
      name ∈ outer.required ∨ Draft.LeavesOpen draft.vars name ∨
        setting.WantedAlong
          (fun other => draft.vars.contains other = true ∨ outer.contains other = true)
          draft.steps name := by
  obtain ⟨vars, hvars, h⟩ := exists_of_bind_eq_ok h
  obtain ⟨batch, hbatch, h⟩ := exists_of_bind_eq_ok h
  have hgains := gains_steps hbatch
  have hsees (other : String) : Sees vars (some outer) other ↔
      draft.vars.contains other = true ∨ outer.contains other = true := by
    simp [Sees, contains_declareAll hvars]
  have hdemanded (scope : Declarations) (name : String) :
      Demanded (some outer).toList scope name ↔ name ∈ scope.required ∨ name ∈ outer.required := by
    simp [Demanded]
  cases h
  constructor
  · have hvarsNodup : vars.required.Nodup := (gains_declareAll hvars).nodup .nil
    exact (Gains.requireAll [] _ outer.required).nodup (hgains.nodup hvarsNodup)
  · intro name
    rw [mem_required_foldl_require, ← hdemanded, hgains.demanded, hdemanded, required_declareAll hvars,
      Setting.wantedAlong_congr hsees, or_assoc, or_left_comm]

theorem gains_definitionScope {kind : ScopeKind} {vars : Dict Declaration} {own : Declarations}
    (h : definitionScope kind vars = .ok own) :
    Gains [] (vars.contains · = true)
      (fun name => Draft.LeavesOpen vars name ∨ name ∈ kind.impliedRequirements) {} own := by
  rw [definitionScope] at h
  cases hvars : declareAll [] vars with
  | error e => rw [hvars] at h; cases h
  | ok declared =>
    rw [hvars] at h
    cases h
    exact ((gains_declareAll hvars).trans (.requireAll _ _ kind.impliedRequirements)).congr
      (fun _ => or_iff_left not_false) fun _ => .rfl

end Compile

open Compile

variable {sources : Sources} {draft : Draft.Definition} {path : String} {definition : Definition}

/-- What a definition declares and demands in the end, exactly. The steps that clean up see what the
steps that prepare set. -/
theorem Sources.Compiles.gains {own : Declarations} {prepare cleanup : Batch}
    {results : List (Scenario × List String)}
    (h : sources.Compiles draft path definition own prepare cleanup results) :
    Declarations.Gains []
      (fun name => draft.vars.contains name = true ∨
        ∃ s ∈ draft.prepareSteps ++ draft.cleanupSteps, (sources.setting definition.scope path).Sets s name)
      (fun name => (Draft.LeavesOpen draft.vars name ∨ name ∈ definition.scope.impliedRequirements) ∨
        (sources.setting definition.scope path).WantedAlong (draft.vars.contains · = true)
          draft.prepareSteps name ∨
        (sources.setting definition.scope path).WantedAlong
          (fun other => draft.vars.contains other = true ∨
            ∃ s ∈ draft.prepareSteps, (sources.setting definition.scope path).Sets s other)
          draft.cleanupSteps name)
      {} cleanup.owner := by
  have hown := gains_definitionScope h.declares
  have hprepare := gains_steps h.prepares
  have hcleanup := gains_steps h.cleansUp
  have hseesOwn (name : String) : Sees own none name ↔ draft.vars.contains name = true := by
    have hdeclared : own.contains name = true ↔ draft.vars.contains name = true :=
      (hown.declared name).trans (or_iff_right nofun)
    simp [Sees, hdeclared]
  have hseesPrepared (name : String) : Sees prepare.owner none name ↔
      draft.vars.contains name = true ∨
        ∃ s ∈ draft.prepareSteps, (sources.setting definition.scope path).Sets s name := by
    rw [sees_iff_of_gains hprepare, hseesOwn]
  refine ((hown.trans hprepare).trans hcleanup).congr (fun name => ?_) fun name => ?_
  · simp only [List.mem_append, or_and_right, exists_or, or_assoc]
  · rw [Setting.wantedAlong_congr hseesOwn, Setting.wantedAlong_congr hseesPrepared, or_assoc]

namespace Compile

/-- A declaration of a name is visible at a step of a scenario: the step or the scenario declares it,
or an earlier step of the scenario sets it, or the definition declares it, or a step that prepares
or cleans up sets it. -/
inductive Visible (setting : Setting) (draft : Draft.Definition) (draftScenario : Draft.Scenario)
    (earlier : List Draft.Step) (draftStep : Draft.Step) (name : String) : Prop
  | step (h : draftStep.vars.contains name = true)
  | scenario (h : draftScenario.vars.contains name = true)
  | earlier {s : Draft.Step} (hs : s ∈ earlier) (h : setting.Sets s name)
  | definition (h : draft.vars.contains name = true)
  | around {s : Draft.Step} (hs : s ∈ draft.prepareSteps ++ draft.cleanupSteps)
      (h : setting.Sets s name)

/-- Why a scenario demands a name from outside: the definition demands it, or the scenario or one of
its steps leaves it open, or one of its steps needs it and no declaration of it is visible there,
unless every scope binds it as its container. -/
inductive Wanted (setting : Setting) (draft : Draft.Definition) (draftScenario : Draft.Scenario)
    (demanded : List String) (name : String) : Prop
  | definition (h : name ∈ demanded)
  | scenario (h : Draft.LeavesOpen draftScenario.vars name)
  | step {draftStep : Draft.Step} (hstep : draftStep ∈ draftScenario.steps)
      (h : Draft.LeavesOpen draftStep.vars name)
  | need {j : Nat} {draftStep : Draft.Step} (hstep : draftScenario.steps[j]? = some draftStep)
      (hneeds : setting.Needs draftStep name)
      (hbound : ¬ (setting.scope = .resourceGroup ∧ name = ReservedName.container))
      (hhidden : ¬ Visible setting draft draftScenario (draftScenario.steps.take j) draftStep name)

variable {setting : Setting} {name : String}

theorem Setting.provides_iff :
    setting.provides name = true ↔ setting.scope = .resourceGroup ∧ name = ReservedName.container := by
  rw [provides, Bool.and_eq_true, beq_iff_eq, and_comm]
  exact and_congr_left' ⟨ScopeKind.eq_of_needsContainer, fun h => h ▸ rfl⟩

theorem visible_iff {draftScenario : Draft.Scenario} {earlier : List Draft.Step}
    {draftStep : Draft.Step} :
    Visible setting draft draftScenario earlier draftStep name ↔
      draftStep.vars.contains name = true ∨
        (draftScenario.vars.contains name = true ∨ draft.vars.contains name = true ∨
            ∃ s ∈ draft.prepareSteps ++ draft.cleanupSteps, setting.Sets s name) ∨
          ∃ s ∈ earlier, setting.Sets s name := by
  constructor
  · intro h
    cases h with
    | step h => exact .inl h
    | scenario h => exact .inr (.inl (.inl h))
    | earlier hs h => exact .inr (.inr ⟨_, hs, h⟩)
    | definition h => exact .inr (.inl (.inr (.inl h)))
    | around hs h => exact .inr (.inl (.inr (.inr ⟨_, hs, h⟩)))
  · rintro (h | (h | h | ⟨s, hs, h⟩) | ⟨s, hs, h⟩)
    · exact .step h
    · exact .scenario h
    · exact .definition h
    · exact .around hs h
    · exact .earlier hs h

theorem wanted_iff {draftScenario : Draft.Scenario} {demanded : List String} :
    Wanted setting draft draftScenario demanded name ↔
      name ∈ demanded ∨ Draft.LeavesOpen draftScenario.vars name ∨
        setting.WantedAlong (fun other => draftScenario.vars.contains other = true ∨
          draft.vars.contains other = true ∨
            ∃ s ∈ draft.prepareSteps ++ draft.cleanupSteps, setting.Sets s other)
          draftScenario.steps name := by
  constructor
  · intro h
    cases h with
    | definition h => exact .inl h
    | scenario h => exact .inr (.inl h)
    | step hstep h =>
      obtain ⟨j, hj⟩ := List.mem_iff_getElem?.1 hstep
      exact .inr (.inr ⟨j, _, hj, .inl h⟩)
    | need hstep hneeds hbound hhidden =>
      rw [← Setting.provides_iff, Bool.not_eq_true] at hbound
      exact .inr (.inr ⟨_, _, hstep, .inr ⟨hneeds, hbound, fun h => hhidden (visible_iff.2 h)⟩⟩)
  · rintro (h | h | ⟨j, draftStep, hstep, h | ⟨hneeds, hbound, hhidden⟩⟩)
    · exact .definition h
    · exact .scenario h
    · exact .step (List.mem_of_getElem? hstep) h
    · rw [← Bool.not_eq_true, Setting.provides_iff] at hbound
      exact .need hstep hneeds hbound fun h => hhidden (visible_iff.1 h)

end Compile

/-- **Exactly what is needed is demanded.** No list of demands names anything twice, and the list of
a definition has what the kind of its scope implies. A scenario demands what the definition demands,
the texts that it or one of its steps leaves open, and the names that one of its steps needs and
whose declaration is not visible there, and it demands nothing else. -/
theorem Sources.required_compile_iff (h : sources.compile draft path = .ok definition) :
    definition.vars.required.Nodup ∧
      (∀ name ∈ definition.scope.impliedRequirements, name ∈ definition.vars.required) ∧
      definition.scenarios.length = draft.scenarios.length ∧
      ∀ (i : Nat) (scenario : Scenario) (draftScenario : Draft.Scenario),
        definition.scenarios[i]? = some scenario → draft.scenarios[i]? = some draftScenario →
        scenario.vars.required.Nodup ∧
          ∀ name, name ∈ scenario.vars.required ↔
            Wanted (sources.setting definition.scope path) draft draftScenario
              definition.vars.required name := by
  obtain ⟨own, prepare, cleanup, results, hcompiles⟩ := Sources.compiles_of_compile h
  have hgains := hcompiles.gains
  obtain ⟨himplied, -⟩ := hcompiles.grown
  obtain ⟨hlength, hscenarios⟩ := scenario_of_scenarios hcompiles.plays
  rw [hcompiles.scenarios_eq, hcompiles.vars_eq]
  refine ⟨hgains.nodup .nil, himplied, by rw [List.length_map, hlength],
    fun i scenario draftScenario hscenario hdraft => ?_⟩
  rw [List.getElem?_map, Option.map_eq_some_iff] at hscenario
  obtain ⟨⟨_, specs⟩, hresult, rfl⟩ := hscenario
  obtain ⟨hnodup, hrequired⟩ := required_scenario (hscenarios i _ draftScenario hresult hdraft)
  refine ⟨hnodup, fun name => (hrequired name).trans ?_⟩
  have hdeclared (other : String) : cleanup.owner.contains other = true ↔
      draft.vars.contains other = true ∨ ∃ s ∈ draft.prepareSteps ++ draft.cleanupSteps,
        (sources.setting definition.scope path).Sets s other :=
    (hgains.declared other).trans (or_iff_right nofun)
  rw [wanted_iff, Setting.wantedAlong_congr fun other => or_congr_right (hdeclared other)]

/-- A scenario whose first step needs a name that its second step sets. -/
def Compile.callingBeforeSetting : Draft.Scenario where
  steps :=
    [calling, { name := some "c", operationId := some "o", outputVariables := Dict.ofList [("x", {})] }]

/-- A draft with only this scenario. -/
def Compile.neededFirst : Draft.Definition where
  scope := some "None"
  scenarios := [callingBeforeSetting]

/-- The name has to be supplied, as it is only set behind the step that needs it. -/
theorem Sources.required_compile_neededFirst : ∃ definition scenario,
    twoOperations.compile neededFirst "f" = .ok definition ∧
      definition.scenarios[0]? = some scenario ∧ scenario.vars.required = ["x"] ∧
      scenario.vars.required.Nodup ∧ ∀ name, name ∈ scenario.vars.required ↔
        Wanted (twoOperations.setting definition.scope "f") neededFirst callingBeforeSetting
          definition.vars.required name := by
  have hcheck : (twoOperations.compile neededFirst "f").toOption.any (fun definition =>
      definition.scenarios[0]?.any fun scenario => scenario.vars.required == ["x"]) = true := by
    decide +kernel
  obtain ⟨definition, hcompile, hneeds⟩ := exists_ok_of_any hcheck
  obtain ⟨scenario, hscenario, hneeds⟩ := (Option.any_eq_true _ _).1 hneeds
  obtain ⟨-, -, -, hscenarios⟩ := Sources.required_compile_iff hcompile
  obtain ⟨hnodup, hrequired⟩ := hscenarios 0 scenario callingBeforeSetting hscenario rfl
  exact ⟨definition, scenario, hcompile, hscenario, beq_iff_eq.1 hneeds, hnodup, hrequired⟩

end Rehearsal
