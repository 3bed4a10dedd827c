import Rehearsal.Proofs.Compile.Definition
import Rehearsal.Proofs.Draft

/-!
# The step that an error carries

An error that arises while a step is compiled carries the step as it was written, and no other error
carries one: whatever goes wrong inside a step is about nothing in particular (`OnlyFails` with
`CompileError.IsPlain`) until the step is put around it. So the step in an error is one of those of
the draft (`Sources.culprit_of_compile`), and like the draft itself it is read again from what is
written of it (`Draft.Definition.reads_again`).
-/

namespace Rehearsal

/-! ### Walks and their errors -/

/-- Whatever error something ends with has a property. -/
def OnlyFails {α ε : Type} (P : ε → Prop) (x : Except ε α) : Prop := ∀ e, x = .error e → P e

namespace OnlyFails

variable {α β ε ε' : Type} {P Q : ε → Prop} {x : Except ε α}

theorem ok (a : α) : OnlyFails P (.ok a : Except ε α) := nofun

theorem error {e : ε} (h : P e) : OnlyFails P (.error e : Except ε α) := by
  rintro e' ⟨⟩
  exact h

theorem mono (h : OnlyFails P x) (hPQ : ∀ e, P e → Q e) : OnlyFails Q x := fun e he => hPQ e (h e he)

theorem bind {f : α → Except ε β} (h : OnlyFails P x) (hf : ∀ a, OnlyFails P (f a)) :
    OnlyFails P (x >>= f) := by
  cases x with
  | error e => exact .error (h e rfl)
  | ok a => exact hf a

theorem map (h : OnlyFails P x) (f : α → β) : OnlyFails P (x.map f) := by
  cases x with
  | error e => exact .error (h e rfl)
  | ok a => exact .ok (f a)

/-- Errors that are put into words of their own. -/
theorem mapError {r : ε' → ε} {x : Except ε' α} (h : ∀ e, P (r e)) : OnlyFails P (x.mapError r) := by
  cases x with
  | error e => exact .error (h e)
  | ok a => exact .ok a

theorem elim {a? : Option α} {e : ε} (h : P e) : OnlyFails P (a?.elim (.error e) .ok : Except ε α) := by
  cases a? with
  | none => exact .error h
  | some a => exact .ok a

theorem foldlM {f : β → α → Except ε β} {as : List α} (h : ∀ b a, OnlyFails P (f b a)) (b : β) :
    OnlyFails P (as.foldlM f b) := by
  induction as generalizing b with
  | nil => exact .ok b
  | cons a as ih =>
    rw [List.foldlM_cons]
    exact (h b a).bind ih

theorem mapM {f : α → Except ε β} {as : List α} (h : ∀ a, OnlyFails P (f a)) :
    OnlyFails P (as.mapM f) := by
  induction as with
  | nil => exact .ok []
  | cons a as ih =>
    rw [List.mapM_cons]
    exact (h a).bind fun _ => ih.bind fun _ => .ok _

theorem dictMapM {f : String → α → Except ε β} {dict : Dict α} (h : ∀ name a, OnlyFails P (f name a)) :
    OnlyFails P (dict.mapM f) :=
  (mapM fun _ => (h _ _).bind fun _ => .ok _).bind fun _ => .ok _

end OnlyFails

/-! ### Errors inside a step -/

namespace CompileError

/-- An error is about no step, or not yet. -/
def IsPlain : CompileError → Prop
  | .step .. => False
  | _ => True

theorem inStep_of_isPlain {e : CompileError} (h : e.IsPlain) (name : String) (draft : Draft.Step) :
    e.inStep name draft = .step name draft e := by
  cases e with
  | step => exact h.elim
  | _ => rfl

end CompileError

namespace Compile

variable {setting : Setting} {phase : Phase} {outer : Option Declarations} {owner : Declarations}
  {draft : Draft.Step} {reference : Draft.Reference} {scopes : Scopes} {header : StepHeader}
  {name : String}

/-- Nothing that fails here is about a step. -/
abbrev FailsPlainly {α : Type} (x : Except CompileError α) : Prop := OnlyFails CompileError.IsPlain x

theorem failsPlainly_inheritedValue (around : List Declarations) (name : String) (patches : List Json) :
    FailsPlainly (inheritedValue around name patches) := by
  unfold inheritedValue
  split
  · exact .ok none
  split
  · exact .error trivial
  split
  · split
    · exact .ok none
    · exact .error trivial
  split
  · split
    · exact .ok _
    · exact .error trivial
  · exact .error trivial

theorem failsPlainly_declareAll (around : List Declarations) (vars : Dict Declaration) :
    FailsPlainly (declareAll around vars) := by
  refine .foldlM (fun scope entry => ?_) _
  unfold declareOne
  dsimp only
  split
  · exact .ok _
  unfold declareValueless
  split
  · exact .ok _
  · refine (failsPlainly_inheritedValue _ _ _).bind fun value? => ?_
    cases value? with
    | none => exact .ok _
    | some value => exact .ok _
  · exact .error trivial

theorem failsPlainly_operation (setting : Setting) (id : String) (tag : Option String) :
    FailsPlainly (setting.operation id tag) :=
  OnlyFails.bind (.mapError fun _ => trivial) fun _ =>
    OnlyFails.bind (.mapError fun _ => trivial) fun _ => .ok _

theorem failsPlainly_updateDict (dict : Dict Json) (patch : List Json) :
    FailsPlainly (updateDict dict patch) := by
  unfold updateDict
  split
  · exact .error trivial
  · exact .ok _
  · exact .error trivial

theorem failsPlainly_assertions (responses : Dict Json) : FailsPlainly (assertions responses) :=
  .dictMapM fun _ _ => .elim trivial

theorem failsPlainly_bindParameter (setting : Setting) (draft : Draft.Step) (op : Operation)
    (bound : Dict Json × Scopes) (parameter : Parameter) :
    FailsPlainly (bindParameter setting draft op bound parameter) := by
  unfold bindParameter
  dsimp only
  split
  · exact .ok _
  split
  · split
    · exact .error trivial
    · exact .ok _
  split
  · exact .ok _
  split
  · exact .ok _
  split
  · exact .ok _
  · exact .ok _

theorem failsPlainly_rebindParameter (setting : Setting) (scopes : Scopes) (op : Operation)
    (values : Dict Json) (parameter : Parameter) :
    FailsPlainly (rebindParameter setting scopes op values parameter) := by
  unfold rebindParameter
  dsimp only
  split
  · exact .ok _
  split
  · split
    · exact .error trivial
    · exact .ok _
  split
  · exact .ok _
  · exact .ok _

theorem failsPlainly_fixtureOperation (setting : Setting) (resolved declared : String)
    (tag : Option String) : FailsPlainly (fixtureOperation setting resolved declared tag) := by
  refine OnlyFails.bind (.mapError fun _ => trivial) fun catalog => ?_
  dsimp only
  split
  · exact .error trivial
  · exact .ok _
  · exact .error trivial

theorem failsPlainly_operationStep {id : String} :
    FailsPlainly (operationStep setting draft id scopes header) :=
  (failsPlainly_operation _ _ _).bind fun _ =>
    (OnlyFails.foldlM (fun _ _ => failsPlainly_bindParameter _ _ _ _ _) _).bind fun _ =>
      (failsPlainly_updateDict _ _).bind fun _ =>
        ((failsPlainly_updateDict _ _).bind fun _ => failsPlainly_assertions _).bind fun _ => .ok _

theorem failsPlainly_fixtureStep {path : String} :
    FailsPlainly (fixtureStep setting draft path scopes header) := by
  refine OnlyFails.bind (.mapError fun _ => trivial) fun fixture => ?_
  -- The operation may be named by the draft or by the fixture, or be found by the fixture's path.
  dsimp only
  split
  on_goal 1 => refine OnlyFails.bind (.ok _) fun id => ?_
  on_goal 2 => refine (failsPlainly_fixtureOperation _ _ _ _).bind fun id => ?_
  all_goals
    exact (failsPlainly_operation _ _ _).bind fun _ =>
      (OnlyFails.foldlM (fun _ _ => failsPlainly_rebindParameter _ _ _ _ _) _).bind fun _ =>
        (failsPlainly_updateDict _ _).bind fun _ =>
          ((failsPlainly_updateDict _ _).bind fun _ => failsPlainly_assertions _).bind fun _ => .ok _

theorem failsPlainly_templateStep {path : String} :
    FailsPlainly (templateStep setting path scopes header) := by
  refine OnlyFails.bind (.mapError fun _ => trivial) fun document => ?_
  refine OnlyFails.bind (.elim trivial) fun template => ?_
  refine OnlyFails.bind (.foldlM (fun scopes entry => ?_) _) fun scopes => .ok _
  dsimp only
  unfold demandTemplateParameter
  split
  · exact .ok _
  split
  · exact .ok _
  · exact .error trivial

theorem failsPlainly_scriptStep {path : String} :
    FailsPlainly (scriptStep setting draft path scopes header) :=
  OnlyFails.bind (.mapError fun _ => trivial) fun _ => .ok _

theorem failsPlainly_step :
    FailsPlainly (step setting phase outer owner draft reference name) := by
  refine (failsPlainly_declareAll _ _).bind fun vars => OnlyFails.bind ?_ fun outcome => .ok _
  cases reference with
  | operation id => exact failsPlainly_operationStep
  | fixture path => exact failsPlainly_fixtureStep
  | template path => exact failsPlainly_templateStep
  | script path => exact failsPlainly_scriptStep

/-! ### Errors around a step -/

/-- An error is about one of some steps, or about none. -/
inductive Blames (drafts : List Draft.Step) : CompileError → Prop
  | plain {e : CompileError} (h : e.IsPlain) : Blames drafts e
  | step {name : String} {draft : Draft.Step} {cause : CompileError} (hmem : draft ∈ drafts)
      (h : cause.IsPlain) : Blames drafts (.step name draft cause)

theorem Blames.subset {drafts drafts' : List Draft.Step} (hsubset : ∀ draft ∈ drafts, draft ∈ drafts')
    {e : CompileError} (h : Blames drafts e) : Blames drafts' e := by
  cases h with
  | plain h => exact .plain h
  | step hmem h => exact .step (hsubset _ hmem) h

theorem blames_inStep {e : CompileError} (h : e.IsPlain) (name : String) (draft : Draft.Step) :
    Blames [draft] (e.inStep name draft) := by
  rw [CompileError.inStep_of_isPlain h]
  exact .step List.mem_cons_self h

theorem blames_labelledStep {taken : List String} {label : String} :
    OnlyFails (Blames [draft]) (labelledStep setting phase outer taken owner label draft) := by
  unfold labelledStep
  split
  · next e _ =>
    exact .error (blames_inStep (e := .invalidStep (.reference e)) trivial _ _)
  · next reference _ =>
    dsimp only
    generalize draft.name.getD _ = name
    split
    · exact .error (blames_inStep (e := .duplicateStepName name) trivial _ _)
    · intro e he
      generalize hstep : step setting phase outer owner draft _ _ = result at he
      cases result with
      | error cause =>
        cases he
        exact blames_inStep (failsPlainly_step cause hstep) _ _
      | ok outcome => cases he

theorem blames_steps {label : String} {index : Nat} {taken : List String} {drafts : List Draft.Step} :
    OnlyFails (Blames drafts) (steps setting phase outer label index taken owner drafts) := by
  induction drafts generalizing index taken owner with
  | nil => exact .ok _
  | cons draft drafts ih =>
    rw [steps]
    refine (blames_labelledStep.mono fun e he => he.subset fun other hmem => ?_).bind fun outcome => ?_
    · rw [List.mem_singleton.1 hmem]
      exact List.mem_cons_self
    · exact (ih.mono fun e he => he.subset fun _ => List.mem_cons_of_mem draft).bind fun _ => .ok _

theorem blames_scenario {outer : Declarations} {index : Nat} {draft : Draft.Scenario} :
    OnlyFails (Blames draft.steps) (scenario setting outer index draft) :=
  ((failsPlainly_declareAll _ _).mono fun _ => .plain).bind fun _ => blames_steps.bind fun _ => .ok _

theorem blames_scenarios {outer : Declarations} {index : Nat} {drafts : List Draft.Scenario} :
    OnlyFails (Blames (drafts.flatMap (·.steps))) (scenarios setting outer index drafts) := by
  induction drafts generalizing index with
  | nil => exact .ok _
  | cons draft drafts ih =>
    rw [scenarios]
    refine (blames_scenario.mono fun e he => he.subset fun step hmem => ?_).bind fun _ =>
      (ih.mono fun e he => he.subset fun step hmem => ?_).bind fun _ => .ok _
    · rw [List.flatMap_cons]
      exact List.mem_append_left _ hmem
    · rw [List.flatMap_cons]
      exact List.mem_append_right _ hmem

end Compile

open Compile

/-- An error is about one of the steps of the draft, or about none. -/
theorem Sources.blames_compile (sources : Sources) (draft : Draft.Definition) (path : String) :
    OnlyFails (Compile.Blames draft.allSteps) (sources.compile draft path) := by
  have hprepare : ∀ step ∈ draft.prepareSteps, step ∈ draft.allSteps := fun step hmem =>
    List.mem_append_left _ (List.mem_append_left _ hmem)
  have hcleanup : ∀ step ∈ draft.cleanupSteps, step ∈ draft.allSteps := fun step hmem =>
    List.mem_append_left _ (List.mem_append_right _ hmem)
  have hscenarios : ∀ step ∈ draft.scenarios.flatMap (·.steps), step ∈ draft.allSteps :=
    fun step hmem => List.mem_append_right _ hmem
  unfold Sources.compile
  dsimp only
  split
  · refine OnlyFails.bind (.ok _) fun scope => ?_
    exact (((failsPlainly_declareAll _ _).mono fun _ => Compile.Blames.plain).map _).bind fun _ =>
      (blames_steps.mono fun _ h => h.subset hprepare).bind fun _ =>
        (blames_steps.mono fun _ h => h.subset hcleanup).bind fun _ =>
          (blames_scenarios.mono fun _ h => h.subset hscenarios).bind fun _ => .ok _
  · exact .error (.plain trivial)

/-- The step in an error is one of the draft, and the error inside it is about no other step. -/
theorem Sources.culprit_of_compile {sources : Sources} {draft : Draft.Definition} {path name : String}
    {node : Draft.Step} {cause : CompileError}
    (h : sources.compile draft path = .error (.step name node cause)) :
    node ∈ draft.allSteps ∧ cause.IsPlain := by
  cases sources.blames_compile draft path _ h with
  | plain hplain => exact hplain.elim
  | step hmem hplain => exact ⟨hmem, hplain⟩

/-- **A draft comes back as it was read.** What is written of a draft that was read of any document
is read as the same draft, and what is written of a step as the same step; so is the step that an
error carries, which is one of the draft. -/
theorem Draft.Definition.reads_again {document : Json} {draft : Draft.Definition}
    (h : Draft.Definition.ofJson? document = some draft) :
    Draft.Definition.ofJson? draft.toJson = some draft ∧
      (∀ step ∈ draft.allSteps, Draft.Step.ofJson? step.toJson = some step) ∧
      ∀ (sources : Sources) (path name : String) (node : Draft.Step) (cause : CompileError),
        sources.compile draft path = .error (.step name node cause) →
        node ∈ draft.allSteps ∧ Draft.Step.ofJson? node.toJson = some node := by
  have hdraft := Draft.Definition.codec.sound h
  have hsteps : ∀ step ∈ draft.allSteps, Draft.Step.ofJson? step.toJson = some step :=
    fun step hmem => Draft.Step.codec.again (hdraft.of_mem_allSteps hmem)
  refine ⟨Draft.Definition.codec.again hdraft, hsteps, fun sources path name node cause herror => ?_⟩
  obtain ⟨hmem, -⟩ := Sources.culprit_of_compile herror
  exact ⟨hmem, hsteps node hmem⟩

/-! ### A document with many kinds of parts -/

namespace Compile

/-- A step that is written with a second spelling, with records in either form and with values of
all kinds. It refers to a catalog that there is none of. -/
def taggedStep : Json :=
  .ofMembers
    [("operationId", .str "o"), ("readmeTag", .str "t"), ("parameters", .ofMembers [("x", .null)]),
      ("responses", .ofMembers [("200", .ofMembers [("body", .arr [.int 1, .bool true])])]),
      ("environmentVariables", .arr [.ofMembers [("name", .str "E")], .arr [.str "F", .str "v"]]),
      ("outputVariables", .ofMembers
        [("y", .ofMembers [("type", .str "secureObject")]),
          ("z", .arr [.ofMembers [("int", .null)], .str "/n"])]),
      ("description", .null)]

/-- A document with short and full declarations, of which two are written as arrays, and with a
scenario that is written as an array too. -/
def taggedDocument : Json :=
  .ofMembers
    [("scope", .str "None"), ("cleanupSteps", .arr [taggedStep]),
      ("scenarios", .arr [.arr [.str "s", .null, .bool false]]),
      ("variables", .ofMembers
        [("a", .str "1"), ("b", .ofMembers [("type", .str "int"), ("value", .int 2)]),
          ("c", .ofMembers [("type", .str "string"), ("prefix", .str "p")]),
          ("d", .ofMembers [("type", .str "array"), ("value", .null), ("patches", .arr [.null])]),
          ("e", .arr [.str "string", .str "v"]), ("f", .arr [.int 3, .null, .str "p"])])]

/-- Whether a definition does not compile because of one of its steps. -/
def failsInStep : Except CompileError Definition → Bool
  | .ok _ => false
  | .error e =>
    match e with
    | .step .. => true
    | _ => false

theorem exists_step_of_failsInStep {result : Except CompileError Definition}
    (h : failsInStep result = true) :
    ∃ name node cause, result = .error (.step name node cause) := by
  cases result with
  | ok => cases h
  | error e =>
    cases e with
    | step name node cause => exact ⟨name, node, cause, rfl⟩
    | _ => cases h

end Compile

/-- The draft in the document comes back, and so does the step that keeps it from compiling. -/
theorem Draft.Definition.reads_again_tagged : ∃ draft,
    Draft.Definition.ofJson? taggedDocument = some draft ∧
      Draft.Definition.ofJson? draft.toJson = some draft ∧
      ∃ name node cause, twoOperations.compile draft "f" = .error (.step name node cause) ∧
        node ∈ draft.allSteps ∧ Draft.Step.ofJson? node.toJson = some node := by
  have hcheck : (Draft.Definition.ofJson? taggedDocument).any (fun draft =>
      failsInStep (twoOperations.compile draft "f")) = true := by
    decide +kernel
  obtain ⟨draft, hread, hfails⟩ := (Option.any_eq_true _ _).1 hcheck
  obtain ⟨hagain, -, hnode⟩ := Draft.Definition.reads_again hread
  obtain ⟨name, node, cause, herror⟩ := exists_step_of_failsInStep hfails
  exact ⟨draft, hread, hagain, name, node, cause, herror,
    hnode twoOperations "f" name node cause herror⟩

end Rehearsal
