import Rehearsal.Run.Step
import Rehearsal.Proofs.Run.Basic

/-!
# What a step leaves behind

A step exchanges at most one call with the client, and this call is its own; it completes if and
only if the client accepts the call, and there is one report that says so (`Run.ran_step`). The
parts of a step around its call neither exchange nor report anything (`Runs.Silent`).

* `Stage`, `Run.Advances`: the circumstances of a call, and what a part of a run may change;
* `Runs.Silent`, `Runs.Calls`: actions without a call, and those that make one;
* `Ran`: what becomes of one step.
-/

namespace Rehearsal

/-- The circumstances of a call. -/
structure Stage where
  /-- The name of the scope. -/
  scope : String
  /-- How far the scope is. -/
  status : ProvisionStatus
  /-- The place of the scenario. -/
  position : Nat
  /-- The phase. -/
  phase : Phase

/-- The step that a call is made for. -/
def Call.step? : Call → Option Step
  | .send step .. => some (.rest step)
  | .deploy step .. => some (.deployment step)
  | .prepare .. | .createContainer .. | .deleteContainer .. => none

namespace Exchange

/-- The circumstances of an exchange. -/
def stage (x : Exchange) : Stage := ⟨x.scope, x.status, x.position, x.phase⟩

/-- Whether the client did as it was asked. -/
def accepted (x : Exchange) : Bool := x.answer.isOk

end Exchange

/-- What is exchanged for one purpose: nothing unless things get that far, and otherwise one call,
which the client accepts if and only if all went well. -/
def OneCall (stage : Stage) (purpose : Call → Prop) (ok : Bool) (calls : List Exchange) : Prop :=
  (calls = [] ∧ ok = false) ∨
    ∃ x, calls = [x] ∧ x.stage = stage ∧ purpose x.call ∧ x.accepted = ok

/-- Each of some calls stands in a relation to those before it. -/
def EachAfter (P : List Exchange → Exchange → Prop) (before calls : List Exchange) : Prop :=
  ∀ front x behind, calls = front ++ x :: behind → P (before ++ front) x

namespace EachAfter

variable {P : List Exchange → Exchange → Prop} {before calls calls' : List Exchange}

theorem nil : EachAfter P before [] := fun front x behind h => by
  have hlength := congrArg List.length h
  simp at hlength

theorem append (h : EachAfter P before calls) (h' : EachAfter P (before ++ calls) calls') :
    EachAfter P before (calls ++ calls') := by
  intro front x behind heq
  rcases List.append_eq_append_iff.1 heq with ⟨more, rfl, hmore⟩ | ⟨more, hcalls, hmore⟩
  · rw [← List.append_assoc]
    exact h' more x behind hmore
  · cases more with
    | nil =>
      rw [List.append_nil] at hcalls
      have hfirst := h' [] x behind (by simpa using hmore.symm)
      rwa [List.append_nil, hcalls] at hfirst
    | cons y more =>
      rw [List.cons_append, List.cons.injEq] at hmore
      rw [← hmore.1] at hcalls
      exact h front x more hcalls

theorem of_forall (h : ∀ front, ∀ x ∈ calls, P (before ++ front) x) : EachAfter P before calls :=
  fun front x _ heq => h front x (heq ▸ List.mem_append_right front List.mem_cons_self)

end EachAfter

/-- Whether an error arose outside of steps and does not name its scenario. -/
def RunError.isPlain : RunError → Bool
  | .variable _ | .request _ | .client .. | .provisioning .. => true
  | .step .. | .scenario .. | .cleanupAfterFailure .. => false

theorem RunError.inStep_of_isPlain {e : RunError} (h : e.isPlain = true) (scenario step : String) :
    e.inStep scenario step = .step scenario step e := by
  cases e <;> first | rfl | cases h

namespace Run

/-- The circumstances of what a run asks in a phase. -/
def stage (run : Run) (phase : Phase) : Stage :=
  ⟨run.scope.name, run.scope.status, run.position, phase⟩

/-- A part of a run, by what it exchanges with the client and what it reports. Besides, only
variables and the generator of suffixes may change. -/
structure Advances (run : Run) (calls : List Exchange) (reports : List StepReport) (run' : Run) :
    Prop where
  scenario : run'.scenario = run.scenario
  position : run'.position = run.position
  scope : run'.scope = { run.scope with layer := run'.scope.layer }
  trace : run'.trace = run.trace ++ calls
  steps : run'.steps = run.steps ++ reports

namespace Advances

variable {run run' run'' : Run} {calls calls' : List Exchange} {reports reports' : List StepReport}

theorem refl (run : Run) : run.Advances [] [] run := by
  constructor <;> simp

theorem trans (h : run.Advances calls reports run') (h' : run'.Advances calls' reports' run'') :
    run.Advances (calls ++ calls') (reports ++ reports') run'' where
  scenario := h'.scenario.trans h.scenario
  position := h'.position.trans h.position
  scope := by rw [h'.scope, h.scope]
  trace := by rw [h'.trace, h.trace, List.append_assoc]
  steps := by rw [h'.steps, h.steps, List.append_assoc]

theorem stage (h : run.Advances calls reports run') (phase : Phase) :
    run'.stage phase = run.stage phase := by
  rw [Run.stage, h.scope, h.position, Run.stage]

end Advances

theorem advances_exchanged (run : Run) (x : Exchange) : run.Advances [x] [] (run.exchanged x) := by
  constructor <;> simp [exchanged]

theorem advances_steps (run : Run) (r : StepReport) :
    run.Advances [] [r] { run with steps := run.steps ++ [r] } := by
  constructor <;> simp

theorem advances_suffixes (run : Run) (suffixes : Suffixes) :
    run.Advances [] [] { run with suffixes } := by
  constructor <;> simp

theorem advances_modifyLayer (run : Run) (phase : Phase) (f : Layer → Layer) :
    run.Advances [] [] (run.modifyLayer phase f) := by
  cases phase <;> constructor <;> simp [modifyLayer]

end Run

/-! ### Actions without a call, and with one -/

namespace Runs

open Run

variable {α β : Type} {phase : Phase} {purpose : Call → Prop}

/-- An action that exchanges and reports nothing. If it fails, its error is plain. -/
def Silent (act : Runs α) : Prop :=
  ∀ run, run.Advances [] [] (act run).2 ∧ ∀ e, (act run).1 = .error e → e.isPlain = true

namespace Silent

theorem pure (a : α) : Silent (pure a : Runs α) := fun run => ⟨.refl run, nofun⟩

theorem get : Silent (get : Runs Run) := fun run => ⟨.refl run, nofun⟩

theorem throw {e : RunError} (h : e.isPlain = true) : Silent (throw e : Runs α) := fun run =>
  ⟨.refl run, fun e' he => by cases he; exact h⟩

theorem ofVariables (value : Except VariableError α) : Silent (ofVariables value) := by
  intro run
  cases value with
  | error e => exact ⟨.refl run, fun e' h => by cases h; rfl⟩
  | ok a => exact ⟨.refl run, nofun⟩

theorem materialize (layer : Layer) : Silent (materialize layer) := by
  intro run
  rw [materialize_run]
  exact ⟨advances_suffixes run _, nofun⟩

theorem drawSuffix : Silent drawSuffix := by
  intro run
  rw [drawSuffix_run]
  exact ⟨advances_suffixes run _, nofun⟩

theorem bind {act : Runs α} {f : α → Runs β} (h : Silent act) (hf : ∀ a, Silent (f a)) :
    Silent (act >>= f) := by
  intro run
  obtain ⟨hadvances, hplain⟩ := h run
  cases hrun : act run with
  | mk result run' =>
    rw [hrun] at hadvances hplain
    cases result with
    | error e =>
      rw [bind_error hrun]
      exact ⟨hadvances, fun e' he => hplain e' (by cases he; rfl)⟩
    | ok a =>
      rw [bind_ok hrun]
      exact ⟨hadvances.trans (hf a run').1, (hf a run').2⟩

end Silent

theorem silent_stepEnvironment (options : Options) (phase : Phase) (s : Step) :
    Silent (stepEnvironment options phase s) := by
  refine Silent.get.bind fun run => (Silent.ofVariables _).bind fun layer =>
    (Silent.materialize layer).bind fun layer => ?_
  cases options.resolveVariables with
  | true => exact Silent.ofVariables _
  | false => exact Silent.pure _

/-- An action that makes a call for a purpose and reports nothing. If it fails, its error is
plain. -/
def Calls (phase : Phase) (purpose : Call → Prop) (act : Runs α) : Prop :=
  ∀ run, ∃ calls, run.Advances calls [] (act run).2 ∧
    OneCall (run.stage phase) purpose (act run).1.isOk calls ∧
    ∀ e, (act run).1 = .error e → e.isPlain = true

/-- An action that does not fail and exchanges and reports nothing. -/
def Succeeds (act : Runs α) : Prop :=
  ∀ run, ∃ a, (act run).1 = .ok a ∧ run.Advances [] [] (act run).2

namespace Calls

theorem bind {act : Runs α} {f : α → Runs β} (h : Silent act)
    (hf : ∀ a, Calls phase purpose (f a)) : Calls phase purpose (act >>= f) := by
  intro run
  obtain ⟨hadvances, hplain⟩ := h run
  cases hrun : act run with
  | mk result run' =>
    rw [hrun] at hadvances hplain
    cases result with
    | error e =>
      rw [bind_error hrun]
      exact ⟨[], hadvances, .inl ⟨rfl, rfl⟩, fun e' he => hplain e' (by cases he; rfl)⟩
    | ok a =>
      rw [bind_ok hrun]
      obtain ⟨calls, hnext, hown, herror⟩ := hf a run'
      rw [hadvances.stage] at hown
      exact ⟨calls, hadvances.trans hnext, hown, herror⟩

theorem of_ask (client : Client) {call : Call} (hcall : purpose call) :
    Calls phase purpose (ask client phase call) := by
  intro run
  cases hanswer : client.answer run.trace call with
  | error reason =>
    rw [ask_rejected hanswer phase]
    exact ⟨_, advances_exchanged run _, .inr ⟨_, rfl, rfl, hcall, rfl⟩,
      fun e he => by cases he; rfl⟩
  | ok answer =>
    rw [ask_accepted hanswer phase]
    exact ⟨_, advances_exchanged run _, .inr ⟨_, rfl, rfl, hcall, rfl⟩, nofun⟩

theorem ask_bind (client : Client) {call : Call} {f : call.Answer → Runs β}
    (hcall : purpose call) (hf : ∀ answer, Succeeds (f answer)) :
    Calls phase purpose (ask client phase call >>= f) := by
  intro run
  obtain ⟨calls, hasked, hcalls, hplain⟩ := of_ask client hcall run
  rcases hrun : Run.ask client phase call run with ⟨e | answer, run'⟩
  · rw [hrun] at hasked hcalls hplain
    rw [bind_error hrun]
    exact ⟨calls, hasked, hcalls, fun e' he => hplain e' (by cases he; rfl)⟩
  · rw [hrun] at hasked hcalls
    rw [bind_ok hrun]
    obtain ⟨b, hok, hadvances⟩ := hf answer run'
    rw [hok]
    exact ⟨calls, by simpa using hasked.trans hadvances, hcalls, nofun⟩

end Calls

end Runs

namespace Run

open Runs

variable {options : Options} {client : Client} {phase : Phase} {run : Run}

/-- Outputs are set in the layer that the phase belongs to, one after the other. -/
theorem outputs_run (phase : Phase) (vars : List (String × Variable)) :
    outputs phase vars run =
      (.ok (), run.modifyLayer phase fun layer =>
        vars.foldl (fun layer entry => layer.set entry.1 entry.2) layer) := by
  induction vars generalizing run with
  | nil => cases phase <;> rfl
  | cons entry vars ih =>
    change (output phase entry.1 entry.2 >>= fun _ => outputs phase vars) run = _
    rw [bind_ok (output_run phase entry.1 entry.2), ih]
    cases phase <;> rfl

theorem succeeds_outputs {α : Type} (phase : Phase) (vars : List (String × Variable)) (a : α) :
    Succeeds (outputs phase vars >>= fun _ => pure a) := by
  intro run
  rw [bind_ok (outputs_run phase vars)]
  refine ⟨a, rfl, ?_⟩
  rw [pure_run]
  dsimp only
  exact advances_modifyLayer run phase _

theorem calls_sendRequest (step : RestCallStep) (env : Environment) :
    Calls phase (·.step? = some (.rest step)) (sendRequest options client phase step env) := by
  have hask : ∀ request : Request, Calls phase (·.step? = some (.rest step)) (do
      let response ← ask client phase (.send step request env)
      outputs phase (captured step response.body)
      return request.method.name ++ " " ++ request.path ++ " -> " ++ toString response.status) :=
    fun request => Calls.ask_bind client rfl fun _ => succeeds_outputs phase _ _
  unfold sendRequest
  cases Request.ofStep step with
  | error e =>
    refine Calls.bind (Silent.throw rfl) fun request => ?_
    dsimp only
    split
    · exact Calls.bind (Silent.ofVariables _) hask
    · exact Calls.bind (Silent.pure _) hask
  | ok request =>
    refine Calls.bind (Silent.pure request) fun request => ?_
    dsimp only
    split
    · exact Calls.bind (Silent.ofVariables _) hask
    · exact Calls.bind (Silent.pure _) hask

theorem calls_deploy (step : DeploymentStep) (env : Environment) :
    Calls phase (·.step? = some (.deployment step)) (deploy options client phase step env) := by
  refine Calls.bind (Silent.ofVariables _) fun subscription => ?_
  refine Calls.bind (Silent.ofVariables _) fun container => ?_
  refine Calls.bind Silent.drawSuffix fun suffix => ?_
  refine Calls.bind (Silent.ofVariables _) fun template => ?_
  refine Calls.bind (Silent.ofVariables _) fun parameters => ?_
  exact Calls.ask_bind client rfl fun _ => succeeds_outputs phase _ _

theorem calls_dispatch (options : Options) (client : Client) (phase : Phase) (s : Step)
    (env : Environment) : Calls phase (·.step? = some s) (dispatch options client phase s env) := by
  cases s with
  | rest step => exact calls_sendRequest step env
  | deployment step => exact calls_deploy step env

end Run

/-! ### Steps and their reports -/

/-- What becomes of a step at a stage of a scenario: its calls, its report and its result. -/
structure Ran (scenario : String) (stage : Stage) (s : Step) (calls : List Exchange)
    (report : StepReport) (result : Except RunError Unit) : Prop where
  calls : OneCall stage (·.step? = some s) result.isOk calls
  name : report.name = s.name
  kind : report.kind = s.kind
  phase : report.phase = stage.phase
  result : (result = .ok () ∧ report.status = .completed) ∨
    ∃ cause, result = .error (.step scenario s.name cause) ∧ report.status = .failed

namespace Run

open Runs

variable {options : Options} {client : Client} {phase : Phase} {run run' : Run}

theorem failStep_run (s : Step) (env : Environment) (e : RunError) :
    failStep phase s env e run =
      (.error (e.inStep run.scenario s.name),
        { run with steps := run.steps ++ [.ofStep s phase .failed (env.mask e.message)] }) := rfl

theorem step_of_environment_error {s : Step} {e : RunError}
    (h : stepEnvironment options phase s run = (.error e, run')) :
    step options client phase s run = failStep phase s (run'.environment phase) e run' := by
  rw [step, attempt_bind_run, h]
  dsimp only
  rw [get_bind_run]

theorem step_of_dispatch_error {s : Step} {env : Environment} {e : RunError} {before : Run}
    (h : stepEnvironment options phase s run = (.ok env, before))
    (h' : dispatch options client phase s env before = (.error e, run')) :
    step options client phase s run = failStep phase s env e run' := by
  rw [step, attempt_bind_run, h]
  simp only [attempt_bind_run, h']

/-- What a step that completes says is covered where its outputs are in sight. -/
theorem step_of_dispatch_ok {s : Step} {env : Environment} {message : String} {before : Run}
    (h : stepEnvironment options phase s run = (.ok env, before))
    (h' : dispatch options client phase s env before = (.ok message, run')) :
    step options client phase s run =
      report s phase .completed (((run'.environment phase).child env.inner).mask message) run' := by
  rw [step, attempt_bind_run, h]
  simp only [attempt_bind_run, h']
  rfl

theorem ran_failStep {calls : List Exchange} {s : Step} {e : RunError}
    (h : run.Advances calls [] run')
    (hcalls : OneCall (run.stage phase) (·.step? = some s) false calls)
    (he : e.isPlain = true) (env : Environment) :
    ∃ report, run.Advances calls [report] (failStep phase s env e run').2 ∧
      Ran run.scenario (run.stage phase) s calls report (failStep phase s env e run').1 := by
  rw [failStep_run]
  refine ⟨.ofStep s phase .failed (env.mask e.message), ?_, hcalls, rfl, rfl, rfl,
    .inr ⟨e, ?_, rfl⟩⟩
  · simpa using h.trans (advances_steps run' _)
  · change Except.error (e.inStep run'.scenario s.name) = _
    rw [e.inStep_of_isPlain he, h.scenario]

/-- **A step makes at most one call, its own, and there is one report on it.** -/
theorem ran_step (options : Options) (client : Client) (phase : Phase) (s : Step) (run : Run) :
    ∃ calls report, run.Advances calls [report] (step options client phase s run).2 ∧
      Ran run.scenario (run.stage phase) s calls report (step options client phase s run).1 := by
  obtain ⟨hbefore, hplain⟩ := silent_stepEnvironment options phase s run
  rcases henv : stepEnvironment options phase s run with ⟨e | env, before⟩
  · rw [henv] at hbefore hplain
    rw [step_of_environment_error henv]
    exact ⟨[], ran_failStep hbefore (.inl ⟨rfl, rfl⟩) (hplain e rfl) _⟩
  · rw [henv] at hbefore
    obtain ⟨calls, hafter, hown, herror⟩ :=
      calls_dispatch options client phase s env before
    rw [hbefore.stage] at hown
    rcases hdispatch : dispatch options client phase s env before with ⟨e | message, after⟩
    · rw [hdispatch] at hafter hown herror
      rw [step_of_dispatch_error henv hdispatch]
      exact ⟨calls, ran_failStep (hbefore.trans hafter) hown (herror e rfl) env⟩
    · rw [hdispatch] at hafter hown
      rw [step_of_dispatch_ok henv hdispatch, report_run]
      generalize ((after.environment phase).child env.inner).mask message = shown
      refine ⟨calls, .ofStep s phase .completed shown, ?_, hown, rfl, rfl, rfl, .inl ⟨rfl, rfl⟩⟩
      simpa using (hbefore.trans hafter).trans (advances_steps after _)

end Run

end Rehearsal
