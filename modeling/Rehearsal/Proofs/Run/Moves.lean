import Rehearsal.Proofs.Run.Report
import Rehearsal.Proofs.Environment.Locality
import Mathlib.Logic.Relation

/-!
# The moves of a run

All that a run ever does is one of a few moves, each with at most one call (`Run.Move`), whether it
comes to something or fails (`Run.moves_perform`). So what every move keeps is kept by a run. And
what a step deploys is the document of its template, with its placeholders replaced in the
environment of the step unless they are left to the client (`Run.sends_perform`).

* `Call.outputs`: the variables that a step takes from the answer to its call;
* `Call.Formed`: how the document of a deployment is made;
* `Run.Move`, `Run.Moves`: one move, and any number of them;
* `Run.Turn`, `Run.Turns`: moves of a run with given options, which say what is sent;
* `Runs.Turning`: actions that are made of such moves.
-/

namespace Rehearsal

/-- The variables that a step takes from the answer to its call. -/
def Call.outputs : (call : Call) → call.Answer → List (String × Variable)
  | .send step _ _, response => Run.captured step response.body
  | .deploy step _ _ _, produced =>
    produced.entries.map fun (name, value) => (name, Variable.ofValue (Run.outputKind step name) value)
  | .prepare .., _ | .createContainer .., _ | .deleteContainer .., _ => []

/-- The variables that a step takes from the answer, if there is one. -/
def Exchange.outputs (x : Exchange) : List (String × Variable) :=
  match x.answer with
  | .ok answer => x.call.outputs answer
  | .error _ => []

theorem Exchange.outputs_eq_nil {x : Exchange} (h : x.call.step? = none) : x.outputs = [] := by
  obtain ⟨_, _, _, _, call, answer⟩ := x
  cases answer with
  | error reason => rfl
  | ok answer => cases call <;> first | rfl | cases h

/-- The document of a deployment is that of the template of its step, resolved in the environment of
the call unless placeholders are left to the client. -/
def Call.Formed (options : Options) : Call → Prop
  | .deploy step template _ env => Run.resolved options env step.template.toJson = .ok template
  | .prepare .. | .send .. | .createContainer .. | .deleteContainer .. => True

namespace Run

/-- One move of a run. A container is created and deleted as the variables of the scope say at that
time; a call of a step sets what is taken from the answer to it. -/
inductive Move (client : Client) : Run → Run → Prop
  | draws (run : Run) (suffixes : Suffixes) : Move client run { run with suffixes }
  | reports (run : Run) (r : StepReport) : Move client run { run with steps := run.steps ++ [r] }
  | settles (run : Run) (status : ProvisionStatus) : Move client run (run.withStatus status)
  | prepares (run : Run) (scenario : Scenario) :
      Move client run (run.exchanged
        (run.exchangeWith client .scenario (.prepare scenario (run.environment .scenario))))
  | creates {run : Run} {subscription name location : String}
      (subscribed : run.scope.environment.requireString ReservedName.subscription =
        .ok subscription)
      (named : run.scope.environment.requireString ReservedName.container = .ok name)
      (located : run.scope.environment.requireString ReservedName.location = .ok location) :
      Move client run (run.exchanged
        (run.exchangeWith client .prepare (.createContainer subscription name location)))
  | deletes {run : Run} {subscription name : String}
      (subscribed : run.scope.environment.requireString ReservedName.subscription =
        .ok subscription)
      (named : run.scope.environment.requireString ReservedName.container = .ok name) :
      Move client run (run.exchanged
        (run.exchangeWith client .cleanup (.deleteContainer subscription name)))
  | steps (run : Run) (phase : Phase) {call : Call} {s : Step} (asks : call.step? = some s) :
      Move client run ((run.exchanged (run.exchangeWith client phase call)).modifyLayer phase
        fun layer => layer.setAll (run.exchangeWith client phase call).outputs)

/-- Any number of moves. -/
def Moves (client : Client) : Run → Run → Prop := Relation.ReflTransGen (Move client)

theorem Moves.trans {client : Client} {run run' run'' : Run} (h : run.Moves client run')
    (h' : run'.Moves client run'') : run.Moves client run'' :=
  Relation.ReflTransGen.trans h h'

theorem Moves.of_move {client : Client} {run run' : Run} (h : Move client run run') :
    run.Moves client run' :=
  .single h

/-- What is sent between two moments of a run is formed. -/
def Sends (options : Options) (run run' : Run) : Prop :=
  ∃ calls, run'.trace = run.trace ++ calls ∧ ∀ x ∈ calls, x.call.Formed options

section sends

variable {options : Options} {run run' run'' : Run}

theorem Sends.of_trace_eq (h : run'.trace = run.trace) : run.Sends options run' :=
  ⟨[], by rw [h, List.append_nil], fun _ hx => absurd hx List.not_mem_nil⟩

theorem Sends.of_call {x : Exchange} (h : run'.trace = run.trace ++ [x])
    (hformed : x.call.Formed options) : run.Sends options run' := by
  refine ⟨[x], h, fun y hy => ?_⟩
  rwa [List.mem_singleton.1 hy]

theorem Sends.trans (h : run.Sends options run') (h' : run'.Sends options run'') :
    run.Sends options run'' := by
  obtain ⟨calls, htrace, hformed⟩ := h
  obtain ⟨calls', htrace', hformed'⟩ := h'
  refine ⟨calls ++ calls', ?_, fun x hx => (List.mem_append.1 hx).elim (hformed x) (hformed' x)⟩
  rw [htrace', htrace, List.append_assoc]

end sends

/-- A move of a run with some options. -/
def Turn (options : Options) (client : Client) (run run' : Run) : Prop :=
  Move client run run' ∧ run.Sends options run'

/-- Any number of such moves. -/
def Turns (options : Options) (client : Client) : Run → Run → Prop :=
  Relation.ReflTransGen (Turn options client)

section turns

variable {options : Options} {client : Client} {run run' run'' : Run}

theorem Turns.trans (h : run.Turns options client run') (h' : run'.Turns options client run'') :
    run.Turns options client run'' :=
  Relation.ReflTransGen.trans h h'

theorem Turns.moves (h : run.Turns options client run') : run.Moves client run' := by
  induction h with
  | refl => exact .refl
  | tail _ turn ih => exact ih.trans (.of_move turn.1)

theorem Turns.sends (h : run.Turns options client run') : run.Sends options run' := by
  induction h with
  | refl => exact .of_trace_eq rfl
  | tail _ turn ih => exact ih.trans turn.2

/-- A move without a call. -/
theorem Turns.of_silent (h : Move client run run') (htrace : run'.trace = run.trace) :
    run.Turns options client run' :=
  .single ⟨h, .of_trace_eq htrace⟩

/-- A move with a call. -/
theorem Turns.of_call {x : Exchange} (h : Move client run run') (htrace : run'.trace = run.trace ++ [x])
    (hformed : x.call.Formed options) : run.Turns options client run' :=
  .single ⟨h, .of_call htrace hformed⟩

end turns

end Run

namespace Runs

open Run

variable {α β : Type} {options : Options} {client : Client} {phase : Phase}

/-- An action that is made of moves of a run with some options. -/
def Turning (options : Options) (client : Client) (act : Runs α) : Prop :=
  ∀ run : Run, run.Turns options client (act run).2

theorem turns_bind {act : Runs α} {f : α → Runs β} {run : Run}
    (h : run.Turns options client (act run).2)
    (hf : ∀ a run', act run = (.ok a, run') → run'.Turns options client (f a run').2) :
    run.Turns options client ((act >>= f) run).2 := by
  rcases hrun : act run with ⟨e | a, run'⟩
  · rw [bind_error hrun]
    rwa [hrun] at h
  · rw [bind_ok hrun]
    rw [hrun] at h
    exact h.trans (hf a run' hrun)

namespace Turning

theorem pure (a : α) : Turning options client (pure a : Runs α) := fun _ => .refl

theorem throw (e : RunError) : Turning options client (throw e : Runs α) := fun _ => .refl

theorem get : Turning options client (get : Runs Run) := fun _ => .refl

theorem ofVariables (value : Except VariableError α) : Turning options client (ofVariables value) := by
  cases value with
  | error e => exact throw _
  | ok a => exact pure a

theorem materialize (layer : Layer) : Turning options client (materialize layer) := fun run =>
  .of_silent (.draws run _) rfl

theorem drawSuffix : Turning options client drawSuffix := fun run => .of_silent (.draws run _) rfl

theorem report (s : Step) (phase : Phase) (status : StepStatus) (message : String) :
    Turning options client (report s phase status message) := fun run =>
  .of_silent (.reports run _) rfl

theorem setStatus (status : ProvisionStatus) : Turning options client (setStatus status) := fun run =>
  .of_silent (.settles run status) rfl

theorem bind {act : Runs α} {f : α → Runs β} (h : Turning options client act)
    (hf : ∀ a, Turning options client (f a)) : Turning options client (act >>= f) := fun run =>
  turns_bind (h run) fun a run' _ => hf a run'

theorem attempt {act : Runs α} (h : Turning options client act) :
    Turning options client (attempt act) := h

theorem forM {f : Step → Runs PUnit} (h : ∀ s, Turning options client (f s)) (steps : List Step) :
    Turning options client (steps.forM f) := by
  induction steps with
  | nil => exact pure _
  | cons s steps ih => exact (h s).bind fun _ => ih

/-- A step makes its call and sets what it takes from the answer. -/
theorem ask_outputs (client : Client) (phase : Phase) (call : Call) {s : Step}
    (hstep : call.step? = some s) (hformed : call.Formed options) (message : call.Answer → String) :
    Turning options client (do
      let answer ← ask client phase call
      outputs phase (call.outputs answer)
      return message answer) := by
  intro run
  have hturns : run.Turns options client ((run.exchanged (run.exchangeWith client phase call)).modifyLayer
      phase fun layer => layer.setAll (run.exchangeWith client phase call).outputs) := by
    refine .of_call (x := run.exchangeWith client phase call) (.steps run phase hstep) ?_ hformed
    cases phase <;> rfl
  cases hanswer : client.answer run.trace call with
  | error reason =>
    -- Nothing is taken from an answer that there is not.
    rw [bind_error (ask_rejected hanswer phase)]
    rw [exchangeWith, hanswer] at hturns
    cases phase <;> exact hturns
  | ok answer =>
    rw [bind_ok (ask_accepted hanswer phase), bind_ok (outputs_run phase _)]
    rw [exchangeWith, hanswer] at hturns
    exact hturns

end Turning

theorem turning_stepEnvironment (options : Options) (phase : Phase) (s : Step) :
    Turning options client (stepEnvironment options phase s) := by
  refine Turning.get.bind fun run => (Turning.ofVariables _).bind fun layer =>
    (Turning.materialize layer).bind fun layer => ?_
  cases options.resolveVariables with
  | true => exact Turning.ofVariables _
  | false => exact Turning.pure _

theorem turning_sendRequest (options : Options) (step : RestCallStep) (env : Environment) :
    Turning options client (sendRequest options client phase step env) := by
  have hask (request : Request) : Turning options client _ :=
    Turning.ask_outputs client phase (.send step request env) rfl trivial fun response =>
      request.method.name ++ " " ++ request.path ++ " -> " ++ toString response.status
  unfold sendRequest
  cases Request.ofStep step with
  | error e =>
    refine Turning.bind (Turning.throw _) fun request => ?_
    dsimp only
    split
    · exact (Turning.ofVariables _).bind hask
    · exact (Turning.pure _).bind hask
  | ok request =>
    refine Turning.bind (Turning.pure request) fun request => ?_
    dsimp only
    split
    · exact (Turning.ofVariables _).bind hask
    · exact (Turning.pure _).bind hask

theorem turning_deploy (options : Options) (step : DeploymentStep) (env : Environment) :
    Turning options client (deploy options client phase step env) := by
  refine (Turning.ofVariables _).bind fun subscription => ?_
  refine (Turning.ofVariables _).bind fun container => ?_
  refine Turning.drawSuffix.bind fun suffix => ?_
  -- The document is what the template of the step is resolved to.
  cases htemplate : resolved options env step.template.toJson with
  | error e => exact fun run => .refl
  | ok template =>
    change Turning options client (ofVariables (deploymentParameters options step.template env) >>= _)
    refine (Turning.ofVariables _).bind fun parameters => ?_
    exact Turning.ask_outputs client phase (.deploy step template _ env) rfl htemplate _

theorem turning_dispatch (options : Options) (s : Step) (env : Environment) :
    Turning options client (dispatch options client phase s env) := by
  cases s with
  | rest step => exact turning_sendRequest options step env
  | deployment step => exact turning_deploy options step env

theorem turning_failStep (phase : Phase) (s : Step) (env : Environment) (e : RunError) :
    Turning options client (failStep phase s env e) :=
  (Turning.report s phase _ _).bind fun _ => Turning.get.bind fun _ => Turning.throw _

theorem turning_step (options : Options) (phase : Phase) (s : Step) :
    Turning options client (step options client phase s) := by
  refine (turning_stepEnvironment options phase s).attempt.bind fun result => ?_
  cases result with
  | error e => exact Turning.get.bind fun run => turning_failStep phase s _ e
  | ok env =>
    refine (turning_dispatch options s env).attempt.bind fun result => ?_
    cases result with
    | error e => exact turning_failStep phase s env e
    | ok message => exact Turning.get.bind fun run => Turning.report s phase _ _

theorem turning_skip (phase : Phase) (message : String) (steps : List Step) :
    Turning options client (skip phase message steps) :=
  Turning.forM (fun s => Turning.report s phase _ _) steps

theorem turning_scenarioSteps (options : Options) (steps : List Step) :
    Turning options client (scenarioSteps options client steps) := by
  induction steps with
  | nil => exact Turning.pure _
  | cons s steps ih =>
    refine (turning_step options .scenario s).attempt.bind fun result => ?_
    cases result with
    | error e => exact (turning_skip _ _ steps).bind fun _ => Turning.throw e
    | ok _ => exact ih

end Runs

namespace Run

open Runs

variable {client : Client}

/-- The container is created that the variables of the scope name. -/
theorem turns_createContainer (options : Options) (client : Client) (run : Run) :
    run.Turns options client (createContainer client run.scope.environment run).2 := by
  rw [createContainer]
  cases hsubscription : run.scope.environment.requireString ReservedName.subscription with
  | error e => exact .refl
  | ok subscription =>
    cases hname : run.scope.environment.requireString ReservedName.container with
    | error e => exact .refl
    | ok name =>
      cases hlocation : run.scope.environment.requireString ReservedName.location with
      | error e => exact .refl
      | ok location =>
        have hask := ask_run client .prepare (.createContainer subscription name location) run
        exact hask ▸ .of_call (.creates hsubscription hname hlocation) rfl trivial

/-- The container is deleted that the variables of the scope name. -/
theorem turns_deleteContainer (options : Options) (client : Client) (run : Run) :
    run.Turns options client (deleteContainer client run.scope.environment run).2 := by
  rcases deleteContainer_cases client run.scope.environment run with
    ⟨e, hdelete, -⟩ | ⟨subscription, name, hsubscription, hname, hdelete⟩
  · rw [hdelete]
    exact .refl
  · rw [hdelete, ask_run]
    exact .of_call (.deletes hsubscription hname) rfl trivial

theorem turning_provisionOnce (options : Options) (client : Client) :
    Turning options client (provisionOnce options client) := by
  intro run
  have hsteps : Turning options client (run.scope.prepareSteps.forM (step options client .prepare)) :=
    Turning.forM (turning_step options .prepare) _
  cases hkind : run.scope.kind.needsContainer with
  | false =>
    rw [provisionOnce_of_no_container hkind]
    exact hsteps run
  | true =>
    rw [provisionOnce_of_container hkind]
    exact turns_bind (turns_createContainer options client run) fun _ run' _ => hsteps run'

theorem turning_provision (options : Options) (client : Client) :
    Turning options client (provision options client) := by
  refine Turning.get.bind fun run => ?_
  dsimp only
  split
  · exact Turning.pure _
  · exact Turning.throw _
  -- The scope is provisioned now, whether that was attempted before or not.
  all_goals
    refine (Turning.setStatus _).bind fun _ =>
      (turning_provisionOnce options client).attempt.bind fun result => ?_
    cases result with
    | error e => exact Turning.get.bind fun _ => (Turning.setStatus _).bind fun _ => Turning.throw e
    | ok _ => exact Turning.setStatus _

theorem turning_body (options : Options) (client : Client) (scenario : Scenario) :
    Turning options client (body options client scenario) := by
  refine (turning_provision options client).attempt.bind fun result => ?_
  cases result with
  | error e => exact (turning_skip _ _ _).bind fun _ => Turning.throw e
  | ok _ => exact turning_scenarioSteps options scenario.steps

theorem turning_cleanup (options : Options) (client : Client) :
    Turning options client (cleanup options client) := by
  intro run
  have hsteps : run.Turns options client
      (run.scope.cleanupSteps.forM (step options client .cleanup) run).2 :=
    Turning.forM (turning_step options .cleanup) _ run
  rcases hrun : run.scope.cleanupSteps.forM (step options client .cleanup) run with ⟨e | _, run'⟩
  · rw [hrun] at hsteps
    rwa [cleanup_of_steps_error hrun]
  · rw [hrun] at hsteps
    rw [cleanup_of_steps_ok hrun]
    split
    · exact hsteps.trans (turns_deleteContainer options client run')
    · exact hsteps

theorem turning_finish (options : Options) (client : Client) :
    Turning options client (finish options client) := by
  rw [finish]
  split
  · exact Turning.get.bind fun _ => turning_skip _ _ _
  · exact turning_cleanup options client

theorem turns_perform (options : Options) (client : Client) (scenario : Scenario) (run : Run) :
    run.Turns options client (perform options client scenario run).2 := by
  have hask : run.Turns options client
      (run.exchanged
        (run.exchangeWith client .scenario (.prepare scenario (run.environment .scenario)))) :=
    .of_call (.prepares run scenario) rfl trivial
  cases hanswer : client.answer run.trace (.prepare scenario (run.environment .scenario)) with
  | error reason =>
    rw [perform_of_rejected hanswer]
    rwa [exchangeWith, hanswer] at hask
  | ok _ =>
    rw [perform_of_accepted options hanswer rfl]
    rw [exchangeWith, hanswer] at hask
    exact (hask.trans (turning_body options client scenario _)).trans
      (turning_finish options client _)

/-- **A run is made of moves.** -/
theorem moves_perform (options : Options) (client : Client) (scenario : Scenario) (run : Run) :
    run.Moves client (perform options client scenario run).2 :=
  (turns_perform options client scenario run).moves

/-- **A run sends the templates of its steps**, resolved if that is left to it. -/
theorem sends_perform (options : Options) (client : Client) (scenario : Scenario) (run : Run) :
    run.Sends options (perform options client scenario run).2 :=
  (turns_perform options client scenario run).sends

end Run

end Rehearsal
