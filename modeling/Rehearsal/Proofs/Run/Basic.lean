import Rehearsal.Run.State

/-!
# Running what may fail

What changes a run is a function from runs to results and runs. Here is what the ways of putting
such functions together do to a run (`Runs.bind_run`, `Runs.attempt_run`), and what the single
changes do: none of them fails but `Run.ask`, which asks the client exactly once.
-/

namespace Rehearsal

namespace Runs

variable {α β : Type} {run run' : Run}

@[simp] theorem pure_run (a : α) : (pure a : Runs α) run = (.ok a, run) := rfl

@[simp] theorem throw_run (e : RunError) : (throw e : Runs α) run = (.error e, run) := rfl

@[simp] theorem get_run : (get : Runs Run) run = (.ok run, run) := rfl

@[simp] theorem set_run : (set run' : Runs PUnit) run = (.ok ⟨⟩, run') := rfl

/-- What follows a success goes on with the value and the changes; a failure ends it. -/
theorem bind_run (act : Runs α) (f : α → Runs β) :
    (act >>= f) run = match act run with
      | (.ok a, run') => f a run'
      | (.error e, run') => (.error e, run') := by
  change ExceptT.bindCont f (act run).1 (act run).2 = _
  obtain ⟨result, run'⟩ := act run
  cases result <;> rfl

theorem bind_ok {act : Runs α} {a : α} (h : act run = (.ok a, run')) (f : α → Runs β) :
    (act >>= f) run = f a run' := by
  rw [bind_run, h]

theorem bind_error {act : Runs α} {e : RunError} (h : act run = (.error e, run')) (f : α → Runs β) :
    (act >>= f) run = (.error e, run') := by
  rw [bind_run, h]

@[simp] theorem get_bind_run (f : Run → Runs β) : (get >>= f) run = f run run := rfl

end Runs

namespace Run

variable {α β : Type} {run run' : Run}

@[simp] theorem attempt_bind_run (act : Runs α) (f : Except RunError α → Runs β) :
    (attempt act >>= f) run = f (act run).1 (act run).2 := rfl

/-- The run behind an exchange. -/
def exchanged (run : Run) (x : Exchange) : Run := { run with trace := run.trace ++ [x] }

/-- A call that the client accepts is kept with its answer. -/
theorem ask_accepted {client : Client} {call : Call} {answer : call.Answer}
    (h : client.answer run.trace call = .ok answer) (phase : Phase) :
    ask client phase call run =
      (.ok answer, run.exchanged (run.exchange phase call (.ok answer))) := by
  simp only [ask, Runs.bind_run, Runs.get_run, Runs.set_run, h]
  rfl

/-- A call that the client rejects is kept as well. -/
theorem ask_rejected {client : Client} {call : Call} {reason : String}
    (h : client.answer run.trace call = .error reason) (phase : Phase) :
    ask client phase call run =
      (.error (.client call.name reason),
        run.exchanged (run.exchange phase call (.error reason))) := by
  simp only [ask, Runs.bind_run, Runs.get_run, Runs.set_run, h]
  rfl

/-- The exchange of a call with the answer that a client gives. -/
def exchangeWith (run : Run) (client : Client) (phase : Phase) (call : Call) : Exchange :=
  run.exchange phase call (client.answer run.trace call)

/-- Whatever the client says, its answer is kept. -/
theorem ask_run (client : Client) (phase : Phase) (call : Call) (run : Run) :
    (ask client phase call run).2 = run.exchanged (run.exchangeWith client phase call) := by
  rw [exchangeWith]
  cases hanswer : client.answer run.trace call with
  | error reason => rw [ask_rejected hanswer]
  | ok answer => rw [ask_accepted hanswer]

theorem report_run (step : Step) (phase : Phase) (status : StepStatus) (message : String) :
    report step phase status message run =
      (.ok (), { run with steps := run.steps ++ [.ofStep step phase status message] }) := rfl

theorem output_run (phase : Phase) (name : String) (v : Variable) :
    output phase name v run = (.ok (), run.modifyLayer phase fun layer => layer.set name v) := rfl

theorem drawSuffix_run :
    drawSuffix run = (.ok run.suffixes.next.1, { run with suffixes := run.suffixes.next.2 }) := rfl

theorem materialize_run (layer : Layer) :
    materialize layer run =
      (.ok (layer.materialize run.suffixes).1,
        { run with suffixes := (layer.materialize run.suffixes).2.2 }) := rfl

end Run

end Rehearsal
