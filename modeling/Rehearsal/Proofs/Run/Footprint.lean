import Rehearsal.Proofs.Run.Failure
import Rehearsal.Proofs.Run.Writing

/-!
# What a run writes, and where

A step writes what it takes from the answer to its call, and nothing else of a run writes anything:
the steps of a scenario write to the variables of the scenario, the others to the scope
(`Run.Moves.wrote`). So what a name means to a scenario is the latest of these outputs, or what it
meant when the run started (`Run.Wrote.get?_scenario`).

* `Exchange.kept`, `Run.Wrote`: what is written besides the scope, and both together;
* `Layer.latest`: the last of the variables that are set under a name;
* `Run.GetsTo.moves`, `Run.Begins.moves`: steps and phases begin behind moves of the run.
-/

namespace Rehearsal

/-- The variables that an exchange sets among those of its scenario. -/
def Exchange.kept (x : Exchange) : List (String × Variable) :=
  match x.phase with
  | .scenario => x.outputs
  | .prepare | .cleanup => []

theorem Exchange.kept_eq_nil {x : Exchange} (h : x.call.step? = none) : x.kept = [] := by
  rw [kept, outputs_eq_nil h]
  split <;> rfl

/-! ### The latest of several variables -/

namespace Layer

/-- The last variable of a name. -/
def latest (name : String) (entries : List (String × Variable)) : Option Variable :=
  entries.reverse.findSome? fun entry => if entry.1 = name then some entry.2 else none

variable {layer : Layer} {name : String} {entries entries' : List (String × Variable)}

theorem latest_append :
    latest name (entries ++ entries') = (latest name entries').or (latest name entries) := by
  rw [latest, List.reverse_append, List.findSome?_append, latest, latest]

theorem latest_eq_none (h : ∀ entry ∈ entries, entry.1 ≠ name) : latest name entries = none := by
  refine List.findSome?_eq_none_iff.2 fun entry hmem => if_neg ?_
  exact h entry (List.mem_reverse.1 hmem)

/-- What is set last is what a name means. -/
theorem get?_vars_setAll_eq (layer : Layer) (name : String) (entries : List (String × Variable)) :
    (layer.setAll entries).vars.get? name = (latest name entries).or (layer.vars.get? name) := by
  induction entries generalizing layer with
  | nil => rfl
  | cons entry entries ih =>
    change ((layer.set entry.1 entry.2).setAll entries).vars.get? name = _
    rw [ih, get?_vars_set, ← List.singleton_append, latest_append, Option.or_assoc]
    congr 1
    by_cases heq : name = entry.1 <;> simp [latest, heq, Ne.symm]

end Layer

/-- What a name means in a scope: what was written last, or what it meant before. -/
theorem RuntimeScope.Writes.get?_environment {scope scope' : RuntimeScope} {calls : List Exchange}
    (h : scope.Writes calls scope') (name : String) :
    scope'.environment.get? name =
      (Layer.latest name (calls.flatMap Exchange.written)).or (scope.environment.get? name) := by
  rw [h.changes]
  simp only [RuntimeScope.environment, RuntimeScope.after, Environment.get?, Environment.layers,
    List.findSome?_cons, Layer.get?_vars_setAll_eq]
  cases Layer.latest name (calls.flatMap Exchange.written) <;> rfl

namespace Run

open Runs

variable {options : Options} {client : Client} {scenario : Scenario} {phase : Phase} {s : Step}
  {run run' run'' before after start : Run} {calls calls' : List Exchange} {steps : List Step}

/-! ### What is written -/

/-- What becomes of a run while some calls are made in its scope: about its variables nothing changes
but what the calls write, to the scope or to those of the scenario. -/
structure Wrote (run : Run) (calls : List Exchange) (run' : Run) : Prop where
  trace : run'.trace = run.trace ++ calls
  own : ∀ x ∈ calls, x.scope = run.scope.name
  scope : run.scope.Writes calls run'.scope
  layer : run'.layer = run.layer.setAll (calls.flatMap Exchange.kept)

namespace Wrote

theorem refl (run : Run) : run.Wrote [] run where
  trace := (List.append_nil _).symm
  own _ hx := absurd hx List.not_mem_nil
  scope := .refl run.scope
  layer := rfl

theorem name_eq (h : run.Wrote calls run') : run'.scope.name = run.scope.name := by
  rw [h.scope.changes]
  rfl

theorem trans (h : run.Wrote calls run') (h' : run'.Wrote calls' run'') :
    run.Wrote (calls ++ calls') run'' where
  trace := by rw [h'.trace, h.trace, List.append_assoc]
  own x hx := (List.mem_append.1 hx).elim (h.own x) fun hx => (h'.own x hx).trans h.name_eq
  scope := h.scope.trans h'.scope
  layer := by rw [h'.layer, h.layer, List.flatMap_append, Layer.setAll_append]

end Wrote

/-- A move makes no call and leaves the variables of the scenario, or it makes one and sets there
what the call of a step of the scenario brings. -/
theorem Move.layer_cases (h : Move client run run') :
    run'.trace = run.trace ∧ run'.layer = run.layer ∨
      ∃ x, run'.trace = run.trace ++ [x] ∧ x.scope = run.scope.name ∧
        run'.layer = run.layer.setAll x.kept := by
  -- Only a call that is made for a step sets anything.
  have hnone {x : Exchange} (hx : x.call.step? = none) : run.layer = run.layer.setAll x.kept := by
    rw [Exchange.kept_eq_nil hx]
    rfl
  cases h with
  | draws => exact .inl ⟨rfl, rfl⟩
  | reports => exact .inl ⟨rfl, rfl⟩
  | settles => exact .inl ⟨rfl, rfl⟩
  | prepares => exact .inr ⟨_, rfl, rfl, hnone rfl⟩
  | creates => exact .inr ⟨_, rfl, rfl, hnone rfl⟩
  | deletes => exact .inr ⟨_, rfl, rfl, hnone rfl⟩
  | @steps phase call s asks =>
    refine .inr ⟨run.exchangeWith client phase call, ?_, rfl, ?_⟩
    · cases phase <;> rfl
    · cases phase <;> rfl

theorem Move.wrote (h : Move client run run') : ∃ calls, run.Wrote calls run' := by
  obtain ⟨calls, htrace, hwrites⟩ := h.writes
  rcases h.layer_cases with ⟨hsame, hlayer⟩ | ⟨x, hcall, hname, hlayer⟩
  · cases List.self_eq_append_right.1 (hsame.symm.trans htrace)
    exact ⟨[], htrace, fun _ hx => absurd hx List.not_mem_nil, hwrites, hlayer⟩
  · cases List.append_cancel_left (hcall.symm.trans htrace)
    refine ⟨[x], htrace, ?_, hwrites, ?_⟩
    · simpa using hname
    · rw [List.flatMap_singleton]
      exact hlayer

/-- **All that a run writes is what its steps take from the answers to their calls, and it is written
where the phase of the step belongs.** -/
theorem Moves.wrote (h : run.Moves client run') : ∃ calls, run.Wrote calls run' := by
  induction h with
  | refl => exact ⟨[], .refl run⟩
  | tail _ move ih =>
    obtain ⟨calls, hwrote⟩ := ih
    obtain ⟨calls', hwrote'⟩ := move.wrote
    exact ⟨calls ++ calls', hwrote.trans hwrote'⟩

theorem Moves.wrote_of_trace (h : run.Moves client run') (htrace : run'.trace = run.trace ++ calls) :
    run.Wrote calls run' := by
  obtain ⟨calls', hwrote⟩ := h.wrote
  rwa [List.append_cancel_left (htrace.symm.trans hwrote.trace)]

/-! ### What a name means -/

/-- What the steps of a scenario wrote last, then what the scenario itself bound when it started,
then what the others wrote last to the scope. -/
theorem Wrote.get?_scenario (h : run.Wrote calls run') (name : String) :
    (run'.environment .scenario).get? name =
      ((Layer.latest name (calls.flatMap Exchange.kept)).or (run.layer.vars.get? name)).or
        (run'.scope.environment.get? name) := by
  change Environment.get? (run'.scope.environment.child run'.layer) name = _
  rw [h.layer, Environment.get?, Environment.child, Environment.layers, List.findSome?_cons,
    Layer.get?_vars_setAll_eq]
  cases (Layer.latest name (calls.flatMap Exchange.kept)).or (run.layer.vars.get? name) <;> rfl

/-! ### Where steps begin -/

theorem moves_contain (client : Client) (run : Run) : run.Moves client (contain client run).2 := by
  rw [contain, get_bind_run]
  split
  · exact (turns_createContainer {} client run).moves
  · exact .refl

theorem moves_of_step (h : step options client phase s run = (.ok (), run')) :
    run.Moves client run' := by
  have hmoves : run.Moves client (step options client phase s run).2 :=
    (turning_step options phase s run).moves
  rwa [h] at hmoves

/-- The steps before a step are moves of the run. -/
theorem GetsTo.moves (h : GetsTo options client phase s before steps run) :
    run.Moves client before := by
  induction h with
  | now => exact .refl
  | later completes _ ih => exact (moves_of_step completes).trans ih

/-- What comes before a phase are moves of the run. -/
theorem Begins.moves (h : Begins options client scenario run phase steps start) :
    run.Moves client start := by
  cases h with
  | prepare _ creates =>
    have hmoves := moves_contain client (run.withStatus .provisioning)
    rw [creates] at hmoves
    exact (Moves.of_move (.settles run .provisioning)).trans hmoves
  | scenario provisions =>
    have hmoves := (turning_provision options client run).moves
    rwa [provisions] at hmoves
  | cleanup _ ends =>
    have hmoves := (turning_body options client scenario run).moves
    rwa [ends] at hmoves

end Run

end Rehearsal
