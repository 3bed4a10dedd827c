import Rehearsal.Proofs.Run.Moves

/-!
# What a run writes to its scope

Steps that prepare a scope or clean it up set variables of the scope, and they set no others than
those they take from the answers to their calls. So the scope behind a run is known from the calls
of the run (`RuntimeScope.after`), and so are the variables that name the container in each call
that creates or deletes one (`Run.writes_perform`).
-/

namespace Rehearsal

/-- The variables that an exchange sets in the scope. -/
def Exchange.written (x : Exchange) : List (String × Variable) :=
  match x.phase with
  | .scenario => []
  | .prepare | .cleanup => x.outputs

theorem Exchange.written_eq_nil {x : Exchange} (h : x.call.step? = none) : x.written = [] := by
  rw [written, outputs_eq_nil h]
  split <;> rfl

/-- A container that is created or deleted is the one that an environment names. -/
def Call.Addresses (env : Environment) : Call → Prop
  | .createContainer subscription name _ | .deleteContainer subscription name =>
    env.requireString ReservedName.subscription = .ok subscription ∧
      env.requireString ReservedName.container = .ok name
  | .prepare .. | .send .. | .deploy .. => True

theorem Call.addresses_of_step {env : Environment} {call : Call} {s : Step}
    (h : call.step? = some s) : call.Addresses env := by
  cases call with
  | prepare | send | deploy => trivial
  | createContainer | deleteContainer => cases h

namespace RuntimeScope

/-- A scope with what some exchanges write to it. -/
def after (scope : RuntimeScope) (calls : List Exchange) : RuntimeScope :=
  { scope with layer := scope.layer.setAll (calls.flatMap Exchange.written) }

variable {scope scope' scope'' : RuntimeScope} {calls calls' : List Exchange}

theorem after_append : scope.after (calls ++ calls') = (scope.after calls).after calls' := by
  rw [after, after, after, List.flatMap_append, Layer.setAll_append]

/-- A call that is none of a step writes nothing. -/
theorem after_singleton {x : Exchange} (h : x.call.step? = none) : scope.after [x] = scope := by
  rw [after, List.flatMap_singleton, Exchange.written_eq_nil h]
  rfl

/-- What becomes of a scope while some calls are made: nothing changes but what they write and how
far the scope is, and containers are addressed by the variables of the scope as they are at that
time. -/
structure Writes (scope : RuntimeScope) (calls : List Exchange) (scope' : RuntimeScope) : Prop where
  changes : scope' = { scope.after calls with status := scope'.status }
  addressed : EachAfter (fun before x => x.call.Addresses (scope.after before).environment) [] calls

namespace Writes

theorem refl (scope : RuntimeScope) : scope.Writes [] scope := ⟨rfl, .nil⟩

theorem trans (h : scope.Writes calls scope') (h' : scope'.Writes calls' scope'') :
    scope.Writes (calls ++ calls') scope'' where
  changes := by
    rw [h'.changes, h.changes, after_append]
    rfl
  addressed := by
    refine h.addressed.append fun front x behind heq => ?_
    have hafter : (scope'.after front).environment = (scope.after (calls ++ front)).environment := by
      rw [h.changes, after_append]
      rfl
    have haddressed := h'.addressed front x behind heq
    rwa [List.nil_append, hafter] at haddressed

theorem of_status (scope : RuntimeScope) (status : ProvisionStatus) :
    scope.Writes [] { scope with status } :=
  ⟨rfl, .nil⟩

theorem of_call {x : Exchange} (hscope : scope' = scope.after [x])
    (haddressed : x.call.Addresses scope.environment) : scope.Writes [x] scope' where
  changes := by rw [hscope]
  addressed := by
    intro front y behind heq
    cases front with
    | nil =>
      cases heq
      exact haddressed
    | cons z front =>
      have hlength := congrArg List.length heq
      simp at hlength

end Writes

end RuntimeScope

namespace Run

variable {client : Client} {run run' : Run}

/-- A move makes one call or none. -/
theorem Move.writes (h : Move client run run') :
    ∃ calls, run'.trace = run.trace ++ calls ∧ run.scope.Writes calls run'.scope := by
  cases h with
  | draws => exact ⟨[], (List.append_nil _).symm, .refl _⟩
  | reports => exact ⟨[], (List.append_nil _).symm, .refl _⟩
  | settles status => exact ⟨[], (List.append_nil _).symm, .of_status _ status⟩
  | prepares scenario =>
    exact ⟨_, rfl, .of_call (RuntimeScope.after_singleton rfl).symm trivial⟩
  | creates subscribed named =>
    exact ⟨_, rfl, .of_call (RuntimeScope.after_singleton rfl).symm ⟨subscribed, named⟩⟩
  | deletes subscribed named =>
    exact ⟨_, rfl, .of_call (RuntimeScope.after_singleton rfl).symm ⟨subscribed, named⟩⟩
  | @steps phase call s asks =>
    refine ⟨[run.exchangeWith client phase call], ?_, .of_call ?_ (Call.addresses_of_step asks)⟩
    · cases phase <;> rfl
    · rw [RuntimeScope.after, List.flatMap_singleton]
      cases phase <;> rfl

/-- **All that a run changes about its scope is what it writes, and how far the scope is.** -/
theorem Moves.writes (h : run.Moves client run') :
    ∃ calls, run'.trace = run.trace ++ calls ∧ run.scope.Writes calls run'.scope := by
  induction h with
  | refl => exact ⟨[], (List.append_nil _).symm, .refl _⟩
  | tail _ move ih =>
    obtain ⟨calls, htrace, hwrites⟩ := ih
    obtain ⟨calls', htrace', hwrites'⟩ := move.writes
    exact ⟨calls ++ calls', by rw [htrace', htrace, List.append_assoc], hwrites.trans hwrites'⟩

/-- What a run writes, by the calls that it makes. -/
theorem writes_perform {options : Options} {scenario : Scenario} {calls : List Exchange}
    (htrace : (perform options client scenario run).2.trace = run.trace ++ calls) :
    run.scope.Writes calls (perform options client scenario run).2.scope := by
  obtain ⟨calls', htrace', hwrites⟩ := (moves_perform options client scenario run).writes
  rwa [List.append_cancel_left (htrace.symm.trans htrace')]

end Run

end Rehearsal
