import Rehearsal.Proofs.Dict
import Rehearsal.Proofs.Environment.Layers
import Rehearsal.Proofs.Run.Footprint
import Rehearsal.Proofs.Variable

/-!
# What becomes of a captured value

A step that completes may capture values from the answer to its call: the part of a response that a
pointer leads to, or an output of a deployment (`Call.Captures`). What a step of a scenario captures
under a name is what the name means to every later step until another step captures something under
it, no matter what anybody declared (`Run.captured_until`). Declarations without a value, a stem or
patches hide nothing (`Layer.get?_vars_within`).

* `Call.Captures`, `Exchange.Sets`: what is captured, and under which names;
* `Environment.Holds`: a name means a captured value.
-/

namespace Rehearsal

/-- A step captures a value from the answer to its call, under a name and for a kind of variable. -/
inductive Call.Captures : (call : Call) → call.Answer → String → VariableKind → Json → Prop
  | send {step : RestCallStep} {request : Request} {env : Environment} {response : Response}
      {name text : String} {output : OutputVariable} {pointer : Pointer} {value : Json}
      (asks : step.header.outputs.get? name = some output)
      (points : output.fromResponse = some text) (parses : Pointer.parse text = some pointer)
      (finds : response.body.partAt? pointer = some value) :
      Captures (.send step request env) response name output.kind value
  | deploy {step : DeploymentStep} {template : Json} {deployment : Deployment} {env : Environment}
      {produced : Dict Json} {name : String} {value : Json}
      (produces : produced.get? name = some value) :
      Captures (.deploy step template deployment env) produced name (Run.outputKind step name) value

/-- A value is captured from an answer that a client gave. -/
def Exchange.Captures (x : Exchange) (name : String) (kind : VariableKind) (value : Json) : Prop :=
  ∃ answer, x.answer = .ok answer ∧ x.call.Captures answer name kind value

/-- Something is captured under a name. -/
def Exchange.Sets (x : Exchange) (name : String) : Prop := ∃ kind value, x.Captures name kind value

/-- The variable of a name is the one that a captured value makes. -/
structure Environment.Holds (env : Environment) (name : String) (kind : VariableKind) (value : Json) :
    Prop where
  get? : env.get? name = some (Variable.ofValue kind value)
  value? : env.value? name = some (kind.held value)

theorem Environment.holds_of_get? {env : Environment} {name : String} {kind : VariableKind}
    {value : Json} (h : env.get? name = some (Variable.ofValue kind value)) :
    env.Holds name kind value where
  get? := h
  value? := by
    rw [Environment.value?, h]
    exact Variable.value?_ofValue kind value

/-! ### The variables of an exchange -/

theorem Call.mem_outputs_iff {call : Call} {answer : call.Answer} {name : String} {v : Variable} :
    (name, v) ∈ call.outputs answer ↔
      ∃ kind value, call.Captures answer name kind value ∧ v = Variable.ofValue kind value := by
  cases call with
  | prepare | createContainer | deleteContainer =>
    constructor
    · intro hmem
      cases hmem
    · rintro ⟨kind, value, hcaptures, -⟩
      cases hcaptures
  | send step request env =>
    simp only [outputs, Run.captured, List.mem_filterMap]
    constructor
    · rintro ⟨⟨other, output⟩, hmem, hsome⟩
      obtain ⟨pointer, hpointer, hsome⟩ := Option.bind_eq_some_iff.1 hsome
      obtain ⟨text, hpoints, hparses⟩ := Option.bind_eq_some_iff.1 hpointer
      obtain ⟨value, hfinds, hsome⟩ := Option.bind_eq_some_iff.1 hsome
      cases hsome
      exact ⟨_, value, .send (Dict.mem_entries_iff.1 hmem) hpoints hparses hfinds, rfl⟩
    · rintro ⟨kind, value, hcaptures, rfl⟩
      cases hcaptures with
      | @send _ _ _ _ _ text output pointer _ asks points parses finds =>
        refine ⟨(name, output), Dict.mem_entries_iff.2 asks, ?_⟩
        simp [points, parses, finds]
  | deploy step template deployment env =>
    simp only [outputs, List.mem_map]
    constructor
    · rintro ⟨⟨other, value⟩, hmem, heq⟩
      cases heq
      exact ⟨_, value, .deploy (Dict.mem_entries_iff.1 hmem), rfl⟩
    · rintro ⟨kind, value, hcaptures, rfl⟩
      cases hcaptures with
      | deploy produces => exact ⟨(name, value), Dict.mem_entries_iff.2 produces, rfl⟩

theorem Call.Captures.unique {call : Call} {answer : call.Answer} {name : String}
    {kind kind' : VariableKind} {value value' : Json} (h : call.Captures answer name kind value)
    (h' : call.Captures answer name kind' value') : kind' = kind ∧ value' = value := by
  cases h with
  | send asks points parses finds =>
    cases h' with
    | send asks' points' parses' finds' =>
      cases asks.symm.trans asks'
      cases points.symm.trans points'
      cases parses.symm.trans parses'
      cases finds.symm.trans finds'
      exact ⟨rfl, rfl⟩
  | deploy produces =>
    cases h' with
    | deploy produces' =>
      cases produces.symm.trans produces'
      exact ⟨rfl, rfl⟩

namespace Layer

variable {name : String} {v : Variable} {entries : List (String × Variable)}

theorem mem_of_latest (h : latest name entries = some v) : (name, v) ∈ entries := by
  obtain ⟨⟨other, w⟩, hmem, hsome⟩ := List.exists_of_findSome?_eq_some h
  split at hsome
  · next heq =>
    cases hsome
    exact heq ▸ List.mem_reverse.1 hmem
  · cases hsome

/-- Where a name has one variable only, that is the last. -/
theorem latest_eq_some (h : (name, v) ∈ entries) (hunique : ∀ w, (name, w) ∈ entries → w = v) :
    latest name entries = some v := by
  cases hlatest : latest name entries with
  | some w => rw [hunique w (mem_of_latest hlatest)]
  | none =>
    have hnone := List.findSome?_eq_none_iff.1 hlatest (name, v) (List.mem_reverse.2 h)
    simp at hnone

end Layer

namespace Exchange

variable {x : Exchange} {name : String} {kind : VariableKind} {value : Json}

theorem mem_outputs_iff {v : Variable} :
    (name, v) ∈ x.outputs ↔
      ∃ kind value, x.Captures name kind value ∧ v = Variable.ofValue kind value := by
  obtain ⟨_, _, _, _, call, answer⟩ := x
  cases answer with
  | error reason =>
    constructor
    · intro hmem
      cases hmem
    · rintro ⟨kind, value, ⟨answer, hanswer, -⟩, -⟩
      cases hanswer
  | ok answer =>
    refine Call.mem_outputs_iff.trans ⟨?_, ?_⟩
    · rintro ⟨kind, value, hcaptures, hv⟩
      exact ⟨kind, value, ⟨answer, rfl, hcaptures⟩, hv⟩
    · rintro ⟨kind, value, ⟨_, hanswer, hcaptures⟩, hv⟩
      cases hanswer
      exact ⟨kind, value, hcaptures, hv⟩

theorem latest_outputs (h : x.Captures name kind value) :
    Layer.latest name x.outputs = some (Variable.ofValue kind value) := by
  refine Layer.latest_eq_some (mem_outputs_iff.2 ⟨kind, value, h, rfl⟩) fun w hw => ?_
  obtain ⟨kind', value', ⟨answer', hanswer', h'⟩, rfl⟩ := mem_outputs_iff.1 hw
  obtain ⟨answer, hanswer, h⟩ := h
  rw [hanswer] at hanswer'
  cases hanswer'
  obtain ⟨rfl, rfl⟩ := h.unique h'
  rfl

/-- Under a name that nothing is captured under, nothing is set. -/
theorem latest_outputs_eq_none (h : ¬ x.Sets name) : Layer.latest name x.outputs = none := by
  refine Layer.latest_eq_none ?_
  rintro ⟨other, v⟩ hmem rfl
  obtain ⟨kind, value, hcaptures, -⟩ := mem_outputs_iff.1 hmem
  exact h ⟨kind, value, hcaptures⟩

end Exchange

namespace Layer

variable {name : String}

theorem latest_flatMap_eq_none {calls : List Exchange} {f : Exchange → List (String × Variable)}
    (h : ∀ x ∈ calls, latest name (f x) = none) : latest name (calls.flatMap f) = none := by
  induction calls with
  | nil => rfl
  | cons x calls ih =>
    rw [List.flatMap_cons, latest_append, h x List.mem_cons_self,
      ih fun y hy => h y (List.mem_cons_of_mem x hy)]
    rfl

/-- What is captured last is the latest. -/
theorem latest_flatMap {front later : List Exchange} {x : Exchange} {v : Variable}
    {f : Exchange → List (String × Variable)} (hx : latest name (f x) = some v)
    (hlater : ∀ y ∈ later, latest name (f y) = none) :
    latest name ((front ++ x :: later).flatMap f) = some v := by
  rw [List.flatMap_append, List.flatMap_cons, latest_append, latest_append,
    latest_flatMap_eq_none hlater, hx]
  rfl

/-- A declaration that only says that somebody outside supplies the variable hides nothing. -/
theorem get?_vars_within {env : Environment} {scope : Declarations} {layer : Layer}
    (h : Layer.within env scope = .ok layer)
    (hexternal : ∀ v, scope.get? name = some v → isExternal v = true) (g : Suffixes) :
    (layer.materialize g).1.vars.get? name = none := by
  -- Patches are pending only for declarations that nobody outside fulfils.
  have hlayer : layer.vars.get? name = none := by
    rcases applyPatches_spec h name with ⟨v, patches, value, hv, hpending, -⟩ | ⟨-, hkept⟩
    · have hnot := (Variable.of_pendingPatches hpending).2.1
      rw [hexternal v hv] at hnot
      cases hnot
    · rw [hkept, get?_declare_empty, Option.filter_eq_none_iff]
      intro v hv
      simp [hexternal v hv]
  have hmap := map_hasValue_materialize layer g name
  rw [hlayer] at hmap
  exact Option.map_eq_none_iff.1 hmap

end Layer

/-- A name means what it means outside, where nothing is bound to it. -/
theorem Environment.get?_child_of_none {env : Environment} {layer : Layer} {name : String}
    (h : layer.vars.get? name = none) : (env.child layer).get? name = env.get? name := by
  rw [get?, child, layers, List.findSome?_cons, h]
  rfl

namespace Run

open Runs

variable {options : Options} {client : Client} {s s' : Step} {run run' before before' after : Run}
  {rest : List Step} {calls : List Exchange} {name : String} {kind : VariableKind} {value : Json}

theorem latest_kept {x : Exchange} (hphase : x.phase = .scenario) : x.kept = x.outputs := by
  rw [Exchange.kept, hphase]

/-- What a scenario has captured last is what it has. -/
theorem Wrote.holds {front later : List Exchange} {x : Exchange}
    (h : run.Wrote (front ++ x :: later) run') (hphase : x.phase = .scenario)
    (hcaptures : x.Captures name kind value)
    (huntil : ∀ y ∈ later, y.phase = .scenario → ¬ y.Sets name) :
    (run'.environment .scenario).Holds name kind value := by
  refine Environment.holds_of_get? ?_
  rw [h.get?_scenario, Layer.latest_flatMap (v := Variable.ofValue kind value)]
  · rfl
  · rw [latest_kept hphase]
    exact Exchange.latest_outputs hcaptures
  · intro y hy
    rw [Exchange.kept]
    cases hy' : y.phase with
    | scenario => exact Exchange.latest_outputs_eq_none (huntil y hy hy')
    | prepare => rfl
    | cleanup => rfl

/-- A step that completes has made its call, and the client accepted it. -/
theorem exists_exchange_of_step {phase : Phase}
    (h : step options client phase s before = (.ok (), after)) :
    ∃ x, after.trace = before.trace ++ [x] ∧ x.call.step? = some s ∧ x.phase = phase := by
  obtain ⟨calls, report, hadvances, hran⟩ := ran_step options client phase s before
  rw [h] at hadvances hran
  rcases hran.calls with ⟨-, hfalse⟩ | ⟨x, rfl, hstage, hstep, -⟩
  · cases hfalse
  · exact ⟨x, hadvances.trace, hstep, congrArg Stage.phase hstage⟩

/-- **What a step of a scenario captures stays until another captures something under the same
name.** -/
theorem captured_until (completes : step options client .scenario s before = (.ok (), after)) :
    ∃ x, after.trace = before.trace ++ [x] ∧ x.call.step? = some s ∧
      ∀ name kind value, x.Captures name kind value →
        ∀ rest s' before' calls, GetsTo options client .scenario s' before' rest after →
          before'.trace = after.trace ++ calls → (∀ y ∈ calls, ¬ y.Sets name) →
            (before'.environment .scenario).Holds name kind value := by
  obtain ⟨x, htrace, hstep, hphase⟩ := exists_exchange_of_step completes
  refine ⟨x, htrace, hstep, ?_⟩
  intro name kind value hcaptures rest s' before' calls gets htrace' huntil
  have hwrote : before.Wrote ([] ++ x :: calls) before' :=
    ((moves_of_step completes).wrote_of_trace htrace).trans (gets.moves.wrote_of_trace htrace')
  exact hwrote.holds hphase hcaptures fun y hy _ => huntil y hy

end Run

end Rehearsal
