import Rehearsal.Proofs.Run.Capture
import Rehearsal.Proofs.Session.Disclosure
import Rehearsal.Proofs.Session.Isolation

/-!
# What later steps and scenarios have of a captured value

Steps of a scenario write to its variables, and steps that prepare a scope write to those of the
scope. So what the latter capture is what every scenario of the scope starts with, until such a step
captures something else or the scenario binds the name itself; and what the former capture is what
the later steps of the scenario find, whatever is declared (`Session.Reached.holds_captured`). It is
the captured value unless that is no text and is captured as a secret text: then it is the text of
the value (`Session.not_forall_holds_value`).
-/

namespace Rehearsal

namespace Run

open Runs

variable {options : Options} {client : Client} {scenario : Scenario} {phase : Phase} {s : Step}
  {run mid after : Run} {env : Environment} {name : String} {kind : VariableKind} {value : Json}

/-- When a scenario starts: before the client is asked to get ready for it, or before its first
step. -/
inductive Starts (options : Options) (client : Client) (scenario : Scenario) (run : Run) : Run → Prop
  | asked : Starts options client scenario run run
  | stepping {start : Run}
      (ready : client.answer run.trace (.prepare scenario (run.environment .scenario)) = .ok ())
      (begins : Begins options client scenario (run.exchanged (run.readiness scenario (.ok ())))
        .scenario scenario.steps start) :
      Starts options client scenario run start

/-- Nothing is written to the variables of a scenario before it starts. -/
theorem Starts.wrote (h : Starts options client scenario run mid) :
    ∃ calls, run.Wrote calls mid ∧ calls.flatMap Exchange.kept = [] := by
  cases h with
  | asked => exact ⟨[], .refl run, rfl⟩
  | stepping ready begins =>
    have hasked : run.Moves client (run.exchanged (run.readiness scenario (.ok ()))) := by
      have hmove : Move client run _ := .prepares run scenario
      rw [exchangeWith, ready] at hmove
      exact .of_move hmove
    have hmoves := hasked.trans begins.moves
    cases begins with
    | scenario provisions =>
      obtain ⟨calls, reports, status, hadvances, hprovisioning⟩ := provisioning_provision options
        client (run.exchanged (run.readiness scenario (.ok ())))
      rw [provisions] at hadvances
      have htrace : mid.trace = run.trace ++ (run.readiness scenario (.ok ()) :: calls) := by
        rw [hadvances.trace]
        exact List.append_assoc _ [_] calls
      refine ⟨_, hmoves.wrote_of_trace htrace, List.flatMap_eq_nil_iff.2 fun x hx => ?_⟩
      rcases List.mem_cons.1 hx with rfl | hx
      · exact Exchange.kept_eq_nil rfl
      · have hphase : x.phase = .prepare := congrArg Stage.phase (hprovisioning.of_mem hx).1
        rw [Exchange.kept, hphase]

/-- A step that declares a name at most without a value sees what its phase has of it. -/
theorem holds_stepEnvironment
    (builds : stepEnvironment { options with resolveVariables := false } phase s run =
      (.ok env, after))
    (hexternal : ∀ v, s.header.vars.get? name = some v → Layer.isExternal v = true)
    (h : (run.environment phase).Holds name kind value) : env.Holds name kind value := by
  obtain ⟨layer, hlayer, rfl⟩ := stepEnvironment_eq_ok builds
  refine Environment.holds_of_get? ?_
  rw [Environment.get?_child_of_none (Layer.get?_vars_within hlayer hexternal run.suffixes)]
  exact h.get?

end Run

namespace Session

variable {session opened : Session} {client : Client} {definition : Definition}
  {scenario : Scenario} {caller : Environment} {scope : RuntimeScope} {run : Run}
  {reports : List ScenarioReport}

theorem Reached.holds_prepared (h : Reached client session reports)
    (opens : session.openScope definition scenario caller = (.ok scope, opened))
    (starts : opened.start scenario scope = .ok run) {options : Options} {mid : Run}
    (hmid : Run.Starts options client scenario run mid) {front later : List Exchange} {x : Exchange}
    (hcalls : callsOn scope.name mid.trace = front ++ x :: later) (hphase : x.phase = .prepare)
    {name : String} {kind : VariableKind} {value : Json} (hcaptures : x.Captures name kind value)
    (huntil : ∀ y ∈ later, y.phase ≠ .scenario → ¬ y.Sets name)
    (hexternal : ∀ v, scenario.vars.get? name = some v → Layer.isExternal v = true) :
    (mid.environment .scenario).Holds name kind value := by
  have hopens := opens_openScope opens
  obtain ⟨-, -, hscope, htrace, -⟩ := start_eq_ok starts
  obtain ⟨calls, hwrote, hkept⟩ := hmid.wrote
  obtain ⟨definition', caller', g, g', initial, -, hwrites⟩ :=
    (h.maintained_of_opens hopens).built
  -- All that was written to the scope since it was built.
  have hall : initial.Writes (front ++ x :: later) mid.scope := by
    rw [← hcalls, hwrote.trace, htrace, hopens.trace, callsOn_append,
      callsOn_eq_self fun y hy => (hwrote.own y hy).trans (congrArg RuntimeScope.name hscope)]
    exact hwrites.trans (hscope ▸ hwrote.scope)
  have hlatest : Layer.latest name ((front ++ x :: later).flatMap Exchange.written) =
      some (Variable.ofValue kind value) := by
    refine Layer.latest_flatMap ?_ fun y hy => ?_
    · rw [Exchange.written, hphase]
      exact Exchange.latest_outputs hcaptures
    · rw [Exchange.written]
      cases hy' : y.phase with
      | scenario => rfl
      | prepare => exact Exchange.latest_outputs_eq_none (huntil y hy (by rw [hy']; decide))
      | cleanup => exact Exchange.latest_outputs_eq_none (huntil y hy (by rw [hy']; decide))
  have hlayer : run.layer.vars.get? name = none := by
    obtain ⟨layer, hwithin, henv⟩ := environment_start starts
    have hrun : run.layer = (layer.materialize opened.suffixes).1 :=
      congrArg Environment.inner henv
    rw [hrun]
    exact Layer.get?_vars_within hwithin hexternal opened.suffixes
  refine Environment.holds_of_get? ?_
  rw [hwrote.get?_scenario, hkept, hlayer, hall.get?_environment, hlatest]
  rfl

/-- **No captured value is lost.** What a step of a scenario captures under a name is what the name
means to every later step of the scenario, until another step captures something under it; a step
that declares the name without a value, a stem or patches finds it as well. What a step that prepares
the scope captures is what every scenario of the scope starts with, until another step that prepares
the scope or cleans it up captures something under the name, unless the scenario declares the name
with a value, a stem or patches. -/
theorem Reached.holds_captured (h : Reached client session reports)
    (opens : session.openScope definition scenario caller = (.ok scope, opened))
    (starts : opened.start scenario scope = .ok run) :
    (∀ options s before after,
      Run.step options client .scenario s before = (.ok (), after) →
      ∃ x, after.trace = before.trace ++ [x] ∧ x.call.step? = some s ∧
        ∀ name kind value, x.Captures name kind value →
          ∀ rest s' before' calls, Run.GetsTo options client .scenario s' before' rest after →
            before'.trace = after.trace ++ calls → (∀ y ∈ calls, ¬ y.Sets name) →
              (before'.environment .scenario).Holds name kind value ∧
                ∀ env ready,
                  Run.stepEnvironment { options with resolveVariables := false } .scenario s'
                    before' = (.ok env, ready) →
                  (∀ v, s'.header.vars.get? name = some v → Layer.isExternal v = true) →
                    env.Holds name kind value) ∧
    ∀ options mid, Run.Starts options client scenario run mid →
      ∀ front x later, callsOn scope.name mid.trace = front ++ x :: later → x.phase = .prepare →
        ∀ name kind value, x.Captures name kind value →
          (∀ y ∈ later, y.phase ≠ .scenario → ¬ y.Sets name) →
          (∀ v, scenario.vars.get? name = some v → Layer.isExternal v = true) →
            (mid.environment .scenario).Holds name kind value := by
  constructor
  · intro options s before after completes
    obtain ⟨x, htrace, hstep, hholds⟩ := Run.captured_until completes
    refine ⟨x, htrace, hstep, ?_⟩
    intro name kind value hcaptures rest s' before' calls gets htrace' huntil
    have hscenario := hholds name kind value hcaptures rest s' before' calls gets htrace' huntil
    refine ⟨hscenario, fun env ready builds hexternal => ?_⟩
    exact Run.holds_stepEnvironment builds hexternal hscenario
  · intro options mid hmid front x later hcalls hphase name kind value hcaptures huntil hexternal
    exact h.holds_prepared opens starts hmid hcalls hphase hcaptures huntil hexternal

/-! ### Outputs of deployments -/

/-- Whether a deployment brings a number under a name. -/
def bringsInt (x : Exchange) (name : String) (n : Int) : Bool :=
  match x with
  | { call := .deploy .., answer := .ok produced, .. } => (produced.get? name).any (·.same (.int n))
  | _ => false

theorem captures_of_bringsInt {x : Exchange} {name : String} {n : Int}
    (h : bringsInt x name n = true) : ∃ kind, x.Captures name kind (.int n) := by
  unfold bringsInt at h
  split at h
  · obtain ⟨value, hvalue, hsame⟩ := (Option.any_eq_true _ _).1 h
    cases value with
    | int m =>
      rw [Json.same, beq_iff_eq] at hsame
      subst hsame
      exact ⟨_, _, rfl, .deploy hvalue⟩
    | null | bool | float | str | arr | obj => cases hsame
  · cases h

/-- A step that deploys something with a secret text as its output. -/
def deployingSecret : Step :=
  .deployment
    { header := { name := "b" }
      template := { outputs := Dict.ofList [("b", { typeName := "secureString" })] }
      sourceFile := "t" }

/-- A scenario with this step and another behind it. -/
def deployingTwice : Scenario where
  position := 0
  name := "s"
  steps := [deployingSecret, deployingAs "c"]

/-- A run of this scenario as it is before its first step and before its second. The deployment that
prepares the scope and the first one of the scenario have brought numbers, but the second number is
held as a text. -/
structure DeployedTwice (scope : RuntimeScope) (opened : Session) (run start second : Run) : Prop where
  opens : fresh.openScope deployingFirst deployingTwice supplied = (.ok scope, opened)
  starts : opened.start deployingTwice scope = .ok run
  stepping : Run.Starts {} answering deployingTwice run start
  completes : Run.step {} answering .scenario deployingSecret start = (.ok (), second)
  prepared : ∃ front x, callsOn scope.name start.trace = front ++ [x] ∧ x.phase = .prepare ∧
    bringsInt x "a" 5 = true
  deployed : ∃ x, second.trace = start.trace ++ [x] ∧ bringsInt x "b" 5 = true
  held : ∃ text, (second.environment .scenario).value? "b" = some (.str text)

theorem exists_deployedTwice : ∃ scope opened run start second,
    DeployedTwice scope opened run start second := by
  have hcheck : okAnd (fresh.openScope deployingFirst deployingTwice supplied) (fun scope opened =>
      (opened.start deployingTwice scope).toOption.any fun run =>
        okAnd (Run.provision {} answering (run.exchanged (run.readiness deployingTwice (.ok ()))))
          fun _ start =>
            okAnd (Run.step {} answering .scenario deployingSecret start) fun _ second =>
              (callsOn scope.name start.trace).getLast?.any
                  (fun x => x.phase == .prepare && bringsInt x "a" 5) &&
                second.trace.getLast?.any (bringsInt · "b" 5) &&
                  ((second.environment .scenario).value? "b").any fun value => value.str?.isSome) =
        true := by
    decide +kernel
  obtain ⟨scope, opened, opens, hstart⟩ := exists_of_okAnd hcheck
  obtain ⟨run, starts, hrun⟩ := exists_ok_of_any hstart
  obtain ⟨_, start, provisions, hprovisioned⟩ := exists_of_okAnd hrun
  obtain ⟨_, second, completes, hsecond⟩ := exists_of_okAnd hprovisioned
  rw [Bool.and_eq_true, Bool.and_eq_true, Option.any_eq_true, Option.any_eq_true,
    Option.any_eq_true] at hsecond
  obtain ⟨⟨⟨x, hlast, hx⟩, y, hlast', hy⟩, value, hvalue, htext⟩ := hsecond
  rw [Bool.and_eq_true, beq_iff_eq] at hx
  obtain ⟨front, hfront⟩ := List.getLast?_eq_some_iff.1 hlast
  obtain ⟨z, htrace, -, -⟩ := Run.exists_exchange_of_step completes
  rw [htrace, List.getLast?_concat] at hlast'
  cases hlast'
  refine ⟨scope, opened, run, start, second, opens, starts, .stepping rfl (.scenario provisions),
    completes, ⟨front, x, hfront, hx⟩, ⟨y, htrace, hy⟩, ?_⟩
  cases value with
  | str text => exact ⟨text, hvalue⟩
  | null | bool | int | float | arr | obj => cases htext

/-- The scenario starts with what the deployment before it brought, and has what its first step
brought before its second step. -/
theorem holds_captured_deployingTwice : ∃ scope opened run start second,
    DeployedTwice scope opened run start second ∧
      (∃ kind, (start.environment .scenario).Holds "a" kind (.int 5)) ∧
        ∃ kind, (second.environment .scenario).Holds "b" kind (.int 5) := by
  obtain ⟨scope, opened, run, start, second, htwice⟩ := exists_deployedTwice
  have hnew : Reached answering fresh [] := .new {} ⟨[], 0⟩
  obtain ⟨hsteps, hstarts⟩ := Reached.holds_captured hnew htwice.opens htwice.starts
  refine ⟨scope, opened, run, start, second, htwice, ?_, ?_⟩
  · obtain ⟨front, x, hcalls, hphase, hbrings⟩ := htwice.prepared
    obtain ⟨kind, hcaptures⟩ := captures_of_bringsInt hbrings
    exact ⟨kind, hstarts {} start htwice.stepping front x [] hcalls hphase "a" kind (.int 5)
      hcaptures (fun y hy => absurd hy List.not_mem_nil) fun v hv => nomatch hv⟩
  · obtain ⟨x, htrace, hbrings⟩ := htwice.deployed
    obtain ⟨kind, hcaptures⟩ := captures_of_bringsInt hbrings
    obtain ⟨y, htrace', -, hholds⟩ := hsteps {} deployingSecret start second htwice.completes
    cases List.append_cancel_left (htrace.symm.trans htrace')
    exact ⟨kind, (hholds "b" kind (.int 5) hcaptures [deployingAs "c"] _ second [] .now
      (List.append_nil _).symm fun y hy => absurd hy List.not_mem_nil).1⟩

/-- What is captured is a number, and what the next step finds is a text. -/
theorem not_forall_holds_value :
    ¬ ∀ (client : Client) (session opened : Session) (reports : List ScenarioReport)
      (definition : Definition) (scenario : Scenario) (caller : Environment) (scope : RuntimeScope)
      (run start : Run), Reached client session reports →
      session.openScope definition scenario caller = (.ok scope, opened) →
      opened.start scenario scope = .ok run →
      Run.Starts opened.options client scenario run start →
      ∀ s s' rest after x, scenario.steps = s :: s' :: rest →
        Run.step opened.options client .scenario s start = (.ok (), after) →
        after.trace = start.trace ++ [x] →
        ∀ name kind value, x.Captures name kind value →
          (after.environment .scenario).value? name = some value := by
  intro hall
  obtain ⟨scope, opened, run, start, second, htwice⟩ := exists_deployedTwice
  obtain ⟨x, htrace, hbrings⟩ := htwice.deployed
  obtain ⟨kind, hcaptures⟩ := captures_of_bringsInt hbrings
  obtain ⟨text, htext⟩ := htwice.held
  have hoptions : opened.options = {} := (opens_openScope htwice.opens).options
  have hvalue := hall answering fresh opened [] deployingFirst deployingTwice supplied scope run start
    (.new {} ⟨[], 0⟩) htwice.opens htwice.starts (hoptions ▸ htwice.stepping) deployingSecret
    (deployingAs "c") [] second x rfl (hoptions ▸ htwice.completes) htrace "b" kind (.int 5) hcaptures
  rw [htext] at hvalue
  cases hvalue

end Session

end Rehearsal
