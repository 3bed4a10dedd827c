import Mathlib.Logic.Relation
import Rehearsal.Proofs.Run.Course

/-!
# How a run provisions its scope

A run leaves the provisioning of its scope as it is, or it settles what was not settled
(`Course.unchanged_or_settles`); the status of the scope only moves on (`Course.leads`), and in a
scope that could not be provisioned a run comes to nothing (`Course.of_failed`).

* `ProvisionStatus.Leads`: the order in which statuses follow one another;
* `creations`, `preparing`, `prepared`: what calls and reports say about provisioning;
* `Aside`: calls that have nothing to do with it.
-/

namespace Rehearsal

namespace ProvisionStatus

/-- How a status changes. -/
inductive Moves : ProvisionStatus → ProvisionStatus → Prop
  | begin : Moves .unprovisioned .provisioning
  | succeed : Moves .provisioning .provisioned
  | fail (message : String) : Moves .provisioning (.failed message)

/-- One status comes before another or is the same. -/
def Leads : ProvisionStatus → ProvisionStatus → Prop := Relation.ReflTransGen Moves

theorem Leads.refl (status : ProvisionStatus) : Leads status status := Relation.ReflTransGen.refl

theorem Leads.of_provisioning {status : ProvisionStatus} (h : status.isSettled = true) :
    Leads .provisioning status := by
  cases status with
  | unprovisioned => cases h
  | provisioning => cases h
  | provisioned => exact .single .succeed
  | failed message => exact .single (.fail message)

/-- Every status can come about. -/
theorem Leads.of_unprovisioned (status : ProvisionStatus) : Leads .unprovisioned status := by
  cases status with
  | unprovisioned => exact .refl _
  | provisioning => exact .single .begin
  | provisioned => exact .tail (.single .begin) .succeed
  | failed message => exact .tail (.single .begin) (.fail message)

theorem Leads.to_provisioning {status : ProvisionStatus} (h : status.isSettled = false) :
    Leads status .provisioning := by
  cases status with
  | unprovisioned => exact .single .begin
  | provisioning => exact .refl _
  | provisioned => cases h
  | failed message => cases h

theorem Leads.trans {status status' status'' : ProvisionStatus} (h : Leads status status')
    (h' : Leads status' status'') : Leads status status'' :=
  Relation.ReflTransGen.trans h h'

/-- A settled status is left for no other. -/
theorem Leads.eq_of_isSettled {status status' : ProvisionStatus} (h : Leads status status')
    (hsettled : status.isSettled = true) : status' = status := by
  induction h with
  | refl => rfl
  | tail _ hmove ih =>
    subst ih
    cases hmove <;> cases hsettled

end ProvisionStatus

/-- How often a container is asked for. -/
def creations (calls : List Exchange) : Nat := calls.countP fun x => x.call.isCreation

/-- The steps for which calls were made to prepare a scope. -/
def preparing (calls : List Exchange) : List Step :=
  (calls.filter fun x => x.phase == .prepare).filterMap fun x => x.call.step?

/-- The names of the steps that ran to prepare a scope. -/
def prepared (reports : List StepReport) : List String :=
  (reports.filter fun r => r.phase == .prepare).map fun r => r.name

section parts

variable {calls calls' : List Exchange} {reports reports' : List StepReport}

theorem creations_append : creations (calls ++ calls') = creations calls + creations calls' :=
  List.countP_append

theorem preparing_append : preparing (calls ++ calls') = preparing calls ++ preparing calls' := by
  rw [preparing, List.filter_append, List.filterMap_append]
  rfl

theorem prepared_append :
    prepared (reports ++ reports') = prepared reports ++ prepared reports' := by
  rw [prepared, List.filter_append, List.map_append]
  rfl

theorem prepared_eq_nil (h : ∀ r ∈ reports, r.phase ≠ .prepare) : prepared reports = [] := by
  rw [prepared, List.filter_eq_nil_iff.2 fun r hr => by simpa using h r hr]
  rfl

theorem creations_eq_zero (h : ∀ x ∈ calls, x.call.isCreation = false) : creations calls = 0 :=
  List.countP_eq_zero.2 fun x hx => by simp [h x hx]

/-- Calls that have nothing to do with the provisioning of a scope. -/
def Aside (calls : List Exchange) : Prop :=
  ∀ x ∈ calls, x.phase ≠ .prepare ∧ x.call.isCreation = false

theorem Aside.creations_eq_zero (h : Aside calls) : creations calls = 0 :=
  Rehearsal.creations_eq_zero fun x hx => (h x hx).2

theorem Aside.preparing_eq_nil (h : Aside calls) : preparing calls = [] := by
  rw [preparing, List.filter_eq_nil_iff.2 fun x hx => by simpa using (h x hx).1]
  rfl

/-- A status that stays does not move back. -/
theorem pairwise_leads {status : ProvisionStatus} (h : ∀ x ∈ calls, x.status = status) :
    calls.Pairwise fun x y => x.status.Leads y.status := by
  refine List.pairwise_of_forall_mem_list fun x hx y hy => ?_
  rw [h x hx, h y hy]
  exact .refl status

end parts

section course

variable {scenario : String} {stage : Stage} {kind : ScopeKind} {scope : RuntimeScope}
  {steps left : List Step} {calls : List Exchange} {reports : List StepReport}
  {status : ProvisionStatus} {result result' : Except RunError Unit}

theorem InTurn.creations_eq_zero (h : InTurn scenario stage steps calls reports left result) :
    creations calls = 0 := by
  refine Rehearsal.creations_eq_zero fun x hx => ?_
  obtain ⟨-, s, -, hs⟩ := h.of_mem hx
  exact Call.isCreation_of_step hs

/-- The steps of a stage that prepare a scope. -/
theorem InTurn.preparing_sublist (h : InTurn scenario stage steps calls reports left result) :
    (preparing calls).Sublist steps :=
  (List.filter_sublist.filterMap _).trans h.steps_sublist

theorem InTurn.prepared_prefix (h : InTurn scenario stage steps calls reports left result)
    (hphase : stage.phase = .prepare) : prepared reports <+: steps.map Step.name := by
  have hall : reports.filter (fun r => r.phase == .prepare) = reports :=
    List.filter_eq_self.2 fun r hr => by simp [h.phase_eq hr, hphase]
  rw [prepared, hall, h.names_eq]
  exact List.prefix_append _ _

theorem OneCall.creations_le {purpose : Call → Prop} {ok : Bool}
    (h : OneCall stage purpose ok calls) : creations calls ≤ 1 := by
  rcases h with ⟨rfl, -⟩ | ⟨x, rfl, -⟩
  · exact Nat.zero_le 1
  · exact List.countP_le_length

theorem OneCall.preparing_eq_nil {ok : Bool} (h : OneCall stage (·.isCreation = true) ok calls) :
    preparing calls = [] := by
  rw [preparing, List.filterMap_eq_nil_iff]
  intro x hx
  exact Call.step?_of_creation (h.of_mem (List.mem_filter.1 hx).1).2

theorem Readying.once (h : Readying scenario stage kind steps calls reports result)
    (hphase : stage.phase = .prepare) :
    creations calls ≤ 1 ∧ (preparing calls).Sublist steps ∧
      prepared reports <+: steps.map Step.name := by
  cases h with
  | uncreated _ creation =>
    rw [creation.preparing_eq_nil]
    exact ⟨creation.creations_le, List.nil_sublist steps, List.nil_prefix⟩
  | created _ creation inTurn =>
    rw [creations_append, preparing_append, creation.preparing_eq_nil, inTurn.creations_eq_zero]
    exact ⟨creation.creations_le, inTurn.preparing_sublist, inTurn.prepared_prefix hphase⟩
  | uncontained _ inTurn =>
    rw [inTurn.creations_eq_zero]
    exact ⟨Nat.zero_le 1, inTurn.preparing_sublist, inTurn.prepared_prefix hphase⟩

theorem Provisioning.once
    (h : Provisioning scenario stage scope calls reports status result)
    (hphase : stage.phase = .prepare) :
    creations calls ≤ 1 ∧ (preparing calls).Sublist scope.prepareSteps ∧
      prepared reports <+: scope.prepareSteps.map Step.name := by
  cases h with
  | ready => exact ⟨Nat.zero_le 1, List.nil_sublist _, List.nil_prefix⟩
  | barred => exact ⟨Nat.zero_le 1, List.nil_sublist _, List.nil_prefix⟩
  | succeeded _ readying => exact readying.once hphase
  | failed _ readying => exact readying.once hphase

theorem Provisioning.isSettled (h : Provisioning scenario stage scope calls reports status result) :
    status.isSettled = true := by
  cases h <;> rfl

/-- Nothing is done about a scope that is settled. -/
theorem Provisioning.of_settled
    (h : Provisioning scenario stage scope calls reports status result)
    (hsettled : scope.status.isSettled = true) :
    calls = [] ∧ reports = [] ∧ status = scope.status := by
  cases h with
  | ready hstatus => exact ⟨rfl, rfl, hstatus.symm⟩
  | barred hstatus => exact ⟨rfl, rfl, hstatus.symm⟩
  | succeeded hstatus => rw [hstatus] at hsettled; cases hsettled
  | failed hstatus => rw [hstatus] at hsettled; cases hsettled

theorem Provisioning.leads_status
    (h : Provisioning scenario stage scope calls reports status result) :
    scope.status.Leads status := by
  cases hsettled : scope.status.isSettled with
  | true =>
    rw [(h.of_settled hsettled).2.2]
    exact .refl _
  | false =>
    exact (ProvisionStatus.Leads.to_provisioning hsettled).trans (.of_provisioning h.isSettled)

theorem Provisioning.leads (h : Provisioning scenario stage scope calls reports status result)
    {x : Exchange} (hx : x ∈ calls) : scope.status.Leads x.status ∧ x.status.Leads status := by
  have hstatus : x.status = .provisioning := congrArg Stage.status (h.of_mem hx).1
  rw [hstatus]
  refine ⟨.to_provisioning ?_, .of_provisioning h.isSettled⟩
  cases hsettled : scope.status.isSettled with
  | true =>
    rw [(h.of_settled hsettled).1] at hx
    cases hx
  | false => rfl

theorem phase_of_mem_skipped {phase : Phase} {message : String} {r : StepReport}
    (h : r ∈ skipped phase message steps) : r.phase = phase ∧ r.status = .skipped := by
  obtain ⟨s, -, rfl⟩ := List.mem_map.1 h
  exact ⟨rfl, rfl⟩

theorem Working.aside (h : Working scenario stage steps result calls reports result')
    (hphase : stage.phase = .scenario) : Aside calls := by
  intro x hx
  obtain ⟨rfl, s, -, hs⟩ := h.of_mem hx
  change x.phase = .scenario at hphase
  exact ⟨by rw [hphase]; decide, Call.isCreation_of_step hs⟩

theorem Cleaning.aside {options : Options}
    (h : Cleaning options scenario stage kind steps calls reports result)
    (hphase : stage.phase = .cleanup) : Aside calls := by
  intro x hx
  obtain ⟨rfl, hcall⟩ := h.of_mem hx
  change x.phase = .cleanup at hphase
  refine ⟨by rw [hphase]; decide, ?_⟩
  rcases hcall with hdeletes | ⟨s, -, hs⟩
  · exact Call.isCreation_of_deletion hdeletes
  · exact Call.isCreation_of_step hs

theorem Readying.phase_eq (h : Readying scenario stage kind steps calls reports result)
    (hphase : stage.phase = .prepare) {r : StepReport} (hr : r ∈ reports) : r.phase = .prepare := by
  cases h with
  | uncreated => cases hr
  | created _ _ inTurn => rw [inTurn.phase_eq hr, hphase]
  | uncontained _ inTurn => rw [inTurn.phase_eq hr, hphase]

theorem Provisioning.phase_eq
    (h : Provisioning scenario stage scope calls reports status result)
    (hphase : stage.phase = .prepare) {r : StepReport} (hr : r ∈ reports) : r.phase = .prepare := by
  cases h with
  | ready => cases hr
  | barred => cases hr
  | succeeded _ readying => exact readying.phase_eq hphase hr
  | failed _ readying => exact readying.phase_eq hphase hr

theorem Working.phase_eq (h : Working scenario stage steps result calls reports result')
    (hphase : stage.phase = .scenario) {r : StepReport} (hr : r ∈ reports) :
    r.phase = .scenario := by
  cases h with
  | ran inTurn =>
    rcases List.mem_append.1 hr with hr | hr
    · rw [inTurn.phase_eq hr, hphase]
    · exact (phase_of_mem_skipped hr).1
  | barred => exact (phase_of_mem_skipped hr).1

theorem Cleaning.phase_eq {options : Options}
    (h : Cleaning options scenario stage kind steps calls reports result)
    (hphase : stage.phase = .cleanup) {r : StepReport} (hr : r ∈ reports) : r.phase = .cleanup := by
  cases h with
  | disabled => exact (phase_of_mem_skipped hr).1
  | failed _ inTurn => rw [inTurn.phase_eq hr, hphase]
  | emptied _ inTurn => rw [inTurn.phase_eq hr, hphase]
  | uncontained _ inTurn => rw [inTurn.phase_eq hr, hphase]

end course

namespace Course

variable {options : Options} {scenario : Scenario} {run : Run} {calls : List Exchange}
  {reports : List StepReport} {status : ProvisionStatus} {result : Except RunError Unit}

theorem readiness_aside (run : Run) (scenario : Scenario) (answer : Except String Unit) :
    Aside [run.readiness scenario answer] := by
  intro x hx
  rw [List.mem_singleton.1 hx]
  exact ⟨nofun, rfl⟩

/-- What a run does about the provisioning of its scope: nothing if the client does not get ready,
and otherwise all in one part of its course. -/
theorem provisioning_cases (h : Course options scenario run calls reports status result) :
    (creations calls = 0 ∧ preparing calls = [] ∧ prepared reports = [] ∧
        status = run.scope.status) ∨
      ∃ calls' reports' result',
        Provisioning run.scenario (run.stage .prepare) run.scope calls' reports' status result' ∧
          creations calls = creations calls' ∧ preparing calls = preparing calls' ∧
            prepared reports = prepared reports' := by
  cases h with
  | @unready reason =>
    have haside := readiness_aside run scenario (.error reason)
    exact .inl ⟨haside.creations_eq_zero, haside.preparing_eq_nil, rfl, rfl⟩
  | performed provisioning working cleaning =>
    -- Getting ready, the steps of the scenario and the cleanup are aside.
    refine .inr ⟨_, _, _, provisioning, ?_, ?_, ?_⟩
    · rw [← List.singleton_append]
      simp only [creations_append, (readiness_aside run scenario (.ok ())).creations_eq_zero,
        (working.aside rfl).creations_eq_zero, (cleaning.aside rfl).creations_eq_zero]
      omega
    · rw [← List.singleton_append]
      simp only [preparing_append, (readiness_aside run scenario (.ok ())).preparing_eq_nil,
        (working.aside rfl).preparing_eq_nil, (cleaning.aside rfl).preparing_eq_nil,
        List.nil_append, List.append_nil]
    · have hworking := prepared_eq_nil fun r hr heq => by
        rw [working.phase_eq rfl hr] at heq
        cases heq
      have hcleaning := prepared_eq_nil fun r hr heq => by
        rw [cleaning.phase_eq rfl hr] at heq
        cases heq
      rw [prepared_append, prepared_append, hworking, hcleaning, List.append_nil, List.append_nil]

/-- A run leaves the provisioning of its scope as it is, or it settles what was not settled. -/
theorem unchanged_or_settles (h : Course options scenario run calls reports status result) :
    (creations calls = 0 ∧ preparing calls = [] ∧ prepared reports = [] ∧
        status = run.scope.status) ∨
      (run.scope.status.isSettled = false ∧ status.isSettled = true ∧ creations calls ≤ 1 ∧
        (preparing calls).Sublist run.scope.prepareSteps ∧
          prepared reports <+: run.scope.prepareSteps.map Step.name) := by
  rcases h.provisioning_cases with hnone | ⟨_, _, _, h, hcreations, hpreparing, hprepared⟩
  · exact .inl hnone
  · rw [hcreations, hpreparing, hprepared]
    cases hsettled : run.scope.status.isSettled with
    | true =>
      obtain ⟨rfl, rfl, hstatus⟩ := h.of_settled hsettled
      exact .inl ⟨rfl, rfl, rfl, hstatus⟩
    | false => exact .inr ⟨rfl, h.isSettled, h.once rfl⟩

theorem leads_status (h : Course options scenario run calls reports status result) :
    run.scope.status.Leads status := by
  cases h with
  | unready => exact .refl _
  | performed provisioning => exact provisioning.leads_status

/-- During a run the status only moves. -/
theorem leads (h : Course options scenario run calls reports status result) :
    (calls.map (·.status)).Pairwise ProvisionStatus.Leads ∧
      ∀ x ∈ calls, run.scope.status.Leads x.status ∧ x.status.Leads status := by
  have hstatus := h.leads_status
  cases h with
  | unready =>
    refine ⟨List.pairwise_singleton _ _, fun x hx => ?_⟩
    rw [List.mem_singleton.1 hx]
    exact ⟨.refl _, .refl _⟩
  | @performed before working cleaning _ _ _ _ _ _ _ hprovisioning hworking hcleaning =>
    -- One status while the scope is provisioned, and one from then on.
    have hbefore : ∀ x ∈ before, x.status = .provisioning := fun x hx =>
      congrArg Stage.status (hprovisioning.of_mem hx).1
    have hbehind : ∀ x ∈ working ++ cleaning, x.status = status := fun x hx =>
      (List.mem_append.1 hx).elim (fun hx => congrArg Stage.status (hworking.of_mem hx).1)
        fun hx => congrArg Stage.status (hcleaning.of_mem hx).1
    have hall : ∀ x ∈ before ++ (working ++ cleaning),
        run.scope.status.Leads x.status ∧ x.status.Leads status := by
      intro x hx
      rcases List.mem_append.1 hx with hx | hx
      · exact hprovisioning.leads hx
      · rw [hbehind x hx]
        exact ⟨hstatus, .refl status⟩
    rw [List.append_assoc]
    constructor
    · rw [List.map_cons, List.pairwise_cons, List.pairwise_map, List.pairwise_append]
      refine ⟨fun b hb => ?_, pairwise_leads hbefore, pairwise_leads hbehind, fun x hx y hy => ?_⟩
      · obtain ⟨x, hx, rfl⟩ := List.mem_map.1 hb
        exact (hall x hx).1
      · rw [hbehind y hy]
        exact (hall x (List.mem_append_left _ hx)).2
    · intro x hx
      rcases List.mem_cons.1 hx with rfl | hx
      · exact ⟨.refl _, hstatus⟩
      · exact hall x hx

/-- In a scope that could not be provisioned nothing is created or prepared, and the steps of the
scenario are skipped. -/
theorem of_failed {message : String} (h : Course options scenario run calls reports status result)
    (hfailed : run.scope.status = .failed message) :
    (∀ x ∈ calls, x.call.isCreation = false ∧ x.phase ≠ .prepare ∧
        (x.phase = .scenario → x.call.step? = none)) ∧
      ∀ r ∈ reports, r.phase ≠ .prepare ∧ (r.phase = .scenario → r.status = .skipped) := by
  cases h with
  | unready =>
    refine ⟨fun x hx => ?_, nofun⟩
    rw [List.mem_singleton.1 hx]
    exact ⟨rfl, nofun, fun _ => rfl⟩
  | performed provisioning working cleaning =>
    have hsettled : run.scope.status.isSettled = true := by rw [hfailed]; rfl
    obtain ⟨rfl, rfl, -⟩ := provisioning.of_settled hsettled
    cases provisioning with
    | ready hready => rw [hready] at hfailed; cases hfailed
    | succeeded hopen => rw [hopen] at hsettled; cases hsettled
    | failed hopen => rw [hopen] at hsettled; cases hsettled
    | barred =>
      cases working with
      | barred e =>
        simp only [List.nil_append]
        constructor
        · intro x hx
          rcases List.mem_cons.1 hx with rfl | hx
          · exact ⟨rfl, nofun, fun _ => rfl⟩
          · have hphase : x.phase = .cleanup := congrArg Stage.phase (cleaning.of_mem hx).1
            have haside := cleaning.aside rfl x hx
            exact ⟨haside.2, haside.1, fun heq => by rw [hphase] at heq; cases heq⟩
        · intro r hr
          rcases List.mem_append.1 hr with hr | hr
          · obtain ⟨hphase, hskipped⟩ := phase_of_mem_skipped hr
            exact ⟨by rw [hphase]; decide, fun _ => hskipped⟩
          · have hphase := cleaning.phase_eq rfl hr
            exact ⟨by rw [hphase]; decide, fun heq => by rw [hphase] at heq; cases heq⟩

end Course

namespace Run

open Runs

variable {options : Options} {client : Client} {run run' : Run} {scenario : Scenario}

theorem body_of_provision_error {e : RunError}
    (h : provision options client run = (.error e, run')) :
    body options client scenario run =
      (.error e, { run' with
        steps := run'.steps ++ skipped .scenario "scope provisioning failed" scenario.steps }) := by
  rw [body, attempt_bind_run, h]
  dsimp only
  rw [bind_ok (skip_run .scenario "scope provisioning failed" scenario.steps), throw_run]

/-- What a run in a scope comes to that could not be provisioned before. -/
theorem perform_of_failed {message : String} (hfailed : run.scope.status = .failed message)
    (hready : client.answer run.trace (.prepare scenario (run.environment .scenario)) = .ok ()) :
    ∃ cleanup, (perform options client scenario run).1 =
      settle scenario.name (.error (.provisioning run.scope.name message)) cleanup := by
  have hprovision : provision options client (run.exchanged (run.readiness scenario (.ok ()))) =
      (.error (.provisioning run.scope.name message), _) := provision_of_failed hfailed
  rw [perform_of_accepted options hready rfl, body_of_provision_error hprovision]
  exact ⟨_, rfl⟩

end Run

end Rehearsal
