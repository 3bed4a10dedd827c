import Rehearsal.Proofs.Run.Writing
import Rehearsal.Proofs.Session.Container

/-!
# Which container is deleted

The names of a container are looked up once more when it is deleted, and by then the steps that
prepare the scope and clean it up may have set the variables that they come from. A scope that was
provisioned had its container created before, and what is deleted is that container unless such a
step has set a variable that the names lead to (`Session.deletions_runScenario`). A scope whose
provisioning failed is cleaned up as well, so there what is deleted may never have been created.
-/

namespace Rehearsal

/-- No exchange writes a variable of a scope that the names of its container lead to. -/
def Unwritten (env : Environment) (calls : List Exchange) : Prop :=
  ∀ x ∈ calls, ∀ entry ∈ x.written,
    ¬ env.Reaches ReservedName.subscription entry.1 ∧ ¬ env.Reaches ReservedName.container entry.1

/-- What is known when a container is deleted: its names are what the variables of the scope say, a
scope that was provisioned had a container created, and the names of that were the same unless what
they come from was written since. -/
structure Deletion (scope : RuntimeScope) (before : List Exchange) (subscription name : String) :
    Prop where
  kind : scope.kind = .resourceGroup
  subscribed : scope.environment.requireString ReservedName.subscription = .ok subscription
  named : scope.environment.requireString ReservedName.container = .ok name
  created : scope.status = .provisioned → ∃ y ∈ before, y.creates = true
  same : ∀ earlier y later, before = earlier ++ y :: later → y.creates = true →
    Unwritten scope.environment later → ∃ location, y.call = .createContainer subscription name location

theorem Call.exists_of_isCreation {call : Call} (h : call.isCreation = true) :
    ∃ subscription name location, call = .createContainer subscription name location := by
  cases call with
  | createContainer subscription name location => exact ⟨subscription, name, location, rfl⟩
  | prepare | deleteContainer | send | deploy => cases h

theorem Unwritten.concat {env : Environment} {calls : List Exchange} (h : Unwritten env calls)
    {x : Exchange} (hx : x.call.step? = none) : Unwritten env (calls ++ [x]) := by
  intro z hz entry hentry
  rcases List.mem_append.1 hz with hz | hz
  · exact h z hz entry hentry
  · rw [List.mem_singleton.1 hz, Exchange.written_eq_nil hx] at hentry
    cases hentry

/-- A call at the end that is none of a step finds the variables as it leaves them. -/
theorem RuntimeScope.Writes.addresses_last {initial scope : RuntimeScope} {before : List Exchange}
    {x : Exchange} (h : initial.Writes (before ++ [x]) scope) (hx : x.call.step? = none) :
    x.call.Addresses scope.environment := by
  have haddressed := h.addressed before x [] rfl
  rw [List.nil_append] at haddressed
  rw [h.changes, after_append, after_singleton hx]
  exact haddressed

/-- A container has the names that a scope gives it later on, unless what they come from is
written. -/
theorem RuntimeScope.Writes.creation_eq {initial scope : RuntimeScope} {earlier later : List Exchange}
    {y : Exchange} {subscription name : String} (h : initial.Writes (earlier ++ y :: later) scope)
    (hy : y.call.isCreation = true) (hunwritten : Unwritten scope.environment later)
    (hsubscription : scope.environment.requireString ReservedName.subscription = .ok subscription)
    (hname : scope.environment.requireString ReservedName.container = .ok name) :
    ∃ location, y.call = .createContainer subscription name location := by
  obtain ⟨subscription', name', location, hcall⟩ := Call.exists_of_isCreation hy
  have haddressed := h.addressed earlier y later rfl
  rw [List.nil_append, hcall] at haddressed
  obtain ⟨hsubscription', hname'⟩ := haddressed
  -- The environment at the end is the one at the creation with what was written since.
  have hlater : scope.environment = ((initial.after earlier).environment.modifyInner fun layer =>
      layer.setAll (later.flatMap Exchange.written)) := by
    rw [h.changes, after_append, ← List.singleton_append, after_append,
      after_singleton (Call.step?_of_creation hy)]
    rfl
  have hentries {name : String} (hnot : ∀ x ∈ later, ∀ entry ∈ x.written,
      ¬ scope.environment.Reaches name entry.1) : ∀ entry ∈ later.flatMap Exchange.written,
      ¬ scope.environment.Reaches name entry.1 := by
    intro entry hentry
    obtain ⟨x, hx, hmem⟩ := List.mem_flatMap.1 hentry
    exact hnot x hx entry hmem
  have hsubscriptions := hentries fun x hx entry hentry => (hunwritten x hx entry hentry).1
  have hnames := hentries fun x hx entry hentry => (hunwritten x hx entry hentry).2
  rw [hlater] at hsubscription hname hsubscriptions hnames
  rw [Environment.requireString_modifyInner_setAll hsubscriptions, hsubscription'] at hsubscription
  rw [Environment.requireString_modifyInner_setAll hnames, hname'] at hname
  cases hsubscription
  cases hname
  exact ⟨location, hcall⟩

/-- Only a scope that has a container has it deleted. -/
theorem Course.needsContainer {options : Options} {scenario : Scenario} {run : Run}
    {calls : List Exchange} {reports : List StepReport} {status : ProvisionStatus}
    {result : Except RunError Unit} (h : Course options scenario run calls reports status result)
    {x : Exchange} (hx : x ∈ calls) (hdeletes : x.call.isDeletion = true) :
    run.scope.kind.needsContainer = true := by
  have hsteps {s : Step} (hstep : x.call.step? = some s) : run.scope.kind.needsContainer = true := by
    rw [Call.step?_of_deletion hdeletes] at hstep
    cases hstep
  cases h with
  | unready =>
    rw [List.mem_singleton.1 hx] at hdeletes
    cases hdeletes
  | performed provisioning working cleaning =>
    rcases List.mem_cons.1 hx with rfl | hx
    · cases hdeletes
    rcases List.mem_append.1 hx with hx | hx
    rcases List.mem_append.1 hx with hx | hx
    · rw [provisioning.not_deletes x hx] at hdeletes
      cases hdeletes
    · rw [working.not_deletes x hx] at hdeletes
      cases hdeletes
    · cases cleaning with
      | disabled => cases hx
      | failed _ inTurn =>
        obtain ⟨-, s, -, hs⟩ := inTurn.of_mem hx
        exact hsteps hs
      | emptied _ _ needed => exact needed
      | uncontained _ inTurn =>
        obtain ⟨-, s, -, hs⟩ := inTurn.of_mem hx
        exact hsteps hs

/-- What is known of a deletion in a run. -/
theorem ContainerAccount.deletion {options : Options} {scenario : Scenario} {run run' : Run}
    {before calls front behind : List Exchange} {reports : List StepReport}
    {status : ProvisionStatus} {result : Except RunError Unit} {initial : RuntimeScope}
    {x : Exchange} {subscription name : String} (h : ContainerAccount run.scope before)
    (hcourse : Course options scenario run calls reports status result)
    (hadvances : (run.withStatus status).Advances calls reports run')
    (hwrites : initial.Writes (before ++ calls) run'.scope) (hcalls : calls = front ++ x :: behind)
    (hcall : x.call = .deleteContainer subscription name) :
    Deletion run'.scope (before ++ front) subscription name := by
  have hdeletes : x.call.isDeletion = true := by rw [hcall]; rfl
  have hstep : x.call.step? = none := Call.step?_of_deletion hdeletes
  have hneeded : run.scope.kind.needsContainer = true :=
    hcourse.needsContainer (hcalls ▸ List.mem_append_right front List.mem_cons_self) hdeletes
  have hstatus : run'.scope.status = status := by rw [hadvances.scope]; rfl
  -- The deletion is the last call, so it finds the scope as the run leaves it.
  cases hcourse.eq_nil_of_deletion hcalls hdeletes
  rw [hcalls, ← List.append_assoc] at hwrites
  obtain ⟨hsubscription, hname⟩ : _ ∧ _ := hcall ▸ hwrites.addresses_last hstep
  refine ⟨?_, hsubscription, hname, fun hready => ?_, ?_⟩
  · rw [hadvances.scope]
    exact ScopeKind.eq_of_needsContainer hneeded
  · obtain ⟨y, hy, hcreates⟩ := (hcourse.runsCreated hneeded (h.created hneeded)).2 (hstatus ▸ hready)
    rw [hcalls, ← List.append_assoc] at hy
    rcases List.mem_append.1 hy with hy | hy
    · exact ⟨y, hy, hcreates⟩
    · rw [List.mem_singleton.1 hy, Exchange.creates, Call.isCreation_of_deletion hdeletes] at hcreates
      cases hcreates
  · intro earlier y later hbefore hcreates hunwritten
    rw [Exchange.creates, Bool.and_eq_true] at hcreates
    rw [hbefore, List.append_assoc, List.cons_append] at hwrites
    exact hwrites.creation_eq hcreates.1 (hunwritten.concat hstep) hsubscription hname

/-- The account of what was written to a scope since it was built. -/
def WrittenAccount (scope : RuntimeScope) (calls : List Exchange) : Prop :=
  ∃ initial : RuntimeScope, initial.Writes calls scope

namespace Session

variable {session : Session} {client : Client} {reports : List ScenarioReport}

theorem Reached.writtenAccount (h : Reached client session reports) :
    Accounts (fun scope calls _ => ContainerAccount scope calls ∧ WrittenAccount scope calls) session
      reports := by
  refine h.accounts_of_perform
    (fun {_ _ _ _ _ scope} hbuilt =>
      ⟨.new (RuntimeScope.build_eq_ok hbuilt).2.2.2.2, scope, .refl scope⟩) ?_
  rintro options scenario run run' before calls _ _ _ _ ⟨hbefore, initial, hwrites⟩ performs hcourse
    hadvances
  have htrace : (Run.perform options client scenario run).2.trace = run.trace ++ calls := by
    rw [performs]
    exact hadvances.trace
  have hrun := Run.writes_perform htrace
  rw [performs] at hrun
  exact ⟨hbefore.keeps hcourse hadvances, initial, hwrites.trans hrun⟩

/-- **What is deleted is what was created.** The deletions that a run asks for are those of the
container of its scope. -/
theorem deletions_runScenario (h : Reached client session reports) (definition : Definition)
    (scenario : Scenario) (caller : Environment) :
    ∃ calls, (session.runScenario client definition scenario caller).session.trace =
        session.trace ++ calls ∧
      ∀ front x behind subscription name, calls = front ++ x :: behind →
        x.call = .deleteContainer subscription name →
        ∃ scope, (session.runScenario client definition scenario caller).session.scopes.get?
            x.scope = some scope ∧
          Deletion scope (callsOn x.scope (session.trace ++ front)) subscription name := by
  rcases h.perform_runScenario h.writtenAccount
      (fun {_ _ _ scope} hbuilt =>
        ⟨.new (RuntimeScope.build_eq_ok hbuilt).2.2.2.2, scope, .refl scope⟩) scenario with
    htrace | ⟨run, run', ⟨haccount, initial, hinitial⟩, htrace, performs, htrace', hfound⟩
  · exact ⟨[], by rw [htrace, List.append_nil], fun front x behind _ _ heq => by simp at heq⟩
  obtain ⟨calls, steps, status, hadvances, hcourse⟩ :=
    Run.course_perform session.options client scenario run
  have hwrites := Run.writes_perform hadvances.trace
  rw [performs] at hadvances hcourse hwrites
  have hname : run'.scope.name = run.scope.name := by rw [hadvances.scope]; rfl
  have hcalls : run'.trace = session.trace ++ calls := by rw [← htrace]; exact hadvances.trace
  refine ⟨calls, htrace'.trans hcalls, fun front x behind subscription name heq hcall => ?_⟩
  have hscope {y : Exchange} (hy : y ∈ calls) : y.scope = run.scope.name := hcourse.scope_eq hy
  have hfront : callsOn run.scope.name front = front :=
    callsOn_eq_self fun y hy => hscope (heq ▸ List.mem_append_left _ hy)
  rw [hscope (heq ▸ List.mem_append_right front List.mem_cons_self), callsOn_append, hfront]
  exact ⟨run'.scope, hname ▸ hfound,
    haccount.deletion hcourse hadvances (hinitial.trans hwrites) heq hcall⟩

/-- The second of two runs in one scope deletes the container that the first one had created. -/
theorem deletions_secondRun :
    (∃ x ∈ secondRun.session.trace, x.deletes = true) ∧
      ∃ calls, secondRun.session.trace = firstRun.session.trace ++ calls ∧
        ∀ front x behind subscription name, calls = front ++ x :: behind →
          x.call = .deleteContainer subscription name →
          ∃ scope, secondRun.session.scopes.get? x.scope = some scope ∧
            Deletion scope (callsOn x.scope (firstRun.session.trace ++ front)) subscription name := by
  constructor
  · have hany : secondRun.session.trace.any Exchange.deletes = true := by
      decide +kernel
    exact List.any_eq_true.1 hany
  · unfold secondRun
    exact deletions_runScenario reached_firstRun bare readingOnce supplied

/-! ### Deletions of what was not created -/

/-- Every container that is deleted was created under the same names. -/
def DeletesOwn (trace : List Exchange) : Prop :=
  ∀ front x behind subscription name, trace = front ++ x :: behind →
    x.call = .deleteContainer subscription name →
    ∃ y ∈ front, y.accepted = true ∧ ∃ location, y.call = .createContainer subscription name location

/-- Whether a container of a name is created. -/
def createsNamed (name : String) (x : Exchange) : Bool :=
  match x.call with
  | .createContainer _ other _ => x.accepted && other == name
  | _ => false

/-- Whether a container of a name is deleted. -/
def deletesNamed (name : String) (x : Exchange) : Bool :=
  match x.call with
  | .deleteContainer _ other => other == name
  | _ => false

theorem not_deletesOwn {trace : List Exchange} (name : String)
    (hdeletes : trace.any (deletesNamed name) = true)
    (hcreates : trace.any (createsNamed name) = false) : ¬ DeletesOwn trace := by
  intro hown
  obtain ⟨x, hx, hdeletes⟩ := List.any_eq_true.1 hdeletes
  obtain ⟨front, behind, heq⟩ := List.append_of_mem hx
  rw [deletesNamed] at hdeletes
  split at hdeletes
  · next subscription other hcall =>
    obtain ⟨y, hy, haccepted, location, hcreated⟩ := hown front x behind subscription other heq hcall
    refine List.any_eq_false.1 hcreates y (heq ▸ List.mem_append_left _ hy) ?_
    rw [createsNamed, hcreated]
    dsimp only
    rw [haccepted, hdeletes]
    rfl
  · cases hdeletes

/-- A client that does not create containers. -/
def withholding : Client where
  answer _history
    | .createContainer .. => .error "no"
    | .prepare .. | .deleteContainer .. => .ok ()
    | .send .. => .ok { status := 200 }
    | .deploy .. => .ok ∅

/-- A container is deleted although its creation was refused. -/
theorem not_forall_deletesOwn :
    ¬ ∀ (client : Client) (session : Session) (reports : List ScenarioReport),
      Reached client session reports → DeletesOwn session.trace := by
  intro hown
  refine not_deletesOwn "g" ?_ ?_ (hown withholding _ _
    ((Reached.new {} ⟨[], 0⟩).run bare readingOnce supplied))
  · decide +kernel
  · decide +kernel

/-- A client that accepts everything and has one output for every deployment. -/
def naming : Client where
  answer _history
    | .prepare .. | .createContainer .. | .deleteContainer .. => .ok ()
    | .send .. => .ok { status := 200 }
    | .deploy .. => .ok (Dict.ofList [(ReservedName.container, .str "other")])

/-- A definition that is prepared by a deployment. -/
def deploying : Definition :=
  { bare with
    prepareSteps := [.deployment { header := { name := "s" }, template := {}, sourceFile := "t" }] }

/-- A container is deleted that nobody created although everything is accepted. -/
theorem not_forall_deletesOwn_of_accepted :
    ¬ ∀ (client : Client) (session : Session) (reports : List ScenarioReport),
      (∀ history call, (client.answer history call).isOk = true) →
      Reached client session reports → DeletesOwn session.trace := by
  intro hown
  have haccepts (history : List Exchange) (call : Call) :
      (naming.answer history call).isOk = true := by
    cases call <;> rfl
  refine not_deletesOwn "other" ?_ ?_ (hown naming _ _ haccepts
    ((Reached.new {} ⟨[], 0⟩).run deploying readingOnce supplied))
  · decide +kernel
  · decide +kernel

end Session

end Rehearsal
