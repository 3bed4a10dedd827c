import Rehearsal.Proofs.Session.Provisioning

/-!
# Steps that run without a container

A scope is provisioned once, but every run in it cleans up behind itself. So the first run that
deletes the container leaves a scope without one, and every call of a step that a later run makes
goes to a container that was deleted; calls of earlier runs never do, and the deletion is the last
call of its run (`Session.sent_to_deleted_iff`).
-/

namespace Rehearsal

namespace Exchange

/-- Whether a container was created. -/
def creates (x : Exchange) : Bool := x.call.isCreation && x.accepted

/-- Whether a container was deleted. -/
def deletes (x : Exchange) : Bool := x.call.isDeletion && x.accepted

end Exchange

/-- Among the exchanges for a scope, its container was deleted and not asked for since. -/
def Deleted (calls : List Exchange) : Prop :=
  ∃ before x behind, calls = before ++ x :: behind ∧ x.deletes = true ∧
    ∀ y ∈ behind, y.call.isCreation = false

/-- A step that does not clean up is run when a container was created. -/
def RunsCreated (before : List Exchange) (x : Exchange) : Prop :=
  x.call.step?.isSome = true → x.phase ≠ .cleanup → ∃ y ∈ before, y.creates = true

theorem eachAfter_of_created {before calls : List Exchange} (h : ∃ y ∈ before, y.creates = true) :
    EachAfter RunsCreated before calls :=
  .of_forall fun front _ _ _ _ =>
    let ⟨y, hy, hcreates⟩ := h
    ⟨y, List.mem_append_left front hy, hcreates⟩

section parts

variable {scenario : String} {stage : Stage} {kind : ScopeKind} {scope : RuntimeScope}
  {steps left : List Step} {before calls : List Exchange} {reports : List StepReport}
  {status : ProvisionStatus} {result result' : Except RunError Unit}

theorem pairwise_not_deletes (h : ∀ x ∈ calls, x.call.isDeletion = false) :
    calls.Pairwise fun x _ => x.call.isDeletion = false :=
  List.pairwise_of_forall_mem_list fun x hx _ _ => h x hx

theorem InTurn.not_deletes (h : InTurn scenario stage steps calls reports left result) :
    ∀ x ∈ calls, x.call.isDeletion = false := by
  intro x hx
  obtain ⟨-, s, -, hs⟩ := h.of_mem hx
  exact Call.isDeletion_of_step hs

theorem Provisioning.not_deletes
    (h : Provisioning scenario stage scope calls reports status result) :
    ∀ x ∈ calls, x.call.isDeletion = false := by
  intro x hx
  rcases (h.of_mem hx).2 with hcreates | ⟨s, -, hs⟩
  · exact Call.isDeletion_of_creation hcreates
  · exact Call.isDeletion_of_step hs

theorem Working.not_deletes (h : Working scenario stage steps result calls reports result') :
    ∀ x ∈ calls, x.call.isDeletion = false := by
  intro x hx
  obtain ⟨-, s, -, hs⟩ := h.of_mem hx
  exact Call.isDeletion_of_step hs

/-- A container is created before any step runs that prepares the scope. -/
theorem Readying.runsCreated (h : Readying scenario stage kind steps calls reports result)
    (hneeded : kind.needsContainer = true) (before : List Exchange) :
    EachAfter RunsCreated before calls ∧
      (result = .ok () → ∃ y ∈ before ++ calls, y.creates = true) := by
  have hcreation {calls : List Exchange} {ok : Bool}
      (h : OneCall stage (·.isCreation = true) ok calls) : EachAfter RunsCreated before calls := by
    refine .of_forall fun front x hx hstep _ => ?_
    rw [Call.step?_of_creation (h.of_mem hx).2] at hstep
    cases hstep
  cases h with
  | uncreated _ creation => exact ⟨hcreation creation, nofun⟩
  | @created first rest _ _ _ _ creation inTurn =>
    have hcreated : ∃ y ∈ before ++ first, y.creates = true := by
      rcases creation with ⟨-, hok⟩ | ⟨y, rfl, -, hcreates, haccepted⟩
      · cases hok
      · exact ⟨y, List.mem_append_right _ (List.mem_singleton_self y), by
          rw [Exchange.creates, hcreates, haccepted]; rfl⟩
    refine ⟨(hcreation creation).append (eachAfter_of_created hcreated), fun _ => ?_⟩
    obtain ⟨y, hy, hcreates⟩ := hcreated
    exact ⟨y, by rw [← List.append_assoc]; exact List.mem_append_left rest hy, hcreates⟩
  | uncontained hnot => rw [hnot] at hneeded; cases hneeded

theorem Provisioning.runsCreated
    (h : Provisioning scenario stage scope calls reports status result)
    (hneeded : scope.kind.needsContainer = true) (before : List Exchange)
    (hbefore : scope.status = .provisioned → ∃ y ∈ before, y.creates = true) :
    EachAfter RunsCreated before calls ∧
      (status = .provisioned → ∃ y ∈ before ++ calls, y.creates = true) := by
  cases h with
  | ready hready =>
    rw [List.append_nil]
    exact ⟨.nil, fun _ => hbefore hready⟩
  | barred => exact ⟨.nil, nofun⟩
  | succeeded _ readying =>
    obtain ⟨hcalls, hcreated⟩ := readying.runsCreated hneeded before
    exact ⟨hcalls, fun _ => hcreated rfl⟩
  | failed _ readying => exact ⟨(readying.runsCreated hneeded before).1, nofun⟩

/-- A body that goes beyond provisioning leaves a provisioned scope behind. -/
theorem Provisioning.status_of_ok
    (h : Provisioning scenario stage scope calls reports status (.ok ())) :
    status = .provisioned := by
  cases h <;> rfl

/-- A deletion is the last call of a cleanup. -/
theorem Cleaning.deletes_last {options : Options}
    (h : Cleaning options scenario stage kind steps calls reports result) :
    calls.Pairwise fun x _ => x.call.isDeletion = false := by
  cases h with
  | disabled => exact .nil
  | failed _ inTurn => exact pairwise_not_deletes inTurn.not_deletes
  | emptied _ inTurn _ deletion =>
    rw [List.pairwise_append]
    refine ⟨pairwise_not_deletes inTurn.not_deletes, ?_, fun x hx _ _ => inTurn.not_deletes x hx⟩
    rcases deletion with ⟨rfl, -⟩ | ⟨y, rfl, -⟩
    · exact .nil
    · exact List.pairwise_singleton _ _
  | uncontained _ inTurn => exact pairwise_not_deletes inTurn.not_deletes

end parts

namespace Course

variable {options : Options} {scenario : Scenario} {run run' : Run} {before calls : List Exchange}
  {reports : List StepReport} {status : ProvisionStatus} {result : Except RunError Unit}

/-- A deletion is the last call of a run. -/
theorem deletes_last (h : Course options scenario run calls reports status result) :
    calls.Pairwise fun x _ => x.call.isDeletion = false := by
  cases h with
  | unready => exact List.pairwise_singleton _ _
  | performed provisioning working cleaning =>
    rw [List.append_assoc, List.pairwise_cons, List.pairwise_append, List.pairwise_append]
    exact ⟨fun _ _ => rfl, pairwise_not_deletes provisioning.not_deletes,
      ⟨pairwise_not_deletes working.not_deletes, cleaning.deletes_last,
        fun x hx _ _ => working.not_deletes x hx⟩,
      fun x hx _ _ => provisioning.not_deletes x hx⟩

theorem eq_nil_of_deletion (h : Course options scenario run calls reports status result)
    {front behind : List Exchange} {x : Exchange} (hcalls : calls = front ++ x :: behind)
    (hdeletes : x.call.isDeletion = true) : behind = [] := by
  have hlast := h.deletes_last
  rw [hcalls, List.pairwise_append, List.pairwise_cons] at hlast
  cases behind with
  | nil => rfl
  | cons y behind =>
    rw [hlast.2.1.1 y List.mem_cons_self] at hdeletes
    cases hdeletes

/-- Every step of a run is run when a container was created, if the scope needs one, unless the step
cleans up. -/
theorem runsCreated (h : Course options scenario run calls reports status result)
    (hneeded : run.scope.kind.needsContainer = true)
    (hbefore : run.scope.status = .provisioned → ∃ y ∈ before, y.creates = true) :
    EachAfter RunsCreated before calls ∧
      (status = .provisioned → ∃ y ∈ before ++ calls, y.creates = true) := by
  cases h with
  | @unready reason =>
    constructor
    · refine .of_forall fun front x hx hstep _ => ?_
      rw [List.mem_singleton.1 hx] at hstep
      cases hstep
    · intro hstatus
      obtain ⟨y, hy, hcreates⟩ := hbefore hstatus
      exact ⟨y, List.mem_append_left _ hy, hcreates⟩
  | @performed first second third _ _ _ _ _ _ _ provisioning working cleaning =>
    let ready := run.readiness scenario (.ok ())
    have hready : EachAfter RunsCreated before [ready] := by
      refine .of_forall fun front x hx hstep _ => ?_
      rw [List.mem_singleton.1 hx] at hstep
      cases hstep
    -- Once the scope is provisioned there is a container for all that follows.
    obtain ⟨hfirst, hcreated⟩ := provisioning.runsCreated hneeded (before ++ [ready])
      fun hstatus => by
        obtain ⟨y, hy, hcreates⟩ := hbefore hstatus
        exact ⟨y, List.mem_append_left _ hy, hcreates⟩
    have hsecond : EachAfter RunsCreated (before ++ [ready] ++ first) second := by
      cases working with
      | ran => exact eachAfter_of_created (hcreated provisioning.status_of_ok)
      | barred => exact .nil
    have hthird : EachAfter RunsCreated (before ++ [ready] ++ (first ++ second)) third := by
      refine .of_forall fun front x hx _ hphase => absurd ?_ hphase
      exact congrArg Stage.phase (cleaning.of_mem hx).1
    refine ⟨hready.append ((hfirst.append hsecond).append hthird), fun hstatus => ?_⟩
    obtain ⟨y, hy, hcreates⟩ := hcreated hstatus
    have hsplit : before ++ ready :: (first ++ second ++ third) =
        before ++ [ready] ++ first ++ (second ++ third) := by simp
    exact ⟨y, hsplit ▸ List.mem_append_left _ hy, hcreates⟩

end Course

/-- The account of a scope's container. -/
structure ContainerAccount (scope : RuntimeScope) (calls : List Exchange) : Prop where
  created : scope.kind.needsContainer = true → scope.status = .provisioned →
    ∃ y ∈ calls, y.creates = true
  settled : (∃ y ∈ calls, y.call.isDeletion = true) → scope.status.isSettled = true
  order : calls.Pairwise fun x y => x.call.isDeletion = true → y.call.isCreation = false

namespace ContainerAccount

variable {options : Options} {scenario : Scenario} {run run' : Run} {before calls : List Exchange}
  {reports : List StepReport} {status : ProvisionStatus} {result : Except RunError Unit}

theorem new {scope : RuntimeScope} (h : scope.status = .unprovisioned) :
    ContainerAccount scope [] where
  created _ hstatus := by rw [h] at hstatus; cases hstatus
  settled := fun ⟨_, hy, _⟩ => absurd hy List.not_mem_nil
  order := .nil

/-- No container is created behind a deletion. -/
theorem order_append (h : ContainerAccount run.scope before)
    (hcourse : Course options scenario run calls reports status result) :
    (before ++ calls).Pairwise fun x y => x.call.isDeletion = true → y.call.isCreation = false := by
  rw [List.pairwise_append]
  refine ⟨h.order, hcourse.deletes_last.imp fun hnot hdeletes => ?_, fun x hx y hy hdeletes => ?_⟩
  · rw [hnot] at hdeletes
    cases hdeletes
  · have hsettled := h.settled ⟨x, hx, hdeletes⟩
    rcases hcourse.unchanged_or_settles with ⟨hnone, -⟩ | ⟨hopen, -⟩
    · simpa using List.countP_eq_zero.1 hnone y hy
    · rw [hopen] at hsettled
      cases hsettled

theorem keeps (h : ContainerAccount run.scope before)
    (hcourse : Course options scenario run calls reports status result)
    (hadvances : (run.withStatus status).Advances calls reports run') :
    ContainerAccount run'.scope (before ++ calls) where
  created hneeded hstatus := by
    rw [hadvances.scope] at hneeded hstatus
    exact (hcourse.runsCreated hneeded (h.created hneeded)).2 hstatus
  settled := by
    rintro ⟨y, hy, hdeletes⟩
    rw [hadvances.scope]
    change status.isSettled = true
    rcases List.mem_append.1 hy with hy | hy
    · have hsettled := h.settled ⟨y, hy, hdeletes⟩
      rw [hcourse.leads_status.eq_of_isSettled hsettled, hsettled]
    · cases hcourse with
      | unready => rw [List.mem_singleton.1 hy] at hdeletes; cases hdeletes
      | performed provisioning => exact provisioning.isSettled
  order := h.order_append hcourse

/-- A call of a step goes to a container that was deleted if and only if the container was deleted
before the run. -/
theorem deleted_iff (h : ContainerAccount run.scope before)
    (hcourse : Course options scenario run calls reports status result)
    {front behind : List Exchange} {x : Exchange} (hcalls : calls = front ++ x :: behind) :
    Deleted (before ++ front) ↔ ∃ y ∈ before, y.deletes = true := by
  constructor
  · rintro ⟨first, y, rest, heq, hdeletes, -⟩
    have hy : y ∈ before ++ front := heq ▸ List.mem_append_right first List.mem_cons_self
    rcases List.mem_append.1 hy with hy | hy
    · exact ⟨y, hy, hdeletes⟩
    · -- A deletion in the run would be its last call.
      have hlast := hcourse.deletes_last
      rw [hcalls, List.pairwise_append] at hlast
      have hnot : y.call.isDeletion = false := hlast.2.2 y hy x List.mem_cons_self
      rw [Exchange.deletes, hnot] at hdeletes
      cases hdeletes
  · rintro ⟨y, hy, hdeletes⟩
    obtain ⟨first, rest, rfl⟩ := List.append_of_mem hy
    refine ⟨first, y, rest ++ front, by simp, hdeletes, fun z hz => ?_⟩
    have horder := h.order_append hcourse
    rw [hcalls, List.append_assoc, List.pairwise_append] at horder
    have hbehind : z ∈ rest ++ (front ++ x :: behind) := by
      rw [← List.append_assoc]
      exact List.mem_append_left _ hz
    have hdeletion : y.call.isDeletion = true := by
      rw [Exchange.deletes, Bool.and_eq_true] at hdeletes
      exact hdeletes.1
    exact (List.pairwise_cons.1 horder.2.1).1 z hbehind hdeletion

end ContainerAccount

namespace Session

variable {session : Session} {client : Client} {reports : List ScenarioReport}

theorem Reached.containerAccount (h : Reached client session reports) :
    Accounts (fun scope calls _ => ContainerAccount scope calls) session reports :=
  h.accounts (fun hbuilt => .new (RuntimeScope.build_eq_ok hbuilt).2.2.2.2)
    fun hbefore hcourse hadvances => hbefore.keeps hcourse hadvances

/-- **Steps are sent to a deleted container if and only if an earlier run has deleted it.** The
deletion is the last call of its run, and where a scope needs a container every step but those that
clean up runs when the container was created. -/
theorem sent_to_deleted_iff (h : Reached client session reports) (definition : Definition)
    (scenario : Scenario) (caller : Environment) :
    ∃ calls, (session.runScenario client definition scenario caller).session.trace =
        session.trace ++ calls ∧
      ∀ front x behind, calls = front ++ x :: behind →
        (Deleted (callsOn x.scope (session.trace ++ front)) ↔
            ∃ y ∈ callsOn x.scope session.trace, y.deletes = true) ∧
          (x.call.isDeletion = true → behind = []) ∧
          ∀ scope, (session.runScenario client definition scenario caller).session.scopes.get?
              x.scope = some scope → scope.kind = .resourceGroup →
            x.call.step?.isSome = true → x.phase ≠ .cleanup →
            ∃ y ∈ callsOn x.scope (session.trace ++ front), y.creates = true := by
  have hnew {key : String} {g g' : Suffixes} {scope : RuntimeScope}
      (hbuilt : RuntimeScope.build definition key caller g = .ok (scope, g')) :
      ContainerAccount scope [] := .new (RuntimeScope.build_eq_ok hbuilt).2.2.2.2
  rcases h.course_runScenario h.containerAccount hnew scenario with
    htrace | ⟨run, scope', calls, steps, status, haccount, hcourse, htrace, hfound, hscope'⟩
  · exact ⟨[], by rw [htrace, List.append_nil], fun front x behind heq => by simp at heq⟩
  · refine ⟨calls, htrace, fun front x behind hcalls => ?_⟩
    have hscope {y : Exchange} (hy : y ∈ front ++ x :: behind) : y.scope = run.scope.name :=
      hcourse.scope_eq (hcalls ▸ hy)
    have hx : x.scope = run.scope.name := hscope (List.mem_append_right front List.mem_cons_self)
    have hfront : callsOn run.scope.name front = front :=
      callsOn_eq_self fun y hy => hscope (List.mem_append_left _ hy)
    rw [hx, callsOn_append, hfront]
    refine ⟨haccount.deleted_iff hcourse hcalls, fun hdeletes => ?_, ?_⟩
    · have hlast := hcourse.deletes_last
      rw [hcalls, List.pairwise_append, List.pairwise_cons] at hlast
      cases behind with
      | nil => rfl
      | cons y behind =>
        rw [hlast.2.1.1 y List.mem_cons_self] at hdeletes
        cases hdeletes
    · intro scope hget hkind hstep hphase
      rw [hfound] at hget
      cases hget
      have hneeded : run.scope.kind.needsContainer = true := by
        rw [hscope'] at hkind
        rw [hkind]
        rfl
      exact (hcourse.runsCreated hneeded (haccount.created hneeded)).1 front x behind hcalls hstep
        hphase

/-! ### Two runs in one scope -/

/-- A client that accepts everything. -/
def obliging : Client where
  answer _history
    | .prepare .. | .createContainer .. | .deleteContainer .. => .ok ()
    | .send .. => .ok { status := 200 }
    | .deploy .. => .ok ∅

theorem obliging_isOk (history : List Exchange) (call : Call) :
    (obliging.answer history call).isOk = true := by
  cases call <;> rfl

/-- A step that reads something. -/
def reading : Step :=
  .rest { header := { name := "s" },
          operation := { id := "o", method := .get, path := "/", apiVersion := "1" } }

/-- A scenario that reads something in a shared scope. -/
def readingOnce : Scenario := { position := 0, name := "s", steps := [reading] }

/-- What a container needs. -/
def supplied : Environment :=
  let text (value : String) : Variable := .text false { value := some value }
  { inner :=
      { vars := Dict.ofList [(ReservedName.subscription, text "s"),
          (ReservedName.container, text "g"), (ReservedName.location, text "l")] } }

/-- The first of two runs. -/
def firstRun : Result := runScenario { suffixes := ⟨[], 0⟩ } obliging bare readingOnce supplied

/-- The second of two runs. -/
def secondRun : Result := firstRun.session.runScenario obliging bare readingOnce supplied

theorem reached_firstRun : Reached obliging firstRun.session [firstRun.report] :=
  (Reached.new {} ⟨[], 0⟩).run bare readingOnce supplied

theorem reached_secondRun :
    Reached obliging secondRun.session [firstRun.report, secondRun.report] :=
  reached_firstRun.run bare readingOnce supplied

/-- In the second run the container is gone. -/
theorem sent_to_deleted_secondRun :
    (∃ y ∈ callsOn "f#default" firstRun.session.trace, y.deletes = true) ∧
      ∃ calls, secondRun.session.trace = firstRun.session.trace ++ calls ∧
        ∀ front x behind, calls = front ++ x :: behind →
          (Deleted (callsOn x.scope (firstRun.session.trace ++ front)) ↔
            ∃ y ∈ callsOn x.scope firstRun.session.trace, y.deletes = true) := by
  constructor
  · have hany : (callsOn "f#default" firstRun.session.trace).any Exchange.deletes = true := by
      decide +kernel
    exact List.any_eq_true.1 hany
  · unfold secondRun
    obtain ⟨calls, htrace, hcalls⟩ :=
      sent_to_deleted_iff reached_firstRun bare readingOnce supplied
    exact ⟨calls, htrace, fun front x behind heq => (hcalls front x behind heq).1⟩

/-- Steps may be sent to a deleted container although the client accepts everything. -/
theorem not_forall_sent_to_live :
    ¬ ∀ (client : Client) (session : Session) (reports : List ScenarioReport),
      (∀ history call, (client.answer history call).isOk = true) →
      Reached client session reports → session.options.skipCleanup = false →
      (∀ entry ∈ session.scopes.entries, entry.2.kind = .resourceGroup) →
      ∀ front x behind, session.trace = front ++ x :: behind → x.call.step?.isSome = true →
        ¬ Deleted (callsOn x.scope front) := by
  intro hlive
  -- Both runs get ready, send a request and delete; only the first one creates.
  have hkinds : secondRun.session.trace.map
      (fun x => (x.scope, x.call.isCreation, x.deletes, x.call.step?.isSome)) =
      [("f#default", false, false, false), ("f#default", true, false, false),
        ("f#default", false, false, true), ("f#default", false, true, false),
        ("f#default", false, false, false), ("f#default", false, false, true),
        ("f#default", false, true, false)] := by
    decide +kernel
  have hscopes : ∀ entry ∈ secondRun.session.scopes.entries, entry.2.kind = .resourceGroup := by
    decide +kernel
  have hoptions : secondRun.session.options.skipCleanup = false := by
    decide +kernel
  simp only [List.map_eq_cons_iff, List.map_eq_nil_iff, Prod.mk.injEq] at hkinds
  obtain ⟨ready, _, htrace, hready, created, _, rfl, hcreated, sent, _, rfl, hsent, deleted, _, rfl,
    hdeleted, again, _, rfl, hagain, x, _, rfl, hx, last, _, rfl, hlast, rfl⟩ := hkinds
  refine hlive obliging secondRun.session _ obliging_isOk reached_secondRun hoptions hscopes
    [ready, created, sent, deleted, again] x [last] htrace hx.2.2.2 ?_
  rw [hx.1, callsOn_eq_self (by simp [hready, hcreated, hsent, hdeleted, hagain])]
  refine ⟨[ready, created, sent], deleted, [again], rfl, hdeleted.2.2.1, fun y hy => ?_⟩
  rw [List.mem_singleton.1 hy, hagain.2.1]

end Session

end Rehearsal
