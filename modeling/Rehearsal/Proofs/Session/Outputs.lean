import Rehearsal.Proofs.Compile.Outputs
import Rehearsal.Proofs.Compile.Script
import Rehearsal.Proofs.Environment.Secrecy
import Rehearsal.Proofs.Session.Capture

/-!
# Secret outputs stay secret

The compiler lists the secret outputs of steps (`Sources.guards_compile`), the environments of a run
keep what is listed, and nothing that happens in a session takes a name from a list. So whatever a
step sets under a name that it says is secret is secret from then on: in the scope if the step
prepares it or cleans it up, among the variables of the scenario if it is a step of that, and in all
environments that one of these stands around (`Session.Rehearsed.conceals`). It does not matter what
is declared under the name, or that a template and its step may contradict each other.
-/

namespace Rehearsal

/-! ### What is listed -/

namespace Environment

/-- An environment has all layers of another one, which stands around it. -/
def LayeredOn (env base : Environment) : Prop := base.layers <:+ env.layers

theorem layeredOn_of_outer {env base : Environment} (h : env.outer = base.layers) :
    env.LayeredOn base := by
  refine ⟨[env.inner], ?_⟩
  rw [← h]
  rfl

theorem LayeredOn.isSecret {env base : Environment} {layer : Layer} {name : String}
    (h : env.LayeredOn base) (hlayer : layer ∈ base.layers) (hname : name ∈ layer.secrets) :
    env.isSecret name = true := by
  have hdeclared : env.DeclaredSecret name := ⟨layer, h.subset hlayer, .inl hname⟩
  exact isSecret_iff.2 ⟨name, .refl, declaresSecret_iff.2 hdeclared⟩

end Environment

theorem Layer.mem_secrets_setAll {layer : Layer} {name : String} (h : name ∈ layer.secrets)
    (entries : List (String × Variable)) : name ∈ (layer.setAll entries).secrets := by
  induction entries generalizing layer with
  | nil => exact h
  | cons entry entries ih => exact ih (Layer.mem_secrets_set h entry.2)

/-- What a step sets under a name that it says is secret is secret in an environment and in all that
it stands around. -/
def Exchange.ConcealedIn (x : Exchange) (base : Environment) : Prop :=
  ∀ (s : Step) (name : String), x.call.step? = some s → s.SetsSecret name → x.Sets name →
    ∀ env : Environment, env.LayeredOn base → env.isSecret name = true

theorem Exchange.concealedIn_of_guarded {x : Exchange} {base : Environment} {s : Step}
    {steps : List Step} {layer : Layer} (hstep : x.call.step? = some s) (hs : s ∈ steps)
    (hguarded : Step.Guarded steps layer.secrets) (hlayer : layer ∈ base.layers) :
    x.ConcealedIn base := by
  intro s' name hstep' hsecret _ env hlayered
  cases hstep.symm.trans hstep'
  exact hlayered.isSecret hlayer (hguarded s hs name hsecret)

theorem Exchange.written_ne_nil {x : Exchange} {name : String} (hphase : x.phase ≠ .scenario)
    (h : x.Sets name) : x.written ≠ [] := by
  obtain ⟨kind, value, hcaptures⟩ := h
  have hmem := mem_outputs_iff.2 ⟨kind, value, hcaptures, rfl⟩
  rw [written]
  cases hx : x.phase with
  | scenario => exact absurd hx hphase
  | prepare => exact List.ne_nil_of_mem hmem
  | cleanup => exact List.ne_nil_of_mem hmem

/-! ### Scopes -/

/-- A scope keeps secret what its steps say they set secrets under. -/
def RuntimeScope.Guards (scope : RuntimeScope) : Prop :=
  Step.Guarded (scope.prepareSteps ++ scope.cleanupSteps) scope.declared.secrets

namespace RuntimeScope

variable {scope scope' : RuntimeScope} {calls : List Exchange} {x : Exchange}

theorem Writes.guards (h : scope.Writes calls scope') (hguards : scope.Guards) : scope'.Guards := by
  rw [h.changes]
  exact hguards

theorem guards_build {definition : Definition} {key : String} {caller : Environment}
    {g g' : Suffixes} (h : build definition key caller g = .ok (scope, g'))
    (hguards : definition.Guards) : scope.Guards := by
  obtain ⟨layer, -, h⟩ := exists_of_bind_eq_ok h
  cases h
  exact hguards.own.mono fun name hname => Layer.mem_secrets_foldl_markSecret.2 (.inr hname)

theorem Writes.maintains (h : scope.Writes calls scope') (hmaintains : x.Maintains scope) :
    x.Maintains scope' := by
  rw [h.changes]
  exact hmaintains

/-- What the steps of a scope set is concealed in it. -/
theorem Guards.concealedIn (h : scope.Guards) (hmaintains : x.Maintains scope) :
    x.ConcealedIn scope.environment := by
  obtain ⟨s, hstep, hs⟩ := hmaintains
  have hmem : s ∈ scope.prepareSteps ++ scope.cleanupSteps :=
    List.mem_append.2 (hs.imp (·.2) (·.2))
  exact Exchange.concealedIn_of_guarded hstep hmem h (List.mem_cons_of_mem _ List.mem_cons_self)

/-- What was set in a scope stays concealed while more is written to it. -/
theorem Guards.concealedIn_of_sets {before : List Exchange} (h : scope.Guards)
    (hmaintained : scope.Maintained before) (hwrites : scope.Writes calls scope') (hx : x ∈ before)
    (hphase : x.phase ≠ .scenario) : x.ConcealedIn scope'.environment := by
  intro s name hstep hsecret hsets
  have hmaintains := hmaintained.maintains x hx (Exchange.written_ne_nil hphase hsets)
  exact (hwrites.guards h).concealedIn (hwrites.maintains hmaintains) s name hstep hsecret hsets

end RuntimeScope

namespace Session

variable {session opened : Session} {client : Client} {definition : Definition}
  {scenario : Scenario} {caller : Environment} {scope : RuntimeScope} {key : String}

/-- The sessions that runs of compiled scenarios lead to. -/
inductive Rehearsed (client : Client) : Session → Prop
  | new (options : Options) (suffixes : Suffixes) : Rehearsed client { options, suffixes }
  | run {session : Session} (h : Rehearsed client session) {sources : Sources}
      {draft : Draft.Definition} {path : String} {definition : Definition}
      (compiles : sources.compile draft path = .ok definition) {scenario : Scenario}
      (among : scenario ∈ definition.scenarios) (caller : Environment) :
      Rehearsed client (session.runScenario client definition scenario caller).session

theorem Rehearsed.reached (h : Rehearsed client session) : ∃ reports, Reached client session reports := by
  induction h with
  | new options suffixes => exact ⟨[], .new options suffixes⟩
  | run _ _ _ _ ih =>
    obtain ⟨reports, hreached⟩ := ih
    exact ⟨_, hreached.run _ _ _⟩

/-- What scopes have when they are built for a compiled definition, and keep whatever is written to
them, all scopes have. -/
theorem Rehearsed.of_scope {P : RuntimeScope → Prop} (h : Rehearsed client session)
    (built : ∀ {sources : Sources} {draft : Draft.Definition} {path : String} {definition : Definition}
      {key : String} {caller : Environment} {g g' : Suffixes} {scope : RuntimeScope},
      sources.compile draft path = .ok definition →
      RuntimeScope.build definition key caller g = .ok (scope, g') → P scope)
    (writes : ∀ {scope scope' : RuntimeScope} {calls : List Exchange}, P scope →
      scope.Writes calls scope' → P scope') :
    ∀ key scope, session.scopes.get? key = some scope → P scope := by
  induction h with
  | new options suffixes => exact nofun
  | @run session hrehearsed sources draft path definition compiles scenario _ caller ih =>
    obtain ⟨reports, hreached⟩ := hrehearsed.reached
    obtain ⟨calls, hdevelops⟩ := hreached.develops_runScenario definition scenario caller
    intro key scope hfound
    -- A run keeps the scopes that are there, and builds at most one, from its definition.
    cases hknown : session.scopes.get? key with
    | some before =>
      obtain ⟨scope', hafter, hwrites⟩ := hdevelops.known key before hknown
      cases hfound.symm.trans hafter
      exact writes (ih key before hknown) hwrites
    | none =>
      obtain ⟨-, g, g', new, hbuilt, hwrites⟩ := hdevelops.new key scope hknown hfound
      exact writes (built compiles hbuilt) hwrites

theorem Rehearsed.guards (h : Rehearsed client session) :
    ∀ key scope, session.scopes.get? key = some scope → scope.Guards :=
  h.of_scope
    (fun compiles hbuilt => RuntimeScope.guards_build hbuilt (Sources.guards_compile compiles))
    fun hguards hwrites => hwrites.guards hguards

theorem Rehearsed.guards_of_opens (h : Rehearsed client session)
    (hopens : session.Opens definition caller key scope opened)
    (hguards : definition.Guards) : scope.Guards := by
  rcases hopens.source with hold | ⟨-, g, g', hbuilt⟩
  · exact h.guards key scope hold
  · exact RuntimeScope.guards_build hbuilt hguards

end Session

/-! ### Runs -/

namespace Run

variable {options : Options} {client : Client} {scenario : Scenario} {run mid : Run}
  {calls : List Exchange}

theorem environment_of_ne {phase : Phase} (h : phase ≠ .scenario) :
    run.environment phase = run.scope.environment := by
  cases phase with
  | scenario => exact absurd rfl h
  | prepare | cleanup => rfl

/-- The scope stands around what is visible in a phase. -/
theorem layeredOn_environment (run : Run) (phase : Phase) :
    (run.environment phase).LayeredOn run.scope.environment := by
  cases phase with
  | scenario => exact Environment.layeredOn_of_outer rfl
  | prepare | cleanup => exact ⟨[], rfl⟩

/-- What is exchanged until some moment of a run is among the calls of the run. -/
theorem exists_course (h : run.Wrote calls mid)
    (hrest : mid.Moves client (perform options client scenario run).2) :
    ∃ calls' reports status result,
      Course options scenario run calls' reports status result ∧ calls <+: calls' := by
  obtain ⟨later, hlater⟩ := hrest.wrote
  obtain ⟨calls', reports, status, hadvances, hcourse⟩ := course_perform options client scenario run
  refine ⟨calls', reports, status, _, hcourse, later, ?_⟩
  have htrace := hadvances.trace.symm.trans hlater.trace
  rw [h.trace, List.append_assoc] at htrace
  exact (List.append_cancel_left htrace).symm

/-- At every moment of a run, what its steps have set by then is concealed where they set it. -/
theorem Wrote.concealedIn (h : run.Wrote calls mid)
    (hrest : mid.Moves client (perform options client scenario run).2)
    (hscope : run.scope.Guards) (hlayer : Step.Guarded scenario.steps run.layer.secrets)
    {x : Exchange} (hx : x ∈ calls) : x.ConcealedIn (mid.environment x.phase) := by
  obtain ⟨calls', reports, status, result, hcourse, hpart⟩ := exists_course h hrest
  -- The call was made for no step, for one of the scope, or for one of the scenario.
  rcases hcourse.of_mem (hpart.subset hx) with hnone | hmaintains | ⟨hphase, s, hs, hstep⟩
  · intro s name hstep
    rw [hnone] at hstep
    cases hstep
  · have hphase : x.phase ≠ .scenario := by
      obtain ⟨s, -, ⟨hphase, -⟩ | ⟨hphase, -⟩⟩ := hmaintains
      · rw [hphase]
        decide
      · rw [hphase]
        decide
    rw [environment_of_ne hphase]
    exact (h.scope.guards hscope).concealedIn (h.scope.maintains hmaintains)
  · have hguarded : Step.Guarded scenario.steps mid.layer.secrets := by
      rw [h.layer]
      exact hlayer.mono fun name hname => Layer.mem_secrets_setAll hname _
    rw [hphase]
    exact Exchange.concealedIn_of_guarded hstep hs hguarded List.mem_cons_self

end Run

namespace Session

variable {session opened : Session} {client : Client} {scenario : Scenario} {scope : RuntimeScope}
  {run : Run}

/-- A scenario starts with all that is listed kept secret. -/
theorem guarded_start (starts : opened.start scenario scope = .ok run)
    (hguarded : Step.Guarded scenario.steps scenario.vars.secrets) :
    Step.Guarded scenario.steps run.layer.secrets := by
  obtain ⟨layer, hwithin, henv⟩ := environment_start starts
  have hlayer : run.layer = (layer.materialize opened.suffixes).1 :=
    congrArg Environment.inner henv
  have hlisted : scenario.vars.secrets ⊆ layer.secrets :=
    fun name hname => Layer.mem_secrets_within hwithin hname
  rw [hlayer]
  exact hguarded.mono hlisted

/-- **What is set under a name that is said to be secret is secret.** Let runs of compiled scenarios
lead to a session. Then what steps have set in a scope by then is concealed in it, and at every moment
of a further run what steps have set by then is concealed where they set it: in the scope, no matter
in which run they did, and among the variables of the scenario. The environments of a scenario and of
a step are layered on these. -/
theorem Rehearsed.conceals (h : Rehearsed client session) :
    (∀ key scope, session.scopes.get? key = some scope →
      ∀ x ∈ callsOn key session.trace, x.phase ≠ .scenario → x.ConcealedIn scope.environment) ∧
    (∀ (sources : Sources) draft path definition scenario caller opened scope run,
      sources.compile draft path = .ok definition → scenario ∈ definition.scenarios →
      session.openScope definition scenario caller = (.ok scope, opened) →
      opened.start scenario scope = .ok run →
      ∀ options (mid : Run), run.Moves client mid →
        mid.Moves client (Run.perform options client scenario run).2 →
        (∀ x ∈ callsOn scope.name mid.trace, x.phase ≠ .scenario →
          x.ConcealedIn mid.scope.environment) ∧
        ∀ calls, mid.trace = run.trace ++ calls →
          ∀ x ∈ calls, x.ConcealedIn (mid.environment x.phase)) ∧
    ∀ options phase s (run : Run) (env : Environment) after,
      Run.stepEnvironment options phase s run = (.ok env, after) →
      env.LayeredOn (run.environment phase) ∧
        (run.environment phase).LayeredOn run.scope.environment := by
  obtain ⟨reports, hreached⟩ := h.reached
  refine ⟨fun key scope hfound x hx hphase => ?_, ?_, fun options phase s run env after hbuilt => ?_⟩
  · exact (h.guards key scope hfound).concealedIn_of_sets (hreached.maintained.known key scope hfound)
      (.refl scope) hx hphase
  · intro sources draft path definition scenario caller opened scope run compiles among opens starts
      options mid hmoves hrest
    have hcompiled := Sources.guards_compile compiles
    have hopens := opens_openScope opens
    obtain ⟨-, -, hscope, htrace, -⟩ := start_eq_ok starts
    have hguards : run.scope.Guards := hscope ▸ h.guards_of_opens hopens hcompiled
    have hlayer := guarded_start starts (hcompiled.scenarios scenario among)
    obtain ⟨calls, hwrote⟩ := hmoves.wrote
    constructor
    · -- Either an earlier run set it, or this one did so by now.
      intro x hx hphase
      rw [hwrote.trace, htrace, hopens.trace, callsOn_append] at hx
      rcases List.mem_append.1 hx with hx | hx
      · have hmaintained := hreached.maintained_of_opens hopens
        rw [← hscope] at hmaintained hx
        exact hguards.concealedIn_of_sets hmaintained hwrote.scope hx hphase
      · have hconcealed := hwrote.concealedIn hrest hguards hlayer (List.mem_of_mem_filter hx)
        rwa [Run.environment_of_ne hphase] at hconcealed
    · intro calls' htrace' x hx
      rw [List.append_cancel_left (htrace'.symm.trans hwrote.trace)] at hx
      exact hwrote.concealedIn hrest hguards hlayer hx
  · obtain ⟨houter, -⟩ := Run.stepEnvironment_frame hbuilt
    exact ⟨Environment.layeredOn_of_outer houter, run.layeredOn_environment phase⟩

/-! ### A secret under a name that is declared as a text -/

/-- A step of a draft whose script brings a secret. -/
def fetchingKey : Draft.Step where
  name := some "key"
  script := some "f.sh"
  outputVariables := Dict.ofList [("key", { kind := some .secureString })]

/-- A draft with this step, which declares a text under the name of the secret. -/
def keyFetched : Draft.Definition where
  scope := some "None"
  vars := Dict.ofList [("key", .brief "none")]
  prepareSteps := [fetchingKey]
  scenarios := [{ steps := [fetchingKey] }]

/-- What the step is compiled to. -/
def fetchingIn (phase : Phase) : Step :=
  .deployment
    { header :=
        { name := "key", phase, outputs := Dict.ofList [("key", { kind := .secureString })] }
      template := Script.template { name := "key", kind := .commandLine, content := "" }
      sourceFile := "f.sh"
      scriptKind := some .commandLine }

/-- What the scenario is compiled to. -/
def fetchingOnce : Scenario where
  position := 0
  name := "scenario_0"
  steps := [fetchingIn .scenario]
  vars :=
    { vars := Dict.ofList [("key", .placeholder .secureString)]
      secrets := ["key"] }

/-- What the draft is compiled to. -/
def fetchingFirst : Definition where
  scope := .unscoped
  prepareSteps := [fetchingIn .prepare]
  scenarios := [fetchingOnce]
  vars :=
    { vars := Dict.ofList [("key", .string "none")]
      secrets := ["key"] }
  filePath := "f"

theorem compile_keyFetched : Compile.emptyFiles.compile keyFetched "f" = .ok fetchingFirst := by
  cbv

/-- A run of the scenario that leaves placeholders to the client. -/
def fetchingRun : Result :=
  runScenario { options := { resolveVariables := false }, suffixes := ⟨[], 0⟩ } answering
    fetchingFirst fetchingOnce supplied

theorem rehearsed_fetchingRun : Rehearsed answering fetchingRun.session :=
  (Rehearsed.new _ _).run compile_keyFetched List.mem_cons_self supplied

/-- Behind the run its scope has the secret, and knows that it is one. -/
theorem conceals_fetchingRun : ∃ scope x s,
    fetchingRun.session.scopes.get? "f#default" = some scope ∧
      x ∈ callsOn "f#default" fetchingRun.session.trace ∧ x.call.step? = some s ∧
      s.SetsSecret "key" ∧ x.Sets "key" ∧ scope.environment.isSecret "key" = true := by
  have hcheck : (fetchingRun.session.scopes.get? "f#default").any (fun _ =>
      (callsOn "f#default" fetchingRun.session.trace).any fun x =>
        x.phase == .prepare && bringsInt x "key" 5 && x.call.step?.any fun s =>
          (s.header.outputs.get? "key").any (·.kind.isSecure)) = true := by
    decide +kernel
  obtain ⟨scope, hfound, hscope⟩ := (Option.any_eq_true _ _).1 hcheck
  obtain ⟨x, hx, hexchange⟩ := List.any_eq_true.1 hscope
  rw [Bool.and_eq_true, Bool.and_eq_true, beq_iff_eq, Option.any_eq_true] at hexchange
  obtain ⟨⟨hphase, hbrings⟩, s, hstep, houtputs⟩ := hexchange
  have hsecret : s.SetsSecret "key" := .inl ((Option.any_eq_true _ _).1 houtputs)
  obtain ⟨kind, hcaptures⟩ := captures_of_bringsInt hbrings
  have hsets : x.Sets "key" := ⟨kind, _, hcaptures⟩
  obtain ⟨hscopes, -⟩ := Rehearsed.conceals rehearsed_fetchingRun
  refine ⟨scope, x, s, hfound, hx, hstep, hsecret, hsets, ?_⟩
  exact hscopes _ scope hfound x hx (by rw [hphase]; decide) s "key" hstep hsecret hsets _
    (List.suffix_refl _)

end Session

end Rehearsal
