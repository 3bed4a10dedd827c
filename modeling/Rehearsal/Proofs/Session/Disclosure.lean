import Rehearsal.Proofs.Environment.Masking
import Rehearsal.Proofs.Environment.Secrecy
import Rehearsal.Proofs.Run.Failure
import Rehearsal.Proofs.Session.Report

/-!
# What the report on a failed step discloses

Why a step failed is told twice: in the report on the step, where the secrets of the environment
that it failed in are covered, and in the report on its run, where the secrets are covered that the
scenario knows at the end. So the report on the step shows no secret of its environment, and the
report on the run may: it hides what contains a secret value that the scenario has at the end, and
no more. A secret that only the step declares is told (`Session.runScenario_masks`).
-/

namespace Rehearsal

namespace RunError

/-- The wording of an error has the wording of each failure it is about. -/
theorem occurs_message_of_mem_parts {part e : RunError} (h : part ∈ e.parts) :
    Occurs part.message e.message := by
  cases e with
  | cleanupAfterFailure scenario failure cleanup =>
    rcases List.mem_cons.1 h with rfl | h
    · exact (((Occurs.refl _).append_left _).append_right _).append_right _
    · rw [List.mem_singleton.1 h]
      exact (Occurs.refl _).append_left _
  | _ =>
    rw [List.mem_singleton.1 h]
    exact .refl _

theorem occurs_message_step (scenario step : String) (cause : RunError) :
    Occurs cause.message (RunError.step scenario step cause).message :=
  (Occurs.refl _).append_left _

end RunError

namespace Session

variable {session : Session} {client : Client} {definition : Definition} {scenario : Scenario}
  {caller : Environment}

/-- A step that fails in a run of a scenario. -/
structure StepFailure (session : Session) (client : Client) (definition : Definition)
    (scenario : Scenario) (caller : Environment) where
  /-- The scope of the run. -/
  scope : RuntimeScope
  /-- The session with the scope. -/
  opened : Session
  /-- The run before its first step. -/
  run : Run
  /-- The phase of the step. -/
  phase : Phase
  /-- The steps of the phase. -/
  steps : List Step
  /-- The run when the phase begins. -/
  start : Run
  /-- The step. -/
  step : Step
  /-- The run when the step begins. -/
  before : Run
  /-- The environment that the step fails in. -/
  env : Environment
  /-- Why it fails. -/
  error : RunError
  opens : session.openScope definition scenario caller = (.ok scope, opened)
  starts : opened.start scenario scope = .ok run
  ready : client.answer run.trace (.prepare scenario (run.environment .scenario)) = .ok ()
  begins : Run.Begins session.options client scenario (run.exchanged (run.readiness scenario (.ok ())))
    phase steps start
  gets : Run.GetsTo session.options client phase step before steps start
  fails : Run.FailsIn session.options client phase step before env error

namespace StepFailure

/-- The report on the step. -/
def report (f : StepFailure session client definition scenario caller) : StepReport :=
  Run.failure f.phase f.step f.env f.error

/-- What is visible to the scenario when its run is over. -/
def final (f : StepFailure session client definition scenario caller) : Environment :=
  (Run.perform session.options client scenario f.run).2.environment .scenario

end StepFailure

/-- What a run is like that is performed. -/
theorem runScenario_of_perform (client : Client) {scope : RuntimeScope} {opened : Session} {run : Run}
    (opens : session.openScope definition scenario caller = (.ok scope, opened))
    (starts : opened.start scenario scope = .ok run) :
    (session.runScenario client definition scenario caller).outcome =
        (Run.perform session.options client scenario run).1 ∧
      (session.runScenario client definition scenario caller).report.steps =
        (Run.perform session.options client scenario run).2.steps ∧
      ∀ failure, (Run.perform session.options client scenario run).1 = .error failure →
        (session.runScenario client definition scenario caller).report.error =
          some (((Run.perform session.options client scenario run).2.environment .scenario).mask
            failure.message) := by
  have hoptions := (opens_openScope opens).options
  rw [runScenario, opens]
  dsimp only
  rw [starts]
  dsimp only
  rw [hoptions]
  rcases Run.perform session.options client scenario run with ⟨outcome, last⟩
  refine ⟨rfl, rfl, ?_⟩
  rintro failure rfl
  rfl

/-- The steps that are reported to have failed are those that fail. -/
theorem mem_failed_iff {r : StepReport} :
    (r ∈ (session.runScenario client definition scenario caller).report.steps ∧
        r.status = .failed) ↔
      ∃ f : StepFailure session client definition scenario caller, f.report = r := by
  constructor
  · rintro ⟨hmem, hr⟩
    have hruns := session.runs_runScenario client definition scenario caller
    generalize session.runScenario client definition scenario caller = result at hruns hmem
    cases hruns with
    | unopened => cases hmem
    | unstarted => cases hmem
    | @performed opened scope run last outcome opens starts performs error =>
      rw [(opens_openScope opens).options] at performs
      obtain ⟨-, -, -, -, hnone⟩ := start_eq_ok starts
      change r ∈ last.steps at hmem
      cases hanswer : client.answer run.trace (.prepare scenario (run.environment .scenario)) with
      | error reason =>
        rw [Run.perform_of_rejected hanswer] at performs
        cases performs
        change r ∈ run.steps at hmem
        rw [hnone] at hmem
        cases hmem
      | ok _ =>
        have hfails := (Run.mem_perform_iff hr session.options hanswer).1
        rw [performs, hnone] at hfails
        obtain ⟨phase, steps, start, begins, s, before, env, e, gets, fails, rfl⟩ :=
          (hfails hmem).resolve_left List.not_mem_nil
        exact ⟨⟨scope, opened, run, phase, steps, start, s, before, env, e, opens, starts, hanswer,
          begins, gets, fails⟩, rfl⟩
  · rintro ⟨f, rfl⟩
    refine ⟨?_, rfl⟩
    rw [(runScenario_of_perform client f.opens f.starts).2.1,
      Run.mem_perform_iff rfl session.options f.ready]
    exact .inr ⟨f.phase, f.steps, f.start, f.begins, f.step, f.before, f.env, f.error, f.gets,
      f.fails, rfl⟩

namespace StepFailure

/-- The error of a run tells why its step failed, with the secrets covered that the scenario has at
the end. -/
theorem exists_failure (f : StepFailure session client definition scenario caller) :
    ∃ failure, (session.runScenario client definition scenario caller).outcome = .error failure ∧
      .step scenario.name f.step.name f.error ∈ failure.parts ∧
      (session.runScenario client definition scenario caller).report.error =
        some (f.final.mask failure.message) := by
  obtain ⟨houtcome, -, herror⟩ := runScenario_of_perform client f.opens f.starts
  obtain ⟨failure, hfailure, hparts⟩ := f.begins.exists_failure f.ready f.gets f.fails
  rw [(start_eq_ok f.starts).1] at hparts
  exact ⟨failure, houtcome.trans hfailure, hparts, herror failure hfailure⟩

/-- What contains a secret value that the scenario has at the end is not in the error. -/
theorem not_occurs_error (f : StepFailure session client definition scenario caller)
    {shown secret part : String}
    (hshown : (session.runScenario client definition scenario caller).report.error = some shown)
    (hstar : '*' ∉ part.toList) (hsecret : f.final.SecretValue secret) (hpart : Occurs secret part) :
    ¬ Occurs part shown := by
  obtain ⟨failure, -, -, herror⟩ := f.exists_failure
  rw [hshown] at herror
  rw [Option.some.inj herror]
  exact Environment.not_occurs_mask_of_occurs hstar hsecret hpart failure.message

/-- What contains no secret value that the scenario has at the end is in the error, if the message
of the step sets it off. -/
theorem occurs_error (f : StepFailure session client definition scenario caller)
    {shown part : String} {mark : Char}
    (hshown : (session.runScenario client definition scenario caller).report.error = some shown)
    (hsecrets : ∀ secret, f.final.SecretValue secret → mark ∉ secret.toList ∧ ¬ Occurs secret part)
    (hpart : SetOff mark part f.error.message) : Occurs part shown := by
  obtain ⟨failure, -, hparts, herror⟩ := f.exists_failure
  rw [hshown] at herror
  rw [Option.some.inj herror]
  refine (Environment.setOff_mask hsecrets ?_).occurs
  exact (hpart.trans (RunError.occurs_message_step _ _ _)).trans
    (RunError.occurs_message_of_mem_parts hparts)

end StepFailure

/-- What a run tells of a step that fails in it. -/
structure StepFailure.Told (f : StepFailure session client definition scenario caller)
    (result : Result) : Prop where
  reported : f.report ∈ result.report.steps
  covered : ∀ secret, f.env.SecretValue secret → '*' ∉ secret.toList →
    ¬ Occurs secret (f.env.mask f.error.message)
  fails : ∃ failure, result.outcome = .error failure ∧
    .step scenario.name f.step.name f.error ∈ failure.parts ∧
    result.report.error = some (f.final.mask failure.message)
  hidden : ∀ shown, result.report.error = some shown → ∀ part, '*' ∉ part.toList →
    (∃ secret, f.final.SecretValue secret ∧ Occurs secret part) → ¬ Occurs part shown
  occurs_iff : ∀ shown, result.report.error = some shown → ∀ mark part, '*' ∉ part.toList →
    (∀ secret, f.final.SecretValue secret → mark ∉ secret.toList) →
    SetOff mark part f.error.message →
    (Occurs part shown ↔ ∀ secret, f.final.SecretValue secret → ¬ Occurs secret part)

/-- **The report on a step hides the secrets of the step, and the report on the run those of the
scenario.** Each step that is reported to have failed has failed in an environment, and its message
shows no secret value of it that has no star. The error of the run tells of the failure again and
shows no secret value that the scenario has at the end; but a secret of the step that contains none
of these is shown where the message of the step sets it off. -/
theorem runScenario_masks (session : Session) (client : Client) (definition : Definition)
    (scenario : Scenario) (caller : Environment) :
    (∀ r, (r ∈ (session.runScenario client definition scenario caller).report.steps ∧
          r.status = .failed) ↔
        ∃ f : StepFailure session client definition scenario caller, f.report = r) ∧
      ∀ f : StepFailure session client definition scenario caller,
        f.Told (session.runScenario client definition scenario caller) := by
  refine ⟨fun r => mem_failed_iff, fun f => ?_⟩
  constructor
  case reported => exact (mem_failed_iff.2 ⟨f, rfl⟩).1
  case covered =>
    intro secret hsecret hstar
    exact Environment.not_occurs_mask hsecret hstar f.error.message
  case fails => exact f.exists_failure
  case hidden =>
    rintro shown hshown part hstar ⟨secret, hsecret, hpart⟩
    exact f.not_occurs_error hshown hstar hsecret hpart
  case occurs_iff =>
    intro shown hshown mark part hstar hmark hpart
    constructor
    · intro hmem secret hsecret hin
      exact f.not_occurs_error hshown hstar hsecret hin hmem
    · intro hnone
      exact f.occurs_error hshown (fun secret h => ⟨hmark secret h, hnone secret h⟩) hpart

/-! ### A secret that is told -/

theorem not_secretValue {env : Environment} {secret : String}
    (h : ∀ layer ∈ env.layers, layer.secrets = [] ∧
      ∀ n ∈ layer.vars.names, layer.declaresSecret n = false) : ¬ env.SecretValue secret := by
  rintro ⟨-, name, -, hsecret, -⟩
  obtain ⟨declared, -, hdeclares⟩ := Environment.isSecret_iff.1 hsecret
  obtain ⟨layer, hlayer, hnamed⟩ := List.any_eq_true.1 hdeclares
  obtain ⟨hnone, hvars⟩ := h layer hlayer
  by_cases hbound : declared ∈ layer.vars.names
  · rw [hvars declared hbound] at hnamed
    cases hnamed
  · rw [Dict.mem_names_iff, Dict.contains, Option.not_isSome_iff_eq_none] at hbound
    simp [Layer.declaresSecret, hnone, hbound] at hnamed

/-- A step with a secret that becomes the name of a variable. -/
def telling : Step :=
  .deployment
    { header :=
        { name := "s"
          vars :=
            { vars := Dict.ofList [("key", .secureString "hunter2"), ("url", .string "$($(key))")]
              secrets := ["key"] } }
      template := { resources := [.str "$(url)"] }
      sourceFile := "f" }

/-- A scenario with this step. -/
def tellingOnce : Scenario := { position := 0, name := "a", steps := [telling] }

/-- The step fails in an environment with one secret, which its message has, and the scenario has no
secrets. -/
theorem exists_telling : ∃ f : StepFailure fresh obliging bare tellingOnce supplied,
    f.error = .variable (.missing "hunter2") ∧ f.env.declaresSecret "key" = true ∧
      f.env.shownText "key" = some "hunter2" ∧
      (∀ n ∈ f.env.names, ∀ text ∈ f.env.shownText n, '*' ∉ text.toList) ∧
      ∀ layer ∈ f.final.layers, layer.secrets = [] ∧
        ∀ n ∈ layer.vars.names, layer.declaresSecret n = false := by
  have hcheck : okAnd (fresh.openScope bare tellingOnce supplied) (fun scope opened =>
      (opened.start tellingOnce scope).toOption.any fun run =>
        okAnd (Run.provision {} obliging (run.exchanged (run.readiness tellingOnce (.ok ()))))
          fun _ provisioned =>
            okAnd (Run.stepEnvironment {} .scenario telling provisioned) fun env ready =>
              match Run.dispatch {} obliging .scenario telling env ready with
              | (.ok _, _) => false
              | (.error e, _) =>
                decide (e = .variable (.missing "hunter2") ∧ env.declaresSecret "key" = true ∧
                  env.shownText "key" = some "hunter2" ∧
                  (∀ n ∈ env.names, ∀ text ∈ env.shownText n, '*' ∉ text.toList) ∧
                  ∀ layer ∈ ((Run.perform {} obliging tellingOnce run).2.environment .scenario).layers,
                    layer.secrets = [] ∧
                      ∀ n ∈ layer.vars.names, layer.declaresSecret n = false)) = true := by
    decide +kernel
  obtain ⟨scope, opened, opens, hstart⟩ := exists_of_okAnd hcheck
  obtain ⟨run, starts, hrun⟩ := exists_ok_of_any hstart
  obtain ⟨_, provisioned, provisions, hprovisioned⟩ := exists_of_okAnd hrun
  obtain ⟨env, ready, builds, hready⟩ := exists_of_okAnd hprovisioned
  rcases does : Run.dispatch {} obliging .scenario telling env ready with ⟨e | message, after⟩
  · rw [does] at hready
    exact ⟨⟨scope, opened, run, .scenario, [telling], provisioned, telling, provisioned, env, e,
      opens, starts, rfl, .scenario provisions, .now, .undone builds does⟩, of_decide_eq_true hready⟩
  · rw [does] at hready
    cases hready

/-- The apostrophe. -/
def quote : Char := Char.ofNat 39

theorem setOff_telling :
    SetOff quote "hunter2" (RunError.variable (.missing "hunter2")).message :=
  ⟨"missing variable ".toList, [], by decide +kernel⟩

theorem secretValue_key {env : Environment} (hdeclares : env.declaresSecret "key" = true)
    (hshown : env.shownText "key" = some "hunter2") : env.SecretValue "hunter2" := by
  obtain ⟨value, hvalue, htext⟩ := Option.map_eq_some_iff.1 hshown
  exact ⟨by decide, "key", value, Environment.isSecret_iff.2 ⟨"key", .refl, hdeclares⟩, hvalue,
    htext.symm⟩

theorem runScenario_masks_telling : ∃ f : StepFailure fresh obliging bare tellingOnce supplied,
    f.env.SecretValue "hunter2" ∧ SetOff quote "hunter2" f.error.message ∧
      f.Told (fresh.runScenario obliging bare tellingOnce supplied) := by
  obtain ⟨f, herror, hdeclares, hshown, -, -⟩ := exists_telling
  exact ⟨f, secretValue_key hdeclares hshown, herror ▸ setOff_telling,
    (runScenario_masks fresh obliging bare tellingOnce supplied).2 f⟩

/-- The report on the run has the secret that the report on its step covers. -/
theorem not_forall_masks :
    ¬ ∀ (session : Session) (client : Client) (definition : Definition) (scenario : Scenario)
      (caller : Environment) (f : StepFailure session client definition scenario caller),
      (∀ secret, f.env.SecretValue secret → '*' ∉ secret.toList) →
      ∀ secret, f.env.SecretValue secret →
        ¬ Occurs secret (f.env.mask f.error.message) ∧
        ∀ shown, (session.runScenario client definition scenario caller).report.error = some shown →
          ¬ Occurs secret shown := by
  intro hall
  obtain ⟨f, herror, hdeclares, hshown, hstar, hnone⟩ := exists_telling
  have hclean : ∀ secret, f.env.SecretValue secret → '*' ∉ secret.toList := by
    rintro secret ⟨-, name, value, -, hvalue, rfl⟩
    exact hstar name (Environment.mem_names_of_value? hvalue) _
      (Option.map_eq_some_iff.2 ⟨value, hvalue, rfl⟩)
  obtain ⟨failure, -, -, htold⟩ := f.exists_failure
  have hhidden := (hall fresh obliging bare tellingOnce supplied f hclean "hunter2"
    (secretValue_key hdeclares hshown)).2 _ htold
  exact hhidden (f.occurs_error htold (fun secret h => absurd h (not_secretValue hnone))
    (herror ▸ setOff_telling))

end Session

end Rehearsal
