import Rehearsal.Proofs.Compile.Content
import Rehearsal.Proofs.Environment.Leftover
import Rehearsal.Proofs.Placeholder.Fixed
import Rehearsal.Proofs.Session.Outputs

/-!
# What a client gets of a script

The text of a script is put into a template by the compiler and handed over by a run. In between the
template is resolved, unless placeholders are left to the client, and the text of the script is
resolved with it: what looks like a placeholder in it is one, and anything else is left alone
(`Session.Rehearsed.carries`).

* `Environment.Fills`: a text with its placeholders filled in;
* `Session.Rehearsed.compiled`, `Session.Reached.formed`: where the steps and the documents come from
  that reach a client.
-/

namespace Rehearsal

/-! ### A text that is resolved -/

open Placeholder (pieces replacement) in
/-- A value is a text with its placeholders filled in. Each of them has a value, whose text takes its
place, and all characters outside of them stay. A text that is nothing but a placeholder becomes the
value itself, and any other text is still a text. -/
structure Environment.Fills (env : Environment) (text : String) (value : Json) : Prop where
  resolves : env.resolveText text = .ok value
  bound : ∀ name ∈ Placeholder.names text, ∃ json, env.lookup .strict [] name = .ok (some json)
  replaces : value.plainText.toList = (pieces text).flatMap (replacement (env.lookup .strict []))
  whole : ∀ name, pieces text = [.token name] → env.lookup .strict [] name = .ok (some value)
  mixed : (∀ name, pieces text ≠ [.token name]) → ∃ filled, value = .str filled

theorem Environment.fills_of_resolveText {env : Environment} {text : String} {value : Json}
    (h : env.resolveText text = .ok value) : env.Fills text value := by
  have hsubstitute : Placeholder.substitute (env.lookup .strict []) text = .ok value := h
  have hfollows := Placeholder.follows_substitute (env.lookup .strict []) text
  rw [hsubstitute] at hfollows
  have hbound : ∀ name ∈ Placeholder.names text,
      ∃ json, env.lookup .strict [] name = .ok (some json) := by
    intro name hname
    obtain ⟨found, hfound⟩ := hfollows name hname
    obtain ⟨-, json, -, rfl, -, -⟩ := exists_value_of_lookup hfound
    exact ⟨json, hfound⟩
  refine ⟨h, hbound, Placeholder.toList_plainText_of_substitute hbound hsubstitute, ?_, ?_⟩
  · intro name hpieces
    obtain ⟨json, hjson⟩ := hbound name (Placeholder.mem_names_iff.2 (by simp [hpieces]))
    rw [Placeholder.substitute, hpieces] at hsubstitute
    simp only [hjson] at hsubstitute
    cases hsubstitute
    exact hjson
  · intro hmixed
    rw [Placeholder.substitute] at hsubstitute
    split at hsubstitute
    · next name hpieces => exact absurd hpieces (hmixed name)
    · obtain ⟨texts, -, rfl⟩ := exists_of_map_eq_ok hsubstitute
      exact ⟨_, rfl⟩

/-- A text without placeholders is filled in already. -/
theorem Environment.Fills.eq_of_names_eq_nil {env : Environment} {text : String} {value : Json}
    (h : env.Fills text value) (hnames : Placeholder.names text = []) : value = .str text := by
  have hresolve : env.resolveText text = .ok (.str text) := Json.traverse_of_no_placeholders hnames
  exact Except.ok.inj (h.resolves.symm.trans hresolve)

/-- What a deployment has in the place of a script is the text of the script, filled in unless
placeholders are left to the client. -/
theorem Call.Formed.exists_scriptContent {options : Options} {step : DeploymentStep} {template : Json}
    {deployment : Deployment} {env : Environment} {content : String}
    (h : (Call.deploy step template deployment env).Formed options)
    (hcontent : step.template.toJson.scriptContent? = some (.str content)) :
    ∃ carried, template.scriptContent? = some carried ∧
      (options.resolveVariables = false → carried = .str content) ∧
      (options.resolveVariables = true → env.Fills content carried) := by
  rw [Formed, Run.resolved] at h
  cases hresolve : options.resolveVariables with
  | false =>
    rw [hresolve] at h
    cases h
    exact ⟨_, hcontent, fun _ => rfl, nofun⟩
  | true =>
    rw [hresolve] at h
    obtain ⟨carried, hcarried, hfilled⟩ := Json.exists_scriptContent_of_traverse h hcontent
    exact ⟨carried, hcarried, nofun, fun _ => Environment.fills_of_resolveText hfilled⟩

/-! ### Where steps and documents come from -/

namespace RuntimeScope

variable {scope scope' : RuntimeScope} {calls : List Exchange}

/-- The steps of a scope come from a draft. -/
def Compiled (scope : RuntimeScope) : Prop :=
  ∀ s ∈ scope.prepareSteps ++ scope.cleanupSteps, s.Compiled

theorem Writes.compiled (h : scope.Writes calls scope') (hcompiled : scope.Compiled) :
    scope'.Compiled := by
  rw [h.changes]
  exact hcompiled

theorem compiled_build {sources : Sources} {draft : Draft.Definition} {path key : String}
    {definition : Definition} {caller : Environment} {g g' : Suffixes}
    (compiles : sources.compile draft path = .ok definition)
    (h : build definition key caller g = .ok (scope, g')) : scope.Compiled := by
  obtain ⟨-, -, hprepare, hcleanup, -⟩ := build_eq_ok h
  rw [Compiled, hprepare, hcleanup]
  exact (Sources.compiled_of_mem compiles).1

end RuntimeScope

namespace Session

variable {session : Session} {client : Client} {reports : List ScenarioReport}

/-- What a run sends: documents as they are resolved, if they are, and calls for steps of the scenario
or of the scope that the run opens. -/
theorem exists_calls_runScenario (session : Session) (client : Client) (definition : Definition)
    (scenario : Scenario) (caller : Environment) :
    (session.runScenario client definition scenario caller).session.options = session.options ∧
      ∃ calls, (session.runScenario client definition scenario caller).session.trace =
          session.trace ++ calls ∧
        (∀ x ∈ calls, x.call.Formed session.options) ∧
        ∀ x ∈ calls, ∀ s, x.call.step? = some s → s ∈ scenario.steps ∨
          ∃ key scope opened, session.Opens definition caller key scope opened ∧
            s ∈ scope.prepareSteps ++ scope.cleanupSteps := by
  have hnothing {P : Exchange → Prop} : ∀ x ∈ [], P x := fun x hx => absurd hx List.not_mem_nil
  have hruns := session.runs_runScenario client definition scenario caller
  generalize session.runScenario client definition scenario caller = result at hruns ⊢
  cases hruns with
  | unopened opens =>
    obtain ⟨hoptions, htrace, -⟩ := openScope_error opens
    exact ⟨hoptions, [], htrace.trans (List.append_nil _).symm, hnothing, hnothing⟩
  | unstarted opens starts =>
    have hopens := opens_openScope opens
    exact ⟨hopens.options, [], hopens.trace.trans (List.append_nil _).symm, hnothing, hnothing⟩
  | @performed opened scope run run' outcome opens starts performs error =>
    have hopens := opens_openScope opens
    obtain ⟨-, -, hscope, htrace, -⟩ := start_eq_ok starts
    rw [hopens.trace] at htrace
    obtain ⟨calls, steps, status, hadvances, hcourse⟩ :=
      Run.course_perform opened.options client scenario run
    obtain ⟨sent, hsent, hformed⟩ := Run.sends_perform opened.options client scenario run
    -- What is sent are the calls of the course.
    obtain rfl : sent = calls := List.append_cancel_left (hsent.symm.trans hadvances.trace)
    rw [performs, htrace] at hsent
    refine ⟨hopens.options, sent, hsent, hopens.options ▸ hformed, fun x hx s hstep => ?_⟩
    rcases hcourse.of_mem hx with hnone | ⟨s', hstep', hs⟩ | ⟨-, s', hs, hstep'⟩
    · rw [hnone] at hstep
      cases hstep
    · cases hstep.symm.trans hstep'
      rw [hscope] at hs
      exact .inr ⟨_, scope, opened, hopens, List.mem_append.2 (hs.imp (·.2) (·.2))⟩
    · cases hstep.symm.trans hstep'
      exact .inl hs

/-- A client gets the documents of templates as they are resolved, if they are. -/
theorem Reached.formed (h : Reached client session reports) :
    ∀ x ∈ session.trace, x.call.Formed session.options := by
  induction h with
  | new options suffixes => exact fun x hx => absurd hx List.not_mem_nil
  | @run session reports _ definition scenario caller ih =>
    obtain ⟨hoptions, calls, htrace, hformed, -⟩ :=
      session.exists_calls_runScenario client definition scenario caller
    rw [hoptions, htrace]
    exact fun x hx => (List.mem_append.1 hx).elim (ih x) (hformed x)

/-- The steps that a client is called for come from drafts. -/
theorem Rehearsed.compiled (h : Rehearsed client session) :
    ∀ x ∈ session.trace, ∀ s, x.call.step? = some s → s.Compiled := by
  induction h with
  | new options suffixes => exact fun x hx => absurd hx List.not_mem_nil
  | @run session hrehearsed sources draft path definition compiles scenario among caller ih =>
    have hscopes : ∀ key scope, session.scopes.get? key = some scope → scope.Compiled :=
      hrehearsed.of_scope RuntimeScope.compiled_build fun hcompiled hwrites => hwrites.compiled hcompiled
    obtain ⟨-, calls, htrace, -, hsteps⟩ :=
      session.exists_calls_runScenario client definition scenario caller
    rw [htrace]
    intro x hx s hstep
    rcases List.mem_append.1 hx with hx | hx
    · exact ih x hx s hstep
    · rcases hsteps x hx s hstep with hs | ⟨key, scope, opened, hopens, hs⟩
      · exact (Sources.compiled_of_mem compiles).2 scenario among s hs
      · -- The scope was there before, or it is built for the definition.
        rcases hopens.source with hold | ⟨-, g, g', hbuilt⟩
        · exact hscopes key scope hold s hs
        · exact RuntimeScope.compiled_build compiles hbuilt s hs

/-- **What a client gets of a script.** Let runs of compiled scenarios lead to a session, and let a
step that deploys a script have reached the client. Then it comes from a draft that refers to a script
file, and what the deployment has in the place of the script is the text of this file: unchanged if
placeholders are left to the client, and otherwise with its placeholders filled in from the
environment of the step, so unchanged too if it has none. -/
theorem Rehearsed.carries (h : Rehearsed client session) {x : Exchange} (hx : x ∈ session.trace)
    {step : DeploymentStep} {template : Json} {deployment : Deployment} {env : Environment}
    (hcall : x.call = .deploy step template deployment env) {kind : ScriptKind}
    (hkind : step.scriptKind = some kind) :
    ∃ (sources : Sources) (draft : Draft.Definition) (path : String) (definition : Definition)
      (draftStep : Draft.Step) (content : String) (carried : Json),
      sources.compile draft path = .ok definition ∧
      definition.Yields draft draftStep (.deployment step) ∧
      Compile.Carries (sources.setting definition.scope path) draftStep step content ∧
      template.scriptContent? = some carried ∧
      (session.options.resolveVariables = false → carried = .str content) ∧
      (session.options.resolveVariables = true → env.Fills content carried) ∧
      (Placeholder.names content = [] → carried = .str content) := by
  obtain ⟨reports, hreached⟩ := h.reached
  have hformed := hreached.formed x hx
  rw [hcall] at hformed
  obtain ⟨sources, draft, path, definition, draftStep, compiles, hyields⟩ :=
    h.compiled x hx (.deployment step) (by rw [hcall]; rfl)
  obtain ⟨content, hcarries⟩ := Sources.exists_carries_of_yields compiles hyields hkind
  have hcontent : step.template.toJson.scriptContent? = some (.str content) := by
    obtain ⟨script, rfl, htemplate⟩ := hcarries.template
    rw [htemplate, Script.scriptContent_template]
  obtain ⟨carried, hcarried, hleft, hfilled⟩ := hformed.exists_scriptContent hcontent
  refine ⟨sources, draft, path, definition, draftStep, content, carried, compiles, hyields, hcarries,
    hcarried, hleft, hfilled, fun hnames => ?_⟩
  cases hresolve : session.options.resolveVariables with
  | false => exact hleft hresolve
  | true => exact (hfilled hresolve).eq_of_names_eq_nil hnames

end Session

/-! ### A script that greets somebody -/

/-- Whether a template has this text in the place of its script. -/
def Json.bringsScript (template : Json) (text : String) : Bool :=
  match template.scriptContent? with
  | some (.str content) => content == text
  | _ => false

theorem Json.scriptContent_of_bringsScript {template : Json} {text : String}
    (h : template.bringsScript text = true) : template.scriptContent? = some (.str text) := by
  unfold bringsScript at h
  split at h
  · next content heq => rw [heq, eq_of_beq h]
  · cases h

/-- Whether a call deploys a script of the first text with the second in its place. -/
def Call.deploysAs (content carried : String) : Call → Bool
  | .deploy step template _ _ =>
    step.scriptKind.isSome && step.template.toJson.bringsScript content &&
      template.bringsScript carried
  | .prepare .. | .send .. | .createContainer .. | .deleteContainer .. => false

theorem Call.exists_of_deploysAs {call : Call} {content carried : String}
    (h : call.deploysAs content carried = true) :
    ∃ step template deployment env kind, call = .deploy step template deployment env ∧
      step.scriptKind = some kind ∧ step.template.toJson.scriptContent? = some (.str content) ∧
      template.scriptContent? = some (.str carried) := by
  cases call with
  | deploy step template deployment env =>
    rw [deploysAs, Bool.and_eq_true, Bool.and_eq_true] at h
    obtain ⟨⟨hkind, hcontent⟩, hcarried⟩ := h
    obtain ⟨kind, hkind⟩ := Option.isSome_iff_exists.1 hkind
    exact ⟨step, template, deployment, env, kind, rfl, hkind,
      Json.scriptContent_of_bringsScript hcontent, Json.scriptContent_of_bringsScript hcarried⟩
  | prepare | send | createContainer | deleteContainer => cases h

/-- A step has the text of one script only. -/
theorem Compile.Carries.content_eq {setting : Setting} {draft : Draft.Step} {step : DeploymentStep}
    {content other : String} (h : Carries setting draft step content)
    (hother : step.template.toJson.scriptContent? = some (.str other)) : content = other := by
  obtain ⟨script, rfl, htemplate⟩ := h.template
  rw [htemplate, Script.scriptContent_template] at hother
  cases hother
  rfl

namespace Session

/-- Files that all hold the same script. -/
def greetingFiles : Sources where
  files := ⟨fun _ => .ok "echo $(who)"⟩

/-- A draft of a scenario that runs the script for somebody. -/
def greeted : Draft.Definition where
  scope := some "None"
  vars := Dict.ofList [("who", .brief "x")]
  scenarios := [{ steps := [{ name := some "greet", script := some "f.sh" }] }]

/-- What the scenario is compiled to. -/
def greetingOnce : Scenario where
  position := 0
  name := "scenario_0"
  steps :=
    [.deployment
      { header := { name := "greet" }
        template :=
          Script.template { name := "greet", kind := .commandLine, content := "echo $(who)" }
        sourceFile := "f.sh"
        scriptKind := some .commandLine }]

/-- What the draft is compiled to. -/
def greetedDefinition : Definition where
  scope := .unscoped
  scenarios := [greetingOnce]
  vars := { vars := Dict.ofList [("who", .string "x")] }
  filePath := "f"

theorem compile_greeted : greetingFiles.compile greeted "f" = .ok greetedDefinition := by
  cbv

/-- A run of the scenario. -/
def greetingRun : Result :=
  runScenario { suffixes := ⟨[], 0⟩ } answering greetedDefinition greetingOnce supplied

theorem rehearsed_greetingRun : Rehearsed answering greetingRun.session :=
  (Rehearsed.new _ _).run compile_greeted List.mem_cons_self supplied

/-- In this run the script reaches the client with the name in the place of its placeholder. -/
theorem exists_greeting : ∃ x ∈ greetingRun.session.trace, ∃ step template deployment env kind,
    x.call = .deploy step template deployment env ∧ step.scriptKind = some kind ∧
      step.template.toJson.scriptContent? = some (.str "echo $(who)") ∧
      template.scriptContent? = some (.str "echo x") := by
  have hcheck : greetingRun.session.trace.any
      (fun x => x.call.deploysAs "echo $(who)" "echo x") = true := by
    decide +kernel
  obtain ⟨x, hx, hdeploys⟩ := List.any_eq_true.1 hcheck
  exact ⟨x, hx, Call.exists_of_deploysAs hdeploys⟩

/-- The text that the client gets is that of the file, filled in. -/
theorem carries_greetingRun : ∃ x ∈ greetingRun.session.trace, ∃ step template deployment env kind,
    x.call = .deploy step template deployment env ∧ step.scriptKind = some kind ∧
      template.scriptContent? = some (.str "echo x") ∧
      env.Fills "echo $(who)" (.str "echo x") := by
  obtain ⟨x, hx, step, template, deployment, env, kind, hcall, hkind, hcontent, hsent⟩ :=
    exists_greeting
  obtain ⟨_, _, _, _, _, content, carried, -, -, hcarries, hcarried, -, hfilled, -⟩ :=
    Rehearsed.carries rehearsed_greetingRun hx hcall hkind
  cases hcarries.content_eq hcontent
  cases hcarried.symm.trans hsent
  have hresolve : greetingRun.session.options.resolveVariables = true := by
    rw [greetingRun, (exists_calls_runScenario _ _ _ _ _).1]
  exact ⟨x, hx, step, template, deployment, env, kind, hcall, hkind, hsent, hfilled hresolve⟩

/-- The text of a script does not always reach the client as it is in the file. -/
theorem not_forall_unchanged : ¬ ∀ (client : Client) (session : Session) (x : Exchange)
    (step : DeploymentStep) (template : Json) (deployment : Deployment) (env : Environment)
    (kind : ScriptKind), Rehearsed client session → x ∈ session.trace →
    x.call = .deploy step template deployment env → step.scriptKind = some kind →
    ∃ (setting : Compile.Setting) (draft : Draft.Step) (content : String),
      Compile.Carries setting draft step content ∧
      template.scriptContent? = some (.str content) := by
  intro h
  obtain ⟨x, hx, step, template, deployment, env, kind, hcall, hkind, hcontent, hsent⟩ :=
    exists_greeting
  obtain ⟨setting, draft, content, hcarries, hunchanged⟩ :=
    h _ _ x step template deployment env kind rehearsed_greetingRun hx hcall hkind
  rw [hcarries.content_eq hcontent, hsent] at hunchanged
  have htext : "echo x" = "echo $(who)" := Json.str.inj (Option.some.inj hunchanged)
  exact absurd htext (by decide)

end Session

end Rehearsal
