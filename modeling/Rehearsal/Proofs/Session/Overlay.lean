import Rehearsal.Proofs.Environment.Eager
import Rehearsal.Proofs.Environment.Layers
import Rehearsal.Proofs.Session.Inheritance

/-!
# What an inner scope can hide

Around a scenario or a step the runner puts a layer with what it declares. A declaration may have no
value: somebody outside fulfils it, or a text with its stem is generated, or its patches are applied
to what is inherited. Whichever it is, the environment that is built has a value for each name that
had one before (`Environment.Overlays`), so a declaration replaces a value but hides none.

* `Environment.Overlays.of_within`: the layer of a scope in front of an environment;
* `Environment.Overlays.resolveAll`: a full resolution gives no value and takes none away;
* `Session.overlays_environment`: the environments of scenarios and of steps.
-/

namespace Rehearsal

open Definition (isBound)

namespace Environment

variable {env built built' : Environment} {scope : Declarations} {layer : Layer}

/-- An environment that is built for a scope has values for the names that have one in the environment
around it, and for those that the scope declares with a value or a stem; and for no others. -/
def Overlays (built : Environment) (scope : Declarations) (env : Environment) : Prop :=
  ∀ name, (built.value? name).isSome = true ↔
    (env.value? name).isSome = true ∨ (scope.get? name).any isBound = true

theorem Overlays.of_within (h : Layer.within env scope = .ok layer) (g : Suffixes) :
    (env.child (layer.materialize g).1).Overlays scope env := by
  intro name
  rw [isSome_value?_within h, Bool.or_eq_true, or_comm]

/-- A declaration that somebody outside fulfils leaves its name bound as it is outside. -/
theorem get?_child_of_within (h : Layer.within env scope = .ok layer) (g : Suffixes) {name : String}
    (hexternal : ∀ v, scope.get? name = some v → Layer.isExternal v = true) :
    (env.child (layer.materialize g).1).get? name = env.get? name := by
  have hunbound : layer.vars.get? name = none := by
    rcases Layer.applyPatches_spec h name with ⟨v, _, _, hv, hpending, -⟩ | ⟨-, hkept⟩
    · obtain ⟨-, hdeclares, -⟩ := Variable.of_pendingPatches hpending
      rw [hexternal v hv] at hdeclares
      cases hdeclares
    · rw [hkept, Layer.get?_declare_empty, Option.filter_eq_none_iff]
      intro v hv
      simp [hexternal v hv]
  have hgenerated := layer.get?_materialize g name
  rw [hunbound] at hgenerated
  rw [get?, child, layers, List.findSome?_cons]
  cases hlayer : (layer.materialize g).1.vars.get? name with
  | none => rfl
  | some v =>
    rw [hlayer] at hgenerated
    cases hgenerated

/-- A full resolution stores values only under names that have one. -/
theorem Overlays.resolveAll (h : built.Overlays scope env) (hresolved : built.resolveAll = .ok built') :
    built'.Overlays scope env := by
  intro name
  rw [← h name, Option.isSome_iff_ne_none, Option.isSome_iff_ne_none]
  exact not_congr (value?_resolveAll_eq_none_iff hresolved)

end Environment

/-- The environment of a step overlays the one of its phase, whether or not its placeholders are
resolved. -/
theorem Run.overlays_stepEnvironment {options : Options} {phase : Phase} {s : Step} {run after : Run}
    {built : Environment} (h : stepEnvironment options phase s run = (.ok built, after)) :
    built.Overlays s.header.vars (run.environment phase) := by
  rw [stepEnvironment_eq_bind, Runs.bind_run] at h
  cases hunresolved : stepEnvironment { options with resolveVariables := false } phase s run with
  | mk result run' =>
  rw [hunresolved] at h
  cases result with
  | error e => cases h
  | ok env =>
    obtain ⟨layer, hlayer, rfl⟩ := stepEnvironment_eq_ok hunresolved
    have hoverlays := Environment.Overlays.of_within hlayer run.suffixes
    dsimp only at h
    split at h
    · cases hresolved : Environment.resolveAll _ with
      | error e =>
        rw [hresolved] at h
        cases h
      | ok env' =>
        rw [hresolved] at h
        cases h
        exact hoverlays.resolveAll hresolved
    · cases h
      exact hoverlays

namespace Session

/-- **An inner declaration replaces a value but hides none.** The environment of a scenario overlays
that of its scope, and the environment of a step overlays the one in which it runs, with what earlier
steps have set, whether or not placeholders are resolved. So whatever a scope declares for a name, the
name has a value if it had one outside, and otherwise only if the scope declares it with a value or a
stem. -/
theorem overlays_environment :
    (∀ (session : Session) (scenario : Scenario) (scope : RuntimeScope) (run : Run),
      session.start scenario scope = .ok run →
        (run.environment .scenario).Overlays scenario.vars scope.environment) ∧
    (∀ (env : Environment) (vars : Declarations) (layer : Layer) (g : Suffixes),
      Layer.within env vars = .ok layer →
        (env.child (layer.materialize g).1).Overlays vars env ∧
        (∀ built, (env.child (layer.materialize g).1).resolveAll = .ok built →
          built.Overlays vars env) ∧
        ∀ name, (∀ v, vars.get? name = some v → Layer.isExternal v = true) →
          (env.child (layer.materialize g).1).get? name = env.get? name) ∧
    ∀ (options : Options) (phase : Phase) (s : Step) (run after : Run) (built : Environment),
      Run.stepEnvironment options phase s run = (.ok built, after) →
        built.Overlays s.header.vars (run.environment phase) := by
  refine ⟨?_, ?_, ?_⟩
  · intro session scenario scope run hstart
    obtain ⟨layer, hlayer, henv⟩ := environment_start hstart
    rw [henv]
    exact .of_within hlayer session.suffixes
  · intro env vars layer g hlayer
    have hoverlays := Environment.Overlays.of_within hlayer g
    exact ⟨hoverlays, fun built => hoverlays.resolveAll,
      fun name => Environment.get?_child_of_within hlayer g⟩
  · intro options phase s run after built hbuilt
    exact Run.overlays_stepEnvironment hbuilt

/-- A scope that supplies four names. -/
def supplying : RuntimeScope where
  name := "s"
  kind := .unscoped
  layer :=
    { vars := Dict.ofList
        [("region", .string "westus"), ("size", .int (some 3)), ("suffix", .string "a"),
          ("tags", .container .object { value := some (.obj []) })] }

/-- Declarations of these names: one that somebody outside fulfils, one with a value, one with a stem,
and one with patches. -/
def redeclaring : Declarations where
  vars := Dict.ofList
    [("region", .text false {}), ("size", .int (some 4)), ("suffix", .stemmed "b"),
      ("tags", .container .object { patches := some [] })]

/-- A scenario that declares them. -/
def redeclared : Scenario := { position := 0, name := "redeclared", vars := redeclaring }

/-- A step that declares them again. -/
def redeclaredStep : Step :=
  .deployment { header := { name := "again", vars := redeclaring }, template := {}, sourceFile := "t" }

/-- Both environments are built. -/
theorem isOk_redeclared :
    (({ suffixes := ⟨[], 0⟩ } : Session).start redeclared supplying).toOption.any
      (fun run => (Run.stepEnvironment {} .scenario redeclaredStep run).1.toOption.isSome) = true := by
  decide +kernel

theorem overlays_redeclaring :
    ∃ run layer built after,
      ({ suffixes := ⟨[], 0⟩ } : Session).start redeclared supplying = .ok run ∧
      (run.environment .scenario).Overlays redeclaring supplying.environment ∧
      Layer.within supplying.environment redeclaring = .ok layer ∧
      (supplying.environment.child (layer.materialize ⟨[], 0⟩).1).Overlays redeclaring
        supplying.environment ∧
      Run.stepEnvironment {} .scenario redeclaredStep run = (.ok built, after) ∧
      built.Overlays redeclaring (run.environment .scenario) ∧
      ∀ name ∈ ["region", "size", "suffix", "tags"], (built.value? name).isSome = true := by
  have hbuilt := isOk_redeclared
  obtain ⟨hscenario, hwithin, hstep⟩ := overlays_environment
  cases hstart : ({ suffixes := ⟨[], 0⟩ } : Session).start redeclared supplying with
  | error e =>
    rw [hstart] at hbuilt
    cases hbuilt
  | ok run =>
    rw [hstart] at hbuilt
    cases henv : Run.stepEnvironment {} .scenario redeclaredStep run with
    | mk result after =>
    cases result with
    | error e =>
      rw [Except.toOption, Option.any_some, henv] at hbuilt
      cases hbuilt
    | ok built =>
      obtain ⟨layer, hlayer, -⟩ := environment_start hstart
      have hbehind := hscenario _ _ _ run hstart
      have hinner := hstep _ _ _ run after built henv
      refine ⟨run, layer, built, after, rfl, hbehind, hlayer, (hwithin _ _ layer _ hlayer).1, henv,
        hinner, fun name hname => ?_⟩
      -- What the scope supplies passes through both environments.
      have hsupplied : ∀ name ∈ ["region", "size", "suffix", "tags"],
          (supplying.environment.value? name).isSome = true := by decide +kernel
      exact (hinner name).2 (.inl ((hbehind name).2 (.inl (hsupplied name hname))))

end Session

end Rehearsal
