import Rehearsal.Compile
import Rehearsal.Proofs.Environment.Layers
import Rehearsal.Proofs.Session.Reached

/-!
# What a scenario is supplied with

Before a definition runs, `Definition.diagnose` looks for a required name among what the caller
holds, what the scenario declares and what the definition declares, and is content with whichever of
them has a value. When the definition runs these are layers, and the innermost layer that binds the
name decides (`RuntimeScope.isSome_value?_build`, `Session.isSome_value?_start`). What a caller holds
without a value is a binding all the same: it hides the value that the definition declares. So a
required name that was found to be supplied has a value in the environment of the scenario if and
only if the scenario declares one or the caller holds no variable of the name without a value
(`Session.required_bound_iff`).
-/

namespace Rehearsal

open Definition (isBound)

namespace RuntimeScope

variable {definition : Definition} {key : String} {caller : Environment} {g g' : Suffixes}
  {scope : RuntimeScope} {layer : Layer} {name : String}

/-- The variables of a scope while it is built: in front of what the definition declares. -/
def facing (definition : Definition) (layer : Layer) : Environment :=
  (⟨Layer.declare {} definition.vars, []⟩ : Environment).child layer

/-- Patches that are pending in a definition are applied to a value that the caller holds. -/
theorem patched_of_caller {v : Variable} {patches : List Json} {value : Json}
    (hv : definition.vars.get? name = some v) (hpending : v.pendingPatches? = some patches)
    (hpatched : (facing definition (Environment.imported {} caller)).patchedValue name patches = .ok value) :
    ∃ held, caller.get? name = some held ∧ held.hasValue = true := by
  obtain ⟨hnone, hdeclares, -⟩ := Variable.of_pendingPatches hpending
  have hinherited := Environment.isSome_value?_of_patchedValue hpatched
  rw [facing, Environment.isSome_value?_child, Environment.get?_imported, Dict.get?_empty,
    Option.or_none] at hinherited
  cases hheld : caller.get? name with
  | some held =>
    rw [hheld] at hinherited
    exact ⟨held, rfl, hinherited⟩
  | none =>
    -- The definition itself has only the patches to offer.
    have hdeclared : (Layer.declare {} definition.vars).vars.get? name = some v := by
      rw [Layer.get?_declare_empty, hv]
      simp [Option.filter, hdeclares]
    have hvalue : v.hasValue = false := by rw [Variable.hasValue, hnone]; rfl
    rw [hheld, Option.elim_none, Environment.isSome_value?, Environment.get?, Environment.layers,
      List.findSome?_cons, hdeclared, Option.any_some, hvalue] at hinherited
    cases hinherited

/-- The layer of a scope is as bound as the caller's environment: patches replace a value by a
value, and nothing is patched that the caller does not hold. -/
theorem map_isBound_applyPatches
    (h : (Environment.imported {} caller).applyPatches definition.vars
      (facing definition (Environment.imported {} caller)) = .ok layer) (name : String) :
    (layer.vars.get? name).map isBound = (caller.get? name).map isBound := by
  rcases Layer.applyPatches_spec h name with
    ⟨v, patches, value, hv, hpending, hpatched, hlayer⟩ | ⟨-, hkept⟩
  · obtain ⟨held, hheld, hvalue⟩ := patched_of_caller hv hpending hpatched
    obtain ⟨-, -, hset⟩ := Variable.of_pendingPatches hpending
    rw [hlayer, hheld, Option.map_some, Option.map_some, Variable.isBound_of_hasValue hvalue,
      Variable.isBound_of_hasValue (hset value)]
  · rw [hkept, Environment.get?_imported, Dict.get?_empty, Option.or_none]

/-- What a definition declares and the caller does not hold is bound. -/
theorem isBound_of_declared
    (h : (Environment.imported {} caller).applyPatches definition.vars
      (facing definition (Environment.imported {} caller)) = .ok layer)
    (hcaller : caller.get? name = none) :
    ((Layer.declare {} definition.vars).vars.get? name).isSome =
      (definition.vars.get? name).any isBound := by
  have hpending (v : Variable) (hv : definition.vars.get? name = some v) : v.pendingPatches? = none := by
    rcases Layer.applyPatches_spec h name with
      ⟨_, patches, value, hv', hpending, hpatched, -⟩ | ⟨hnone, -⟩
    · obtain ⟨held, hheld, -⟩ := patched_of_caller hv' hpending hpatched
      rw [hcaller] at hheld
      cases hheld
    · exact hnone v hv
  rw [Layer.get?_declare_empty, Layer.filter_not_isExternal hpending]
  cases definition.vars.get? name with
  | none => rfl
  | some v => cases hbound : isBound v <;> simp [Option.filter, hbound]

theorem get?_nameContainer (env : Environment) (name : String) :
    (nameContainer env).inner.vars.get? name =
      if name = ReservedName.container ∧ env.contains name = false then some (.stemmed containerStem)
      else env.inner.vars.get? name := by
  rw [nameContainer]
  split
  · next hcontains =>
    rw [if_neg]
    rintro ⟨rfl, hfree⟩
    rw [hfree] at hcontains
    cases hcontains
  · next hfree =>
    rw [Environment.modifyInner, Layer.get?_set]
    by_cases heq : name = ReservedName.container
    · rw [if_pos heq, if_pos ⟨heq, by simpa [heq] using hfree⟩]
    · rw [if_neg heq, if_neg fun h => heq h.1]

/-- The name of the container is bound, whoever binds it, and a scope that names the container hides
nothing. -/
theorem elim_nameContainer
    (h : (Environment.imported {} caller).applyPatches definition.vars
      (facing definition (Environment.imported {} caller)) = .ok layer) (name : String) :
    ((nameContainer (facing definition layer)).inner.vars.get? name).elim
        ((definition.vars.get? name).any isBound) isBound =
      (caller.get? name).elim
        ((definition.vars.get? name).any isBound || name == ReservedName.container) isBound := by
  have hheld := map_isBound_applyPatches h name
  have hcontains : (facing definition layer).contains name =
      ((layer.vars.get? name).isSome ||
        ((Layer.declare {} definition.vars).vars.get? name).isSome) := by
    rw [Environment.contains, facing, Environment.child, Environment.get?, Environment.layers,
      List.findSome?_cons, Environment.layers, List.findSome?_cons]
    cases layer.vars.get? name <;> cases (Layer.declare {} definition.vars).vars.get? name <;> rfl
  have hinner : (facing definition layer).inner.vars.get? name = layer.vars.get? name := rfl
  rw [get?_nameContainer, hcontains, hinner]
  cases hcaller : caller.get? name with
  | some held =>
    obtain ⟨kept, hkept, hbound⟩ : ∃ kept, layer.vars.get? name = some kept ∧ isBound kept = isBound held := by
      rwa [hcaller, Option.map_some, Option.map_eq_some_iff] at hheld
    simp [hkept, hbound]
  | none =>
    rw [hcaller, Option.map_none, Option.map_eq_none_iff] at hheld
    rw [hheld, isBound_of_declared h hcaller]
    -- The definition binds the name, or the scope does if it is that of the container.
    cases (definition.vars.get? name).any isBound with
    | true => simp
    | false =>
      by_cases heq : name = ReservedName.container
      · subst heq
        rfl
      · simp [heq]

/-- Behind the generation of texts a layer has a value for what it bound before. -/
theorem isSome_value?_materialized (definition : Definition) (layer : Layer) (name : String) :
    (((⟨((Layer.declare {} definition.vars).materialize g).1, []⟩ : Environment).child
      (layer.materialize g').1).value? name).isSome =
      (layer.vars.get? name).elim ((definition.vars.get? name).any isBound) isBound := by
  have houter : ((⟨((Layer.declare {} definition.vars).materialize g).1, []⟩ : Environment).value?
      name).isSome = (definition.vars.get? name).any isBound := by
    rw [Environment.isSome_value?_root, Layer.elim_hasValue_materialize, Layer.get?_declare_empty,
      Layer.elim_isBound_filter]
  rw [Environment.isSome_value?_child, Layer.elim_hasValue_materialize, houter]

/-- **What a scope has a value for.** If the caller holds a variable it depends on that one alone.
Otherwise the definition has to declare one that is bound, or the name is that of the container,
which the scope names. -/
theorem isSome_value?_build (h : build definition key caller g = .ok (scope, g')) (name : String) :
    (scope.environment.value? name).isSome =
      (caller.get? name).elim
        ((definition.vars.get? name).any isBound || name == ReservedName.container) isBound := by
  unfold build at h
  dsimp only at h
  generalize hpatched : Layer.applyPatches _ definition.vars _ = patched at h
  cases patched with
  | error e => cases h
  | ok layer =>
    cases h
    refine (isSome_value?_materialized definition _ name).trans ?_
    exact elim_nameContainer hpatched name

end RuntimeScope

namespace Session

variable {session : Session} {scenario : Scenario} {scope : RuntimeScope} {run : Run}

/-- A scenario has a value for what it declares itself and for what its scope has one for. -/
theorem isSome_value?_start (h : session.start scenario scope = .ok run) (name : String) :
    ((run.environment .scenario).value? name).isSome =
      ((scenario.vars.get? name).any isBound || (scope.environment.value? name).isSome) := by
  obtain ⟨declared, hdeclared, h⟩ := exists_of_bind_eq_ok h
  cases h
  exact Environment.isSome_value?_within hdeclared session.suffixes name

end Session

/-! ### Required names -/

/-- A name that a scenario requires is supplied somewhere if nothing is wrong with the caller's
environment. -/
theorem Definition.supplied_of_required {definition : Definition} {caller : Environment}
    {scenario : Scenario} (hmem : scenario ∈ definition.scenarios)
    (hvalid : ∀ diagnostic ∈ definition.diagnose caller, diagnostic.isError = false) {name : String}
    (hname : name ∈ scenario.vars.required) :
    name = ReservedName.container ∨ (caller.get? name).any isBound = true ∨
      (scenario.vars.get? name).any isBound = true ∨ (definition.vars.get? name).any isBound = true := by
  have herror (place : DiagnosticPlace) : ⟨place, .noValue name⟩ ∉ definition.diagnose caller :=
    fun hdiagnosed => nomatch hvalid _ hdiagnosed
  -- The names that the definition requires are looked for without the scenario.
  obtain ⟨scopes, hscopes, hsupplies⟩ : ∃ scopes, scopes ⊆ [scenario.vars, definition.vars] ∧
      definition.supplies caller scopes name = true := by
    by_cases hrequired : definition.vars.isRequired name = true
    · refine ⟨[definition.vars], by simp, ?_⟩
      rw [← Bool.not_eq_false]
      intro hlacking
      refine herror .definition (List.mem_append_left _ (List.mem_map.2 ⟨name, ?_, rfl⟩))
      exact List.mem_filter.2 ⟨List.contains_iff_mem.1 hrequired, by rw [hlacking]; rfl⟩
    · refine ⟨[scenario.vars, definition.vars], fun _ h => h, ?_⟩
      rw [← Bool.not_eq_false]
      intro hlacking
      refine herror (.scenario scenario.name)
        (List.mem_append_right _ (List.mem_flatMap.2 ⟨scenario, hmem, List.mem_map.2 ⟨.noValue name, ?_, rfl⟩⟩))
      refine List.mem_append_right _ (List.mem_map.2 ⟨name, List.mem_filter.2 ⟨hname, ?_⟩, rfl⟩)
      rw [hlacking, Bool.eq_false_iff.2 hrequired]
      rfl
  rw [supplies, Bool.or_eq_true, Bool.or_eq_true, Bool.and_eq_true, beq_iff_eq, List.any_eq_true]
    at hsupplies
  rcases hsupplies with (⟨-, hcontainer⟩ | hcaller) | ⟨found, hfound, hbound⟩
  · exact .inl hcontainer
  · exact .inr (.inl hcaller)
  · rcases List.mem_cons.1 (hscopes hfound) with rfl | hfound
    · exact .inr (.inr (.inl hbound))
    · rw [List.mem_singleton.1 hfound] at hbound
      exact .inr (.inr (.inr hbound))

namespace Session

/-- A run of a scenario for a caller in whose environment no error was found: it begins in the scope
that is built for the caller. -/
structure Admits (definition : Definition) (caller : Environment) (scenario : Scenario) (run : Run) :
    Prop where
  listed : scenario ∈ definition.scenarios
  valid : ∀ diagnostic ∈ definition.diagnose caller, diagnostic.isError = false
  starts : ∃ (session : Session) (key : String) (g g' : Suffixes) (scope : RuntimeScope),
    RuntimeScope.build definition key caller g = .ok (scope, g') ∧ session.start scenario scope = .ok run

variable {definition : Definition} {caller : Environment} {scenario : Scenario} {run : Run}

/-- **A required name has a value unless the caller hides it.** In the environment of a scenario that
was admitted every name that the scenario requires has a value, if the scenario itself declares one
or the caller holds no variable of this name without a value; and in no other case. -/
theorem required_bound_iff (h : Admits definition caller scenario run) {name : String}
    (hname : name ∈ scenario.vars.required) :
    ((run.environment .scenario).value? name).isSome = true ↔
      (scenario.vars.get? name).any isBound = true ∨
        ∀ held, caller.get? name = some held → isBound held = true := by
  obtain ⟨session, key, g, g', scope, hbuild, hstart⟩ := h.starts
  rw [isSome_value?_start hstart, RuntimeScope.isSome_value?_build hbuild, Bool.or_eq_true]
  cases hcaller : caller.get? name with
  | some held => simp
  | none =>
    -- Nothing hides what the scope has.
    refine iff_of_true ?_ (.inr nofun)
    rcases Definition.supplied_of_required h.listed h.valid hname with
      hcontainer | hheld | hscenario | hdefinition
    · simp [hcontainer]
    · rw [hcaller] at hheld
      cases hheld
    · exact .inl hscenario
    · simp [hdefinition]

/-! ### A value that is hidden -/

/-- A draft that says where its container is created and how it is called. -/
def located : Draft.Definition where
  vars := Dict.ofList
    [(ReservedName.location, .brief "westus"), (ReservedName.container, .brief "rg")]
  scenarios := [{}]

/-- Nothing to compile the draft against. -/
def nothing : Sources where
  files := ⟨fun _ => .ok ""⟩

/-- The environment of a caller that knows the subscription. -/
def knowing : Environment where
  inner := { vars := Dict.ofList [(ReservedName.subscription, .string "s")] }

/-- The environment of a caller that besides has a variable for the location, and no value for it. -/
def unlocated : Environment where
  inner :=
    { vars := Dict.ofList
        [(ReservedName.subscription, .string "s"), (ReservedName.location, .text false {})] }

/-- The run of the scenario in a new session, if it is compiled and admitted. -/
def locatedRun (caller : Environment) : Option (Definition × Scenario × Run) :=
  match nothing.compile located "f" with
  | .ok definition =>
    match definition.scenarios, RuntimeScope.build definition "k" caller ⟨[], 0⟩ with
    | [scenario], .ok (scope, suffixes) =>
      match ({ options := {}, suffixes } : Session).start scenario scope with
      | .ok run =>
        if (definition.diagnose caller).all (!·.isError) then some (definition, scenario, run) else none
      | .error _ => none
    | _, _ => none
  | .error _ => none

theorem admits_of_locatedRun {caller : Environment} {definition : Definition} {scenario : Scenario}
    {run : Run} (h : locatedRun caller = some (definition, scenario, run)) :
    nothing.compile located "f" = .ok definition ∧ Admits definition caller scenario run := by
  unfold locatedRun at h
  split at h
  · next compiled hcompile =>
    split at h
    · next listed scope suffixes hscenarios hbuild =>
      split at h
      · next started hstart =>
        split at h
        · next hvalid =>
          cases h
          refine ⟨hcompile, by simp [hscenarios], fun diagnostic hmem => ?_, _, _, _, _, _, hbuild, hstart⟩
          simpa using List.all_eq_true.1 hvalid diagnostic hmem
        · cases h
      · cases h
    · cases h
  · cases h

/-- The location is the one that the definition declares. -/
theorem required_bound_knowing : ∃ definition scenario run,
    nothing.compile located "f" = .ok definition ∧ Admits definition knowing scenario run ∧
      ReservedName.location ∈ scenario.vars.required ∧
      (((run.environment .scenario).value? ReservedName.location).isSome = true ↔
        (scenario.vars.get? ReservedName.location).any isBound = true ∨
          ∀ held, knowing.get? ReservedName.location = some held → isBound held = true) := by
  have hcheck : (locatedRun knowing).any (fun started =>
      started.2.1.vars.required.contains ReservedName.location) = true := by
    decide +kernel
  obtain ⟨⟨definition, scenario, run⟩, hrun, hcheck⟩ := (Option.any_eq_true _ _).1 hcheck
  obtain ⟨hcompile, hadmits⟩ := admits_of_locatedRun hrun
  have hrequired : ReservedName.location ∈ scenario.vars.required := List.contains_iff_mem.1 hcheck
  exact ⟨definition, scenario, run, hcompile, hadmits, hrequired, required_bound_iff hadmits hrequired⟩

/-- A caller that has a variable for the location, and no value for it, hides the location that the
definition declares, and nobody finds anything wrong with it. -/
theorem not_forall_required_bound :
    ¬ ∀ (sources : Sources) (draft : Draft.Definition) (path : String) (definition : Definition),
      sources.compile draft path = .ok definition →
      ∀ (caller : Environment) (scenario : Scenario) (run : Run),
        Admits definition caller scenario run →
        ∀ name ∈ scenario.vars.required, ((run.environment .scenario).value? name).isSome = true := by
  intro hall
  have hcheck : (locatedRun unlocated).any (fun started =>
      started.2.1.vars.required.contains ReservedName.location &&
        !((started.2.2.environment .scenario).value? ReservedName.location).isSome) = true := by
    decide +kernel
  obtain ⟨⟨definition, scenario, run⟩, hrun, hcheck⟩ := (Option.any_eq_true _ _).1 hcheck
  obtain ⟨hcompile, hadmits⟩ := admits_of_locatedRun hrun
  rw [Bool.and_eq_true, Bool.not_eq_true'] at hcheck
  have hbound := hall nothing located "f" definition hcompile unlocated scenario run hadmits
    ReservedName.location (List.contains_iff_mem.1 hcheck.1)
  rw [hcheck.2] at hbound
  cases hbound

end Session

end Rehearsal
