import Rehearsal.Proofs.Compile.Script
import Rehearsal.Proofs.Environment.Patches

/-!
# Containers that are declared with patches

A container that is declared with patches and without a value is patched when it is compiled if the
nearest declaration around it has a value. If that has none, the patches wait
(`Compile.inherits_declareAll`), and are applied to what the environment around a layer holds when
the layer is built (`Compile.Inherits.patchedFrom_within`).
-/

namespace Rehearsal

namespace Compile

variable {around : List Declarations} {scope scope' : Declarations} {name : String} {v : Variable}
  {patches : List Json}

/-- The value that the nearest of some declarations of a name gives it. -/
def declaredValue? (around : List Declarations) (name : String) : Option Json :=
  around.findSome? (·.get? name) >>= Variable.value?

/-- What the compiler makes of a container that is declared with patches: it patches the value that
the nearest declaration around it gives, if there is one, and leaves the patches pending otherwise. -/
structure Inherits (around : List Declarations) (name : String) (patches : List Json) (v : Variable) :
    Prop where
  /-- It is a container. -/
  container : v.isContainer = true
  /-- Its value is patched, or its patches are pending. -/
  value : PatchedFrom (declaredValue? around name) patches v.value? ∨
    declaredValue? around name = none ∧ v.pendingPatches? = some patches

theorem inheritedValue_eq_ok {found : Option Json} (h : inheritedValue around name patches = .ok found) :
    PatchedFrom (declaredValue? around name) patches found ∨
      declaredValue? around name = none ∧ found = none := by
  unfold inheritedValue at h
  split at h
  · next hempty =>
    cases h
    rw [List.isEmpty_iff.1 hempty]
    exact .inr ⟨rfl, rfl⟩
  · split at h
    · cases h
    · next inherited hinherited =>
      have hdeclared : declaredValue? around name = inherited.value? := by
        rw [declaredValue?, hinherited]
        rfl
      rw [hdeclared]
      split at h
      · next hnone =>
        split at h
        · cases h
          exact .inr ⟨hnone, rfl⟩
        · cases h
      · next original horiginal =>
        split at h
        · split at h
          · next patched hpatched =>
            cases h
            exact .inl ⟨original, _, horiginal, hpatched, rfl⟩
          · cases h
        · cases h

theorem stored_declareOne (h : declareOne around scope name v = .ok scope') :
    ∃ stored, Stored around name v stored ∧
      ∀ other, scope'.get? other = if other = name then some stored else scope.get? other := by
  cases declares_of_declareOne h with
  | opened hopen =>
    obtain ⟨secure, rfl⟩ := hopen
    refine ⟨_, .plain rfl, fun other => ?_⟩
    rw [Declarations.get?_declare, ← scope.get?_secured name]
    rfl
  | @closed stored _ hstored =>
    refine ⟨stored, hstored, fun other => ?_⟩
    rw [Declarations.get?_declare, scope.get?_secured]

/-- What a draft declares is stored under its name. -/
theorem stored_declareAll {vars : Dict Declaration} {declaration : Declaration}
    (h : declareAll around vars = .ok scope) (hget : vars.get? name = some declaration) :
    ∃ stored, Stored around name declaration.toVariable stored ∧ scope.get? name = some stored := by
  obtain ⟨entries, hascending⟩ := vars
  change Assoc.get? name entries = some declaration at hget
  replace h : entries.foldlM (fun scope (entry : String × Declaration) =>
    declareOne around scope entry.1 entry.2.toVariable) {} = .ok scope := h
  generalize ({} : Declarations) = start at h
  induction entries generalizing start with
  | nil => cases hget
  | cons entry rest ih =>
    obtain ⟨key, first⟩ := entry
    obtain ⟨hlt, hrest⟩ := List.pairwise_cons.1 hascending
    rw [List.foldlM_cons] at h
    obtain ⟨next, hnext, hwalk⟩ := exists_of_bind_eq_ok h
    rw [Assoc.get?] at hget
    split at hget
    · next heq =>
      cases hget
      subst heq
      obtain ⟨stored, hstored, hbound⟩ := stored_declareOne hnext
      refine ⟨stored, hstored, ?_⟩
      -- The names ascend, so what is declared behind the variable has other names.
      refine foldlM_keeps (P := fun scope : Declarations => scope.get? key = some stored) hwalk ?_
        fun later hlater before after hafter hkept => ?_
      · rw [hbound, if_pos rfl]
      · obtain ⟨_, _, hothers⟩ := stored_declareOne hafter
        have hne : key ≠ later.1 := fun heq => String.lt_irrefl key (heq ▸ hlt later hlater)
        rw [hothers, if_neg hne]
        exact hkept
    · exact ih hrest hget next hwalk

/-- What a draft declares with patches has them applied, or pending. -/
theorem inherits_declareAll {vars : Dict Declaration} {declaration : Declaration}
    (h : declareAll around vars = .ok scope) (hget : vars.get? name = some declaration)
    (hpending : declaration.toVariable.pendingPatches? = some patches) :
    ∃ stored, scope.get? name = some stored ∧ Inherits around name patches stored := by
  obtain ⟨stored, hstored, hbound⟩ := stored_declareAll h hget
  refine ⟨stored, hbound, ?_⟩
  cases hstored with
  | plain hnone =>
    rw [hnone] at hpending
    cases hpending
  | @inherited pending found hpending' hfound =>
    cases hpending.symm.trans hpending'
    have hcontainer := Variable.isContainer_of_pendingPatches hpending
    rcases inheritedValue_eq_ok hfound with hpatched | ⟨hnone, rfl⟩
    · obtain ⟨original, patched, horiginal, hpatched, rfl⟩ := hpatched
      exact ⟨Variable.isContainer_withValue hcontainer patched, .inl ⟨original, patched, horiginal,
        hpatched, Variable.value?_withValue_of_isContainer hcontainer patched⟩⟩
    · exact ⟨hcontainer, .inr ⟨hnone, hpending⟩⟩

/-- A scenario keeps what it declares with patches while its steps are compiled. -/
theorem inherits_scenario {setting : Setting} {outer : Declarations} {index : Nat}
    {draft : Draft.Scenario} {compiled : Scenario} {specs : List String} {declaration : Declaration}
    (h : scenario setting outer index draft = .ok (compiled, specs))
    (hget : draft.vars.get? name = some declaration)
    (hpending : declaration.toVariable.pendingPatches? = some patches) :
    ∃ stored, compiled.vars.get? name = some stored ∧ Inherits [outer] name patches stored := by
  obtain ⟨vars, hvars, h⟩ := exists_of_bind_eq_ok h
  obtain ⟨batch, hbatch, h⟩ := exists_of_bind_eq_ok h
  obtain ⟨stored, hstored, hinherits⟩ := inherits_declareAll hvars hget hpending
  have hstable := Declarations.stable_get? name stored
  cases h
  exact ⟨stored, hstable.requireAll (hstable.steps hstored hbatch) outer.required, hinherits⟩

/-- What a step declares is compiled inside the scopes that it sees. -/
theorem declareAll_of_seenAfter {setting : Setting} {phase : Phase} {outer : Option Declarations}
    {label : String} {taken : List String} {owner : Declarations} {drafts : List Draft.Step}
    {batch : Batch} {draft : Draft.Step} {s : Step} {scopes : Scopes} {j : Nat}
    (h : steps setting phase outer label 0 taken owner drafts = .ok batch)
    (hdraft : drafts[j]? = some draft) (hstep : batch.steps[j]? = some s)
    (hseen : SeenAfter setting phase outer label taken owner (drafts.take j) draft scopes) :
    declareAll (scopes.owner :: scopes.outer.toList) draft.vars = .ok s.header.vars := by
  obtain ⟨before, reference, name, outcome, hbefore, -, houtcome, rfl⟩ :=
    exists_outcome_of_steps h hdraft hstep
  obtain ⟨-, ⟨before', hbefore', howner⟩, houter⟩ := hseen
  cases hbefore.symm.trans hbefore'
  obtain ⟨vars, hvars, houtcome⟩ := exists_of_bind_eq_ok houtcome
  obtain ⟨inner, -, houtcome⟩ := exists_of_bind_eq_ok houtcome
  cases houtcome
  rw [Step.header_modifyHeader, houter, ← howner]
  exact hvars

/-- A layer is built from declarations: a container that the compiler was to patch has the value that
the nearest declaration gives, patched, or else the value of the environment around the layer. -/
theorem Inherits.patchedFrom_within {env : Environment} {layer : Layer}
    (h : Inherits around name patches v) (hget : scope.get? name = some v)
    (hlayer : Layer.within env scope = .ok layer) (g : Suffixes) :
    PatchedFrom ((declaredValue? around name).or (env.value? name)) patches
      ((env.child (layer.materialize g).1).value? name) := by
  rcases h.value with ⟨original, patched, horiginal, hpatched, hvalue⟩ | ⟨hnone, hpending⟩
  · rw [Layer.value?_within hlayer hget h.container hvalue, horiginal]
    exact ⟨original, patched, rfl, hpatched, rfl⟩
  · rw [hnone, Option.none_or]
    exact Layer.patchedFrom_within hlayer hget hpending g

end Compile

end Rehearsal
