import Rehearsal.Json.Patch
import Rehearsal.Proofs.Environment.Layers

/-!
# Patched values in an environment

A layer that is built inside an environment binds each variable of its scope that has patches and no
value to the value that the environment holds for its name, patched (`Layer.patchedFrom_within`).
Other containers keep the values that they are declared with (`Layer.value?_within`).
-/

namespace Rehearsal

/-- A value is what patches make of another one. -/
def PatchedFrom (base : Option Json) (patches : List Json) (value : Option Json) : Prop :=
  ∃ original patched, base = some original ∧ Patch.apply original patches = .ok patched ∧
    value = some patched

namespace Variable

variable {v : Variable} {patches : List Json}

theorem isContainer_of_pendingPatches (h : v.pendingPatches? = some patches) :
    v.isContainer = true := by
  cases v with
  | bool | int | text => cases h
  | container kind parts => rfl

theorem isContainer_withValue (hv : v.isContainer = true) (json : Json) :
    (v.withValue json).isContainer = true := by
  cases v with
  | bool | int | text => cases hv
  | container kind parts => rfl

theorem value?_withValue_of_isContainer (hv : v.isContainer = true) (json : Json) :
    (v.withValue json).value? = some json := by
  cases v with
  | bool | int | text => cases hv
  | container kind parts => rfl

/-- A variable with a value has no pending patches. -/
theorem pendingPatches?_of_value? {value : Json} (h : v.value? = some value) :
    v.pendingPatches? = none := by
  cases hpending : v.pendingPatches? with
  | none => rfl
  | some patches =>
    rw [(of_pendingPatches hpending).1] at h
    cases h

end Variable

namespace Layer

variable {layer : Layer} {env : Environment} {scope : Declarations} {name : String} {v : Variable}

theorem get?_materialize_of_isContainer (hget : layer.vars.get? name = some v)
    (hv : v.isContainer = true) (g : Suffixes) : (layer.materialize g).1.vars.get? name = some v := by
  have hrel := layer.get?_materialize g name
  rw [hget] at hrel
  generalize (layer.materialize g).1.vars.get? name = after at hrel ⊢
  cases hrel with
  | some hgenerated =>
    cases hgenerated with
    | drawn => cases hv
    | kept => rfl

theorem value?_child_materialize (hget : layer.vars.get? name = some v) (hv : v.isContainer = true)
    (g : Suffixes) : (env.child (layer.materialize g).1).value? name = v.value? := by
  rw [Environment.value?, Environment.get?, Environment.child, Environment.layers,
    List.findSome?_cons, get?_materialize_of_isContainer hget hv]
  rfl

/-- A variable whose patches are pending has the value that the environment around it holds for its
name, patched. -/
theorem patchedFrom_within (h : Layer.within env scope = .ok layer)
    (hget : scope.get? name = some v) {patches : List Json}
    (hpending : v.pendingPatches? = some patches) (g : Suffixes) :
    PatchedFrom (env.value? name) patches ((env.child (layer.materialize g).1).value? name) := by
  rcases applyPatches_spec h name with ⟨w, pending, value, hw, hwpending, hvalue, hbound⟩ | ⟨hnone, -⟩
  · cases hget.symm.trans hw
    cases hpending.symm.trans hwpending
    have hv := Variable.isContainer_of_pendingPatches hpending
    rw [value?_child_materialize hbound (Variable.isContainer_withValue hv value),
      Variable.value?_withValue_of_isContainer hv]
    rw [Environment.patchedValue] at hvalue
    split at hvalue
    · cases hvalue
    · next original horiginal =>
      split at hvalue
      · split at hvalue
        · next hpatched =>
          cases hvalue
          exact ⟨original, value, horiginal, hpatched, rfl⟩
        · cases hvalue
      · cases hvalue
  · rw [hnone v hget] at hpending
    cases hpending

/-- A container that is declared with a value has that value. -/
theorem value?_within (h : Layer.within env scope = .ok layer) (hget : scope.get? name = some v)
    (hv : v.isContainer = true) {value : Json} (hvalue : v.value? = some value) (g : Suffixes) :
    (env.child (layer.materialize g).1).value? name = some value := by
  rcases applyPatches_spec h name with ⟨w, pending, patched, hw, hpending, -, -⟩ | ⟨-, hkept⟩
  · cases hget.symm.trans hw
    rw [Variable.pendingPatches?_of_value? hvalue] at hpending
    cases hpending
  · have hexternal : isExternal v = false := by simp [isExternal, Variable.hasValue, hvalue]
    rw [get?_declare_empty, hget, Option.filter_some_pos (by simp [hexternal])] at hkept
    rw [value?_child_materialize hkept hv, hvalue]

end Layer

end Rehearsal
