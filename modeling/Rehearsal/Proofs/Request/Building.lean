import Rehearsal.Proofs.Walk
import Rehearsal.Request

/-!
# What a request is built from

A request is built by a walk along the parameters of its operation. A walk that fails does so at a
parameter that has to have a value and has none, or at one that has a value and goes where no
request can carry it (`Request.exists_fault_of_ofStep`). A walk that succeeds leaves the value of
every parameter where the parameter goes (`Request.placed_of_ofStep`).
-/

namespace Rehearsal

namespace Request

variable {op : Operation} {values : Dict Json} {request request' : Request}
  {parameter other : Parameter} {value : Json}

/-- What a request has in the place where a parameter goes. -/
def placed (request : Request) (parameter : Parameter) : Option Json :=
  match parameter.location with
  | .path => request.pathParameters.get? parameter.name
  | .query => request.query.get? parameter.name
  | .header => request.headers.get? parameter.name
  | .body => request.body
  | .formData => none

/-- Why one parameter keeps a request from being built. -/
inductive Fault (op : Operation) (values : Dict Json) (parameter : Parameter) : RequestError → Prop
  /-- The parameter has no value, and it has to have one. -/
  | missing (hvalue : values.get? parameter.name = none)
      (hneeded : parameter.required = true ∨ parameter.location = .path) :
      Fault op values parameter (.missingParameter op.id parameter.name)
  /-- The parameter has a value, and it goes into a form. -/
  | unsupported (hvalue : (values.get? parameter.name).isSome = true)
      (hlocation : parameter.location = .formData) :
      Fault op values parameter (.unsupportedLocation op.id parameter.name .formData)

/-! ### One parameter -/

theorem fault_of_addParameter {e : RequestError}
    (h : addParameter op values request parameter = .error e) : Fault op values parameter e := by
  unfold addParameter at h
  split at h
  · next hvalue =>
    split at h
    · next hneeded =>
      cases h
      exact .missing hvalue (by simpa using hneeded)
    · cases h
  · next value hvalue =>
    cases hlocation : parameter.location <;> simp only [hlocation] at h <;> cases h
    exact .unsupported (by rw [hvalue]; rfl) hlocation

/-- A parameter that has to have a value has one if the request is built. -/
theorem exists_value_of_addParameter (h : addParameter op values request parameter = .ok request')
    (hneeded : parameter.required = true ∨ parameter.location = .path) :
    ∃ value, values.get? parameter.name = some value := by
  cases hvalue : values.get? parameter.name with
  | some value => exact ⟨value, rfl⟩
  | none =>
    have hneeded' : (parameter.required || parameter.location == .path) = true := by
      simpa using hneeded
    rw [addParameter, hvalue] at h
    simp only [hneeded', if_true] at h
    cases h

theorem path_of_addParameter (h : addParameter op values request parameter = .ok request') :
    request'.path = request.path := by
  unfold addParameter at h
  split at h
  · split at h
    · cases h
    · cases h; rfl
  · cases hlocation : parameter.location <;> simp only [hlocation] at h <;> cases h <;> rfl

theorem placed_of_addParameter (h : addParameter op values request parameter = .ok request')
    (hvalue : values.get? parameter.name = some value) :
    request'.placed parameter = some value := by
  rw [addParameter, hvalue] at h
  cases hlocation : parameter.location <;> simp only [hlocation] at h <;> cases h <;>
    simp [placed, hlocation, Dict.get?_insert]

/-- What stands in its place stays there, since two parameters of a name have the same value; only
the body is replaced by another body. -/
theorem placed_of_addParameter_of_placed
    (h : addParameter op values request parameter = .ok request')
    (hvalue : values.get? other.name = some value) (hplaced : request.placed other = some value)
    (hbody : other.location = .body → parameter.location ≠ .body) :
    request'.placed other = some value := by
  unfold addParameter at h
  split at h
  · split at h
    · cases h
    · cases h; exact hplaced
  · next added hadded =>
    -- Where both parameters go to one place they have one name or two.
    have hinsert (dict : Dict Json) (hget : dict.get? other.name = some value) :
        (dict.insert parameter.name added).get? other.name = some value := by
      rw [Dict.get?_insert]
      split
      · next heq => rw [← hadded, ← heq, hvalue]
      · exact hget
    cases hother : other.location <;> simp only [placed, hother] at hplaced ⊢ <;>
      cases hlocation : parameter.location <;> simp only [hlocation] at h <;> cases h
    all_goals first
      | exact hplaced
      | exact hinsert _ hplaced
      | exact absurd hlocation (hbody hother)

/-! ### All parameters -/

section Walk

variable {parameters : List Parameter}

theorem exists_fault_of_foldlM {e : RequestError}
    (h : parameters.foldlM (addParameter op values) request = .error e) :
    ∃ parameter ∈ parameters, Fault op values parameter e := by
  induction parameters generalizing request with
  | nil => cases h
  | cons parameter parameters ih =>
    rw [List.foldlM_cons] at h
    cases hone : addParameter op values request parameter with
    | error e' =>
      rw [hone] at h
      cases h
      exact ⟨parameter, List.mem_cons_self, fault_of_addParameter hone⟩
    | ok next =>
      rw [hone] at h
      obtain ⟨other, hmem, hfault⟩ := ih h
      exact ⟨other, List.mem_cons_of_mem parameter hmem, hfault⟩

variable (h : parameters.foldlM (addParameter op values) request = .ok request')

include h

theorem path_of_foldlM : request'.path = request.path :=
  foldlM_keeps (P := fun request' => request'.path = request.path) h rfl
    fun _ _ _ _ hone hpath => (path_of_addParameter hone).trans hpath

theorem exists_value_of_foldlM (hmem : parameter ∈ parameters)
    (hneeded : parameter.required = true ∨ parameter.location = .path) :
    ∃ value, values.get? parameter.name = some value := by
  obtain ⟨before, behind, rfl⟩ := List.append_of_mem hmem
  rw [List.foldlM_append] at h
  obtain ⟨reached, -, h⟩ := exists_of_bind_eq_ok h
  rw [List.foldlM_cons] at h
  obtain ⟨next, hone, -⟩ := exists_of_bind_eq_ok h
  exact exists_value_of_addParameter hone hneeded

theorem placed_of_foldlM (hmem : parameter ∈ parameters)
    (hbody : parameter.location = .body →
      parameters.Pairwise fun a b => ¬ (a.location = .body ∧ b.location = .body))
    (hvalue : values.get? parameter.name = some value) : request'.placed parameter = some value := by
  obtain ⟨before, behind, rfl⟩ := List.append_of_mem hmem
  rw [List.foldlM_append] at h
  obtain ⟨reached, -, h⟩ := exists_of_bind_eq_ok h
  rw [List.foldlM_cons] at h
  obtain ⟨next, hone, h⟩ := exists_of_bind_eq_ok h
  refine foldlM_keeps (P := fun r => r.placed parameter = some value) h
    (placed_of_addParameter hone hvalue) fun later hlater r r' hr hplaced => ?_
  refine placed_of_addParameter_of_placed hr hvalue hplaced fun hlocation hlater' => ?_
  have hpairwise := (List.pairwise_append.1 (hbody hlocation)).2.1
  exact (List.pairwise_cons.1 hpairwise).1 later hlater ⟨hlocation, hlater'⟩

end Walk

/-! ### Steps -/

variable {step : RestCallStep}

theorem exists_fault_of_ofStep {e : RequestError} (h : ofStep step = .error e) :
    ∃ parameter ∈ step.operation.parameters, Fault step.operation step.parameters parameter e :=
  exists_fault_of_foldlM h

theorem path_of_ofStep (h : ofStep step = .ok request) :
    request.path = PathTemplate.toPlaceholders step.operation.path :=
  path_of_foldlM h

/-- A request that is built has a value for every path parameter. -/
theorem exists_value_of_ofStep (h : ofStep step = .ok request)
    (hmem : parameter ∈ step.operation.parameters)
    (hneeded : parameter.required = true ∨ parameter.location = .path) :
    ∃ value, step.parameters.get? parameter.name = some value :=
  exists_value_of_foldlM h hmem hneeded

/-- A request that is built has the value of a parameter where the parameter goes; for the body this
needs that no other parameter is the body. -/
theorem placed_of_ofStep (h : ofStep step = .ok request)
    (hmem : parameter ∈ step.operation.parameters)
    (hbody : parameter.location = .body → step.operation.parameters.Pairwise fun a b =>
      ¬ (a.location = .body ∧ b.location = .body))
    (hvalue : step.parameters.get? parameter.name = some value) :
    request.placed parameter = some value :=
  placed_of_foldlM h hmem hbody hvalue

end Request

end Rehearsal
