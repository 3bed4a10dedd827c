import Rehearsal.Proofs.Placeholder.Token
import Rehearsal.Proofs.Environment.Reference

/-!
# When resolution succeeds

Resolution follows the references of a value without knowing the graph they form: all it has is
the stack of the names it is inside of. Yet what it comes to is a property of that graph
(`Environment.resolve_succeeds_iff`): deferred resolution fails if and only if a cycle can be
reached, and strict resolution succeeds if and only if neither a cycle nor a name without a value
can be.

Both directions are proved along the recursion of `Environment.lookup`.

* The names on the stack lead to the name that is looked up, so a name met again is on a cycle
  (`Environment.exists_obstacle_of_lookup`).
* A look-up that succeeds has walked every path that begins at its name
  (`Environment.not_inCycle_of_lookup`).

`Environment.lookupWithin` is the same recursion without the measure that makes `lookup` total. It
gives up at a bounded depth, and the number of bound names bounds how deep resolution ever gets,
with cycles or without (`Environment.resolveWithin_eq`).
-/

namespace Rehearsal

namespace Environment

variable {env : Environment} {mode : ResolveMode} {stack : List String} {name : String}

/-! ### One look-up -/

theorem lookup_of_mem (h : name ∈ stack) :
    env.lookup mode stack name = .error (.circular name) := by
  rw [lookup.eq_def, dif_pos h]

theorem lookup_strict_of_unbound (h : name ∉ stack) (hvalue : env.value? name = none) :
    env.lookup .strict stack name = .error (.missing name) := by
  rw [lookup.eq_def, dif_neg h]
  split
  · rfl
  · next hsome => rw [hvalue] at hsome; cases hsome

theorem lookup_deferred_of_unbound (h : name ∉ stack) (hvalue : env.value? name = none) :
    env.lookup .deferred stack name = .ok none := by
  rw [lookup.eq_def, dif_neg h]
  split
  · rfl
  · next hsome => rw [hvalue] at hsome; cases hsome

theorem lookup_of_bound {value : Json} (h : name ∉ stack) (hvalue : env.value? name = some value) :
    env.lookup mode stack name = (env.resolveOn mode (name :: stack) value).map some := by
  rw [lookup.eq_def, dif_neg h]
  split
  · next hnone => rw [hvalue] at hnone; cases hnone
  · next hsome => rw [hvalue] at hsome; cases hsome; rfl

/-- The placeholder of a name comes to what its value comes to inside of the name. -/
theorem resolve_token_of_bound {value : Json} (hname : Placeholder.isName name = true)
    (hvalue : env.value? name = some value) :
    env.resolve mode (.str (Placeholder.token name)) = env.resolveOn mode [name] value := by
  rw [resolve, resolveOn, Json.traverse, Placeholder.substitute_token hname,
    lookup_of_bound List.not_mem_nil hvalue]
  cases env.resolveOn mode [name] value <;> rfl

variable (mode) in
/-- A look-up of a name with a value follows the look-ups of the names that the value mentions. -/
theorem follows_lookup {value : Json} (h : name ∉ stack) (hvalue : env.value? name = some value) :
    Follows (env.lookup mode (name :: stack)) value.placeholders (env.lookup mode stack name) := by
  rw [lookup_of_bound h hvalue]
  exact (Json.follows_traverse _ value).map some

/-! ### Failure -/

/-- What a failure of resolution says about a name: it is on a cycle, or it has no value although
it needs one. -/
inductive Obstacle (env : Environment) (mode : ResolveMode) (name : String) : VariableError → Prop
  | circular (h : env.InCycle name) : Obstacle env mode name (.circular name)
  | missing (hmode : mode = .strict) (h : env.value? name = none) :
      Obstacle env mode name (.missing name)

/-- If every name on the stack leads to the name that is looked up, a failure shows an obstacle
that can be reached from there. -/
theorem exists_obstacle_of_lookup {e : VariableError} (h : env.lookup mode stack name = .error e)
    (hstack : ∀ s ∈ stack, Relation.TransGen env.Refers s name) :
    ∃ n, env.Reaches name n ∧ Obstacle env mode n e := by
  induction stack, name using lookup.induct env mode generalizing e with
  | case1 stack name hmem =>
    rw [lookup_of_mem hmem] at h
    cases h
    exact ⟨name, .refl, .circular (hstack name hmem)⟩
  | case2 stack name hnew hvalue hmode =>
    subst hmode
    rw [lookup_strict_of_unbound hnew hvalue] at h
    cases h
    exact ⟨name, .refl, .missing rfl hvalue⟩
  | case3 stack name hnew hvalue hmode =>
    subst hmode
    rw [lookup_deferred_of_unbound hnew hvalue] at h
    cases h
  | case4 stack name hnew value hvalue ih =>
    have hfollows := follows_lookup mode hnew hvalue
    rw [h] at hfollows
    obtain ⟨next, hnext, he⟩ := hfollows
    have hrefers : env.Refers name next := (refers_of_value? hvalue).2 hnext
    -- The name itself joins the stack, and one reference leads on from it.
    obtain ⟨n, hn, hobstacle⟩ := ih next he fun s hs => by
      rcases List.mem_cons.1 hs with rfl | hs
      · exact .single hrefers
      · exact (hstack s hs).tail hrefers
    exact ⟨n, .head hrefers hn, hobstacle⟩

/-! ### Success -/

/-- What success of a look-up says about every name that can be reached: it has not been met on
the way, it is on no cycle, and it has a value if it needs one. -/
theorem not_inCycle_of_lookup {found : Option Json} (h : env.lookup mode stack name = .ok found)
    {n : String} (hn : env.Reaches name n) :
    n ∉ stack ∧ ¬ env.InCycle n ∧ (mode = .strict → (env.value? n).isSome = true) := by
  induction stack, name using lookup.induct env mode generalizing found n with
  | case1 stack name hmem =>
    rw [lookup_of_mem hmem] at h
    cases h
  | case2 stack name hnew hvalue hmode =>
    subst hmode
    rw [lookup_strict_of_unbound hnew hvalue] at h
    cases h
  | case3 stack name hnew hvalue hmode =>
    -- A name without a value refers to nothing.
    have hleaf : ∀ next, ¬ env.Refers name next := fun next hrefers =>
      value?_ne_none_of_refers hrefers hvalue
    rcases Relation.ReflTransGen.cases_head hn with rfl | ⟨next, hrefers, -⟩
    · refine ⟨hnew, fun hcycle => ?_, fun hstrict => by rw [hmode] at hstrict; cases hstrict⟩
      obtain ⟨next, hrefers, -⟩ := inCycle_iff.1 hcycle
      exact hleaf next hrefers
    · exact absurd hrefers (hleaf next)
  | case4 stack name hnew value hvalue ih =>
    have hfollows := follows_lookup mode hnew hvalue
    rw [h] at hfollows
    have hbelow : ∀ next, env.Refers name next → ∀ m, env.Reaches next m →
        m ∉ name :: stack ∧ ¬ env.InCycle m ∧ (mode = .strict → (env.value? m).isSome = true) := by
      intro next hrefers m hm
      obtain ⟨found, hfound⟩ := hfollows next ((refers_of_value? hvalue).1 hrefers)
      exact ih next hfound hm
    rcases Relation.ReflTransGen.cases_head hn with rfl | ⟨next, hrefers, hreach⟩
    · refine ⟨hnew, fun hcycle => ?_, fun _ => by rw [hvalue]; rfl⟩
      obtain ⟨next, hrefers, hback⟩ := inCycle_iff.1 hcycle
      exact (hbelow next hrefers name hback).1 List.mem_cons_self
    · obtain ⟨hstack, hrest⟩ := hbelow next hrefers n hreach
      exact ⟨fun hmem => hstack (List.mem_cons_of_mem name hmem), hrest⟩

/-! ### Depth -/

/-- `lookup` with look-ups nested inside each other no deeper than `depth`; the error `none` says
that the depth was not enough. -/
def lookupWithin (env : Environment) (mode : ResolveMode) :
    (depth : Nat) → (stack : List String) → (name : String) →
      Except (Option VariableError) (Option Json)
  | 0, _, _ => .error none
  | depth + 1, stack, name =>
    if name ∈ stack then .error (some (.circular name))
    else
      match env.value? name with
      | none =>
        match mode with
        | .strict => .error (some (.missing name))
        | .deferred => .ok none
      | some value =>
        (value.traverse (Placeholder.substitute (env.lookupWithin mode depth (name :: stack)))).map
          some

/-- `resolve` with look-ups nested inside each other no deeper than `depth`. -/
def resolveWithin (env : Environment) (mode : ResolveMode) (depth : Nat) (target : Json) :
    Except (Option VariableError) Json :=
  target.traverse (Placeholder.substitute (env.lookupWithin mode depth []))

theorem lookupWithin_eq {depth : Nat}
    (h : (env.names.filter fun n => !stack.contains n).length < depth) :
    env.lookupWithin mode depth stack name = (env.lookup mode stack name).mapError some := by
  induction depth generalizing stack name with
  | zero => omega
  | succ depth ih =>
    unfold lookupWithin
    by_cases hstack : name ∈ stack
    · rw [if_pos hstack, lookup_of_mem hstack]
      rfl
    · rw [if_neg hstack]
      cases hvalue : env.value? name with
      | none =>
        cases mode with
        | strict => rw [lookup_strict_of_unbound hstack hvalue]; rfl
        | deferred => rw [lookup_deferred_of_unbound hstack hvalue]; rfl
      | some value =>
        have hless := length_filter_not_contains_cons_lt (mem_names_of_value? hvalue) hstack
        rw [lookup_of_bound hstack hvalue, ← map_mapError]
        refine congrArg (Except.map some) (Json.traverse_mapError some fun next _ => ih ?_)
        omega

theorem resolveWithin_eq {depth : Nat} {target : Json} (h : env.names.length < depth) :
    env.resolveWithin mode depth target = (env.resolve mode target).mapError some :=
  Json.traverse_mapError some fun _ _ => lookupWithin_eq
    (Nat.lt_of_le_of_lt (List.length_filter_le _ _) h)

/-! ### Whole values -/

theorem exists_obstacle_of_resolve {target : Json} {e : VariableError}
    (h : env.resolve mode target = .error e) :
    ∃ n, env.ReachedFrom target n ∧ Obstacle env mode n e := by
  have hfollows := Json.follows_traverse (env.lookup mode []) target
  rw [show target.traverse _ = _ from h] at hfollows
  obtain ⟨root, hroot, he⟩ := hfollows
  obtain ⟨n, hn, hobstacle⟩ :=
    exists_obstacle_of_lookup he fun s hs => absurd hs List.not_mem_nil
  exact ⟨n, ⟨root, hroot, hn⟩, hobstacle⟩

theorem not_inCycle_of_resolve {target value : Json} (h : env.resolve mode target = .ok value)
    {n : String} (hn : env.ReachedFrom target n) :
    ¬ env.InCycle n ∧ (mode = .strict → (env.value? n).isSome = true) := by
  obtain ⟨root, hroot, hreach⟩ := hn
  have hfollows := Json.follows_traverse (env.lookup mode []) target
  rw [show target.traverse _ = _ from h] at hfollows
  obtain ⟨found, hfound⟩ := hfollows root hroot
  exact (not_inCycle_of_lookup hfound hreach).2

/-- **Resolution decides reachability.** The look-ups of a resolution nest no deeper than there are
bound names, so it ends. In deferred mode it fails if and only if a cycle can be reached from the
target, and then it names a name on such a cycle; in strict mode it succeeds if and only if no
cycle can be reached and every name that can be reached has a value. -/
theorem resolve_succeeds_iff (env : Environment) (target : Json) :
    (∀ mode depth, env.names.length < depth →
      env.resolveWithin mode depth target = (env.resolve mode target).mapError some) ∧
    ((∃ e, env.resolve .deferred target = .error e) ↔
      ∃ name, env.ReachedFrom target name ∧ env.InCycle name) ∧
    (∀ e, env.resolve .deferred target = .error e →
      ∃ name, e = .circular name ∧ env.ReachedFrom target name ∧ env.InCycle name) ∧
    ((∃ value, env.resolve .strict target = .ok value) ↔
      ∀ name, env.ReachedFrom target name →
        ¬ env.InCycle name ∧ (env.value? name).isSome = true) := by
  have hcircular : ∀ e, env.resolve .deferred target = .error e →
      ∃ name, e = .circular name ∧ env.ReachedFrom target name ∧ env.InCycle name := by
    intro e he
    obtain ⟨name, hname, hobstacle⟩ := exists_obstacle_of_resolve he
    cases hobstacle with
    | circular hcycle => exact ⟨name, rfl, hname, hcycle⟩
    | missing hmode => cases hmode
  refine ⟨fun mode depth hdepth => resolveWithin_eq hdepth, ⟨?_, ?_⟩, hcircular, ⟨?_, ?_⟩⟩
  · rintro ⟨e, he⟩
    obtain ⟨name, -, hname, hcycle⟩ := hcircular e he
    exact ⟨name, hname, hcycle⟩
  · rintro ⟨name, hname, hcycle⟩
    cases hresult : env.resolve .deferred target with
    | error e => exact ⟨e, rfl⟩
    | ok value => exact absurd hcycle (not_inCycle_of_resolve hresult hname).1
  · rintro ⟨value, hvalue⟩ name hname
    obtain ⟨hcycle, hbound⟩ := not_inCycle_of_resolve hvalue hname
    exact ⟨hcycle, hbound rfl⟩
  · intro hall
    cases hresult : env.resolve .strict target with
    | ok value => exact ⟨value, rfl⟩
    | error e =>
      exfalso
      obtain ⟨name, hname, hobstacle⟩ := exists_obstacle_of_resolve hresult
      obtain ⟨hacyclic, hbound⟩ := hall name hname
      cases hobstacle with
      | circular hcycle => exact hacyclic hcycle
      | missing hmode hvalue => rw [hvalue] at hbound; cases hbound

end Environment

end Rehearsal
