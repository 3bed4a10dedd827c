import Rehearsal.Proofs.Environment.Resolution

/-!
# What resolution looks at

The resolution of a name looks at the values of the names it leads to, and at nothing else. So two
environments in which those have the same values agree on what it comes to
(`Environment.lookup_congr`, `Environment.requireString_congr`), and on what a whole target comes to,
in whatever layers the names are bound (`Environment.resolve_eq_of_agreesOn`). In particular a
variable can be set to anything as long as no reference leads to it
(`Environment.requireString_modifyInner_setAll`).
-/

namespace Rehearsal

namespace Layer

/-- A layer in which variables are set one after the other. -/
def setAll (layer : Layer) (entries : List (String × Variable)) : Layer :=
  entries.foldl (fun layer entry => layer.set entry.1 entry.2) layer

theorem setAll_append (layer : Layer) (entries entries' : List (String × Variable)) :
    layer.setAll (entries ++ entries') = (layer.setAll entries).setAll entries' :=
  List.foldl_append

theorem get?_vars_set (layer : Layer) (name other : String) (v : Variable) :
    (layer.set name v).vars.get? other = if other = name then some v else layer.vars.get? other := by
  unfold set bind
  split <;> exact Dict.get?_insert ..

theorem get?_vars_setAll {layer : Layer} {entries : List (String × Variable)} {name : String}
    (h : ∀ entry ∈ entries, entry.1 ≠ name) :
    (layer.setAll entries).vars.get? name = layer.vars.get? name := by
  induction entries generalizing layer with
  | nil => rfl
  | cons entry entries ih =>
    have hrest : ((layer.set entry.1 entry.2).setAll entries).vars.get? name =
        (layer.set entry.1 entry.2).vars.get? name :=
      ih fun other hmem => h other (List.mem_cons_of_mem _ hmem)
    change ((layer.set entry.1 entry.2).setAll entries).vars.get? name = _
    rw [hrest, get?_vars_set, if_neg (h entry List.mem_cons_self).symm]

end Layer

namespace Environment

variable {env env' : Environment} {mode : ResolveMode} {stack : List String} {name : String}

theorem resolveOn_congr {target : Json}
    (h : ∀ n ∈ target.placeholders, env'.lookup mode stack n = env.lookup mode stack n) :
    env'.resolveOn mode stack target = env.resolveOn mode stack target :=
  Json.traverse_congr h

/-- A look-up depends on the names on the stack that it can come to. -/
theorem lookup_of_stacks {other : List String} (h : ∀ n, env.Reaches name n → (n ∈ stack ↔ n ∈ other)) :
    env.lookup mode stack name = env.lookup mode other name := by
  induction stack, name using lookup.induct env mode generalizing other with
  | case1 stack name hmem => rw [lookup_of_mem hmem, lookup_of_mem ((h name .refl).1 hmem)]
  | case2 stack name hnew hvalue hmode =>
    subst hmode
    have hother : name ∉ other := fun hmem => hnew ((h name .refl).2 hmem)
    rw [lookup_strict_of_unbound hnew hvalue, lookup_strict_of_unbound hother hvalue]
  | case3 stack name hnew hvalue hmode =>
    subst hmode
    have hother : name ∉ other := fun hmem => hnew ((h name .refl).2 hmem)
    rw [lookup_deferred_of_unbound hnew hvalue, lookup_deferred_of_unbound hother hvalue]
  | case4 stack name hnew value hvalue ih =>
    have hother : name ∉ other := fun hmem => hnew ((h name .refl).2 hmem)
    rw [lookup_of_bound hnew hvalue, lookup_of_bound hother hvalue]
    refine congrArg (Except.map some) (Json.traverse_congr fun next hnext => ih next fun n hn => ?_)
    rw [List.mem_cons, List.mem_cons, h n (.head ((refers_of_value? hvalue).2 hnext) hn)]

theorem exists_some_of_lookup {found : Option Json} (h : env.lookup mode stack name = .ok found)
    (hvalue : env.value? name ≠ none) : ∃ json, found = some json := by
  obtain ⟨value, hvalue⟩ := Option.ne_none_iff_exists'.1 hvalue
  have hstack : name ∉ stack := (not_inCycle_of_lookup h .refl).1
  rw [lookup_of_bound hstack hvalue] at h
  cases hresult : env.resolveOn mode (name :: stack) value with
  | error e => rw [hresult] at h; cases h
  | ok json => rw [hresult] at h; cases h; exact ⟨json, rfl⟩

/-- A look-up that succeeds does not depend on the stack. -/
theorem lookup_nil_of_lookup {found : Option Json} (h : env.lookup mode stack name = .ok found) :
    env.lookup mode [] name = .ok found := by
  rw [← h]
  refine lookup_of_stacks fun n hn => ?_
  simpa using (not_inCycle_of_lookup h hn).1

/-- A look-up depends on the values of the names that can be reached. -/
theorem lookup_congr (h : ∀ n, env.Reaches name n → env'.value? n = env.value? n) :
    env'.lookup mode stack name = env.lookup mode stack name := by
  induction stack, name using lookup.induct env mode with
  | case1 stack name hmem => rw [lookup_of_mem hmem, lookup_of_mem hmem]
  | case2 stack name hnew hvalue hmode =>
    subst hmode
    rw [lookup_strict_of_unbound hnew hvalue,
      lookup_strict_of_unbound hnew ((h name .refl).trans hvalue)]
  | case3 stack name hnew hvalue hmode =>
    subst hmode
    rw [lookup_deferred_of_unbound hnew hvalue,
      lookup_deferred_of_unbound hnew ((h name .refl).trans hvalue)]
  | case4 stack name hnew value hvalue ih =>
    rw [lookup_of_bound hnew hvalue, lookup_of_bound hnew ((h name .refl).trans hvalue)]
    refine congrArg (Except.map some) (resolveOn_congr fun next hnext => ih next fun n hn => ?_)
    exact h n (.head ((refers_of_value? hvalue).2 hnext) hn)

theorem requireString_congr (h : ∀ n, env.Reaches name n → env'.value? n = env.value? n) :
    env'.requireString name = env.requireString name := by
  rw [requireString, requireString, h name .refl]
  cases hvalue : env.value? name with
  | none => rfl
  | some value =>
    have hresolve : env'.resolveOn .strict [name] value = env.resolveOn .strict [name] value :=
      resolveOn_congr fun next hnext => lookup_congr fun n hn =>
        h n (.head ((refers_of_value? hvalue).2 hnext) hn)
    dsimp only
    rw [hresolve]

theorem value?_modifyInner_setAll {entries : List (String × Variable)}
    (h : ∀ entry ∈ entries, entry.1 ≠ name) :
    (env.modifyInner fun layer => layer.setAll entries).value? name = env.value? name := by
  rw [value?, value?, get?, get?, layers, layers, List.findSome?_cons, List.findSome?_cons,
    modifyInner, Layer.get?_vars_setAll h]

/-- Setting variables that a name does not lead to leaves what it comes to as it was. -/
theorem requireString_modifyInner_setAll {entries : List (String × Variable)}
    (h : ∀ entry ∈ entries,
      ¬ (env.modifyInner fun layer => layer.setAll entries).Reaches name entry.1) :
    (env.modifyInner fun layer => layer.setAll entries).requireString name =
      env.requireString name := by
  refine (requireString_congr fun n hn => ?_).symm
  exact (value?_modifyInner_setAll fun entry hmem heq => h entry hmem (heq ▸ hn)).symm

/-! ### Targets -/

theorem refers_congr {a b : String} (h : env'.value? a = env.value? a) :
    env'.Refers a b ↔ env.Refers a b := by
  rw [Refers, Refers, references, references, h]

/-- Where values agree along all references, the references lead to the same names. -/
theorem reaches_congr (h : ∀ n, env.Reaches name n → env'.value? n = env.value? n) {n : String} :
    env'.Reaches name n ↔ env.Reaches name n := by
  constructor
  · intro hreach
    induction hreach with
    | refl => exact .refl
    | tail _ hrefers ih => exact ih.tail ((refers_congr (h _ ih)).1 hrefers)
  · intro hreach
    induction hreach with
    | refl => exact .refl
    | tail hreach hrefers ih => exact ih.tail ((refers_congr (h _ hreach)).2 hrefers)

/-- The names that a target reaches in the first environment have the same values in the second one,
or have none in both. -/
def AgreesOn (env env' : Environment) (target : Json) : Prop :=
  ∀ name, env.ReachedFrom target name → env'.value? name = env.value? name

/-- **What a target does not reach has no influence.** If two environments agree on the names that a
target reaches, it reaches the same names in both, and in either mode of resolution it comes to the
same value or fails with the same error: in whatever layers the names are bound, and whatever else
is. -/
theorem resolve_eq_of_agreesOn {target : Json} (h : env.AgreesOn env' target) :
    (∀ mode, env'.resolve mode target = env.resolve mode target) ∧
    env'.resolveDeferred target = env.resolveDeferred target ∧
    ∀ name, env'.ReachedFrom target name ↔ env.ReachedFrom target name := by
  have hroot (root : String) (hmem : root ∈ target.placeholders) (n : String)
      (hn : env.Reaches root n) : env'.value? n = env.value? n := h n ⟨root, hmem, hn⟩
  have hresolve (mode : ResolveMode) : env'.resolve mode target = env.resolve mode target :=
    resolveOn_congr fun root hmem => lookup_congr (hroot root hmem)
  refine ⟨hresolve, ?_, fun name => ?_⟩
  · rw [resolveDeferred, resolveDeferred, hresolve]
  · refine exists_congr fun root => and_congr_right fun hmem => ?_
    exact reaches_congr (hroot root hmem)

/-- An address that refers to a host of the layer around it. -/
def spread : Environment where
  inner := ({} : Layer).set "url" (.string "http://$(host)")
  outer := [({} : Layer).set "host" (.string "h")]

/-- The address and its host in one layer, beside a name that refers to itself. -/
def gathered : Environment where
  inner := spread.inner.set "host" (.string "h") |>.set "loop" (.string "$(loop)")

theorem agreesOn_gathered : spread.AgreesOn gathered (.str "$(url)") := by
  rintro name ⟨root, hroot, hreach⟩
  have htarget : Json.placeholders (.str "$(url)") = ["url"] := by decide +kernel
  have hurl : spread.references "url" = ["host"] := by decide +kernel
  have hhost : spread.references "host" = [] := by decide +kernel
  rw [htarget, List.mem_singleton] at hroot
  have hname : name = "url" ∨ name = "host" := by
    induction hreach with
    | refl => exact .inl hroot
    | tail _ hrefers ih =>
      rcases ih with rfl | rfl
      · rw [Refers, hurl, List.mem_singleton] at hrefers
        exact .inr hrefers
      · rw [Refers, hhost] at hrefers
        cases hrefers
  rcases hname with rfl | rfl <;> rfl

theorem resolve_gathered :
    spread.AgreesOn gathered (.str "$(url)") ∧
    (∀ mode, gathered.resolve mode (.str "$(url)") = spread.resolve mode (.str "$(url)")) ∧
    gathered.resolveDeferred (.str "$(url)") = spread.resolveDeferred (.str "$(url)") ∧
    ∀ name, gathered.ReachedFrom (.str "$(url)") name ↔ spread.ReachedFrom (.str "$(url)") name :=
  ⟨agreesOn_gathered, resolve_eq_of_agreesOn agreesOn_gathered⟩

end Environment

end Rehearsal
