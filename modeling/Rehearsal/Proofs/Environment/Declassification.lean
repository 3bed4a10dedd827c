import Mathlib
import Rehearsal.Proofs.Walk
import Rehearsal.Proofs.Environment.Secrecy

/-!
# Secrecy after full resolution

`Environment.resolveAll` puts resolved values in the place of values with placeholders, and with
the placeholders go the references that secrecy is closed over. It keeps every declaration of
secrecy (`Environment.declaresSecret_resolveAll`), but a name that is only secret for what it
refers to stays secret if and only if the placeholders that are left still lead to a name declared
secret (`Environment.isSecret_resolveAll_iff`).
-/

namespace Rehearsal

namespace Layer

theorem secrets_bindAll (entries : List (String × Variable)) (layer : Layer) :
    (entries.foldl (fun layer entry => layer.bind entry.1 entry.2) layer).secrets =
      layer.secrets := by
  induction entries generalizing layer with
  | nil => rfl
  | cons entry rest ih => rw [List.foldl_cons, ih]; rfl

/-- Binding entries that agree with `f` makes their names mean what `f` says. -/
theorem get?_bindAll {f : String → Option Variable} {entries : List (String × Variable)}
    (h : ∀ entry ∈ entries, f entry.1 = some entry.2) (layer : Layer) (name : String) :
    (entries.foldl (fun layer entry => layer.bind entry.1 entry.2) layer).vars.get? name =
      if name ∈ entries.map Prod.fst then f name else layer.vars.get? name := by
  induction entries generalizing layer with
  | nil => rfl
  | cons entry rest ih =>
    rw [List.foldl_cons, ih fun entry hmem => h entry (List.mem_cons_of_mem _ hmem)]
    have hentry := h entry List.mem_cons_self
    by_cases hrest : name ∈ rest.map Prod.fst
    · rw [if_pos hrest, if_pos (by simp [hrest])]
    · rw [if_neg hrest, bind, Dict.get?_insert]
      by_cases heq : name = entry.1
      · rw [if_pos heq, if_pos (by simp [heq]), heq, hentry]
      · have hnot : name ∉ (entry :: rest).map Prod.fst := by
          rw [List.map_cons, List.mem_cons, not_or]
          exact ⟨heq, hrest⟩
        rw [if_neg heq, if_neg hnot]

end Layer

namespace Environment

variable {env env' : Environment} {name : String}

/-! ### What `resolveAll` binds -/

/-- The variable that a name means once every variable is resolved. -/
def settled? (env : Environment) (name : String) : Option Variable :=
  match env.resolvedVariable name with
  | .ok (some v) => some v
  | _ => env.get? name

theorem exists_withValue_of_resolvedVariable {v : Variable}
    (h : env.resolvedVariable name = .ok (some v)) :
    ∃ u next, env.get? name = some u ∧ v = u.withValue next := by
  rw [resolvedVariable] at h
  cases hget : env.get? name with
  | none => rw [hget] at h; cases h
  | some u =>
    rw [hget] at h
    cases hvalue : u.value? with
    | none => simp only [hvalue] at h; cases h
    | some value =>
      simp only [hvalue] at h
      split at h
      · cases hnext : env.resolveOn .deferred [name] value with
        | error e => rw [hnext] at h; cases h
        | ok next =>
          rw [hnext] at h
          change Except.ok (if next.same value then none else some (u.withValue next)) = _ at h
          split at h
          · cases h
          · cases h; exact ⟨u, next, rfl, rfl⟩
      · cases h

/-- `resolvedVariables` lists the variables that resolution changes. -/
theorem mem_resolvedVariables {resolved : List (String × Variable)}
    (h : env.resolvedVariables = .ok resolved) {v : Variable} :
    (name, v) ∈ resolved ↔ env.resolvedVariable name = .ok (some v) := by
  rw [resolvedVariables] at h
  cases hpairs : env.names.mapM fun name => do return (name, ← env.resolvedVariable name) with
  | error e => rw [hpairs] at h; cases h
  | ok pairs =>
    rw [hpairs] at h
    cases h
    constructor
    · intro hmem
      obtain ⟨⟨other, found⟩, hpair, hfound⟩ := List.mem_filterMap.1 hmem
      obtain ⟨v', rfl, heq⟩ := Option.map_eq_some_iff.1 hfound
      cases heq
      obtain ⟨n, -, hn⟩ := exists_mem_of_mem_mapM hpairs hpair
      cases hresolved : env.resolvedVariable n with
      | error e => rw [hresolved] at hn; cases hn
      | ok found => rw [hresolved] at hn; cases hn; exact hresolved
    · intro hresolved
      obtain ⟨u, next, hget, -⟩ := exists_withValue_of_resolvedVariable hresolved
      have hname : name ∈ env.names := mem_names_iff.2 (by rw [contains, hget]; rfl)
      obtain ⟨pair, hpair, heq⟩ := exists_mem_mapM_of_mem hpairs hname
      rw [hresolved] at heq
      cases heq
      exact List.mem_filterMap.2 ⟨_, hpair, rfl⟩

theorem resolveAll_eq_ok (h : env.resolveAll = .ok env') :
    ∃ resolved, env.resolvedVariables = .ok resolved ∧
      env' = env.modifyInner fun layer =>
        resolved.foldl (fun layer entry => layer.bind entry.1 entry.2) layer := by
  rw [resolveAll] at h
  cases hresolved : env.resolvedVariables with
  | error e => rw [hresolved] at h; cases h
  | ok resolved => rw [hresolved] at h; cases h; exact ⟨resolved, rfl, rfl⟩

/-- What the innermost layer binds once every variable is resolved: the changed variables, also
those of the layers around it, and otherwise what it bound before. -/
theorem get?_inner_resolveAll (h : env.resolveAll = .ok env') (name : String) :
    env'.inner.vars.get? name =
      match env.resolvedVariable name with
      | .ok (some v) => some v
      | _ => env.inner.vars.get? name := by
  obtain ⟨resolved, hresolved, rfl⟩ := resolveAll_eq_ok h
  have hmem : ∀ n v, (n, v) ∈ resolved ↔ env.resolvedVariable n = .ok (some v) := fun n v =>
    mem_resolvedVariables hresolved
  let f := fun name => (env.resolvedVariable name).toOption.join
  have hf : ∀ entry ∈ resolved, f entry.1 = some entry.2 := by
    rintro ⟨n, v⟩ hentry
    simp only [f, (hmem n v).1 hentry]
    rfl
  rw [modifyInner, Layer.get?_bindAll hf]
  split
  · next hname =>
    obtain ⟨⟨n, v⟩, hentry, rfl⟩ := List.mem_map.1 hname
    simp only [f, (hmem n v).1 hentry]
    rfl
  · next hname =>
    split
    · next v hv => exact absurd (List.mem_map.2 ⟨_, (hmem name v).2 hv, rfl⟩) hname
    · rfl

theorem outer_resolveAll (h : env.resolveAll = .ok env') : env'.outer = env.outer := by
  obtain ⟨resolved, -, rfl⟩ := resolveAll_eq_ok h
  rfl

theorem get?_eq_or (env : Environment) (name : String) :
    env.get? name =
      (env.inner.vars.get? name).or (env.outer.findSome? fun layer => layer.vars.get? name) := by
  rw [get?, layers, List.findSome?_cons]
  cases env.inner.vars.get? name <;> rfl

theorem get?_resolveAll (h : env.resolveAll = .ok env') (name : String) :
    env'.get? name = env.settled? name := by
  rw [get?_eq_or, get?_inner_resolveAll h, outer_resolveAll h, settled?]
  split
  · rfl
  · exact (get?_eq_or env name).symm

/-! ### Declarations of secrecy -/

/-- A name is declared secret if some layer lists it, if the innermost layer binds it to a secret
variable, or if a layer around that one does. -/
theorem declaresSecret_eq (env : Environment) (name : String) :
    env.declaresSecret name =
      (env.inner.secrets.contains name || (env.inner.vars.get? name).any Variable.isSecure ||
        env.outer.any fun layer => layer.declaresSecret name) := rfl

/-- Resolution keeps every declaration of secrecy and adds none: a changed variable is of the kind
it was of, wherever it was bound. -/
theorem declaresSecret_resolveAll (h : env.resolveAll = .ok env') (name : String) :
    env'.declaresSecret name = env.declaresSecret name := by
  have hsecrets : env'.inner.secrets = env.inner.secrets := by
    obtain ⟨resolved, -, rfl⟩ := resolveAll_eq_ok h
    exact Layer.secrets_bindAll resolved env.inner
  rw [declaresSecret_eq, declaresSecret_eq, hsecrets, outer_resolveAll h, get?_inner_resolveAll h]
  split
  · next v hv =>
    obtain ⟨u, next, hget, rfl⟩ := exists_withValue_of_resolvedVariable hv
    rw [get?_eq_or] at hget
    rw [Option.any_some, Variable.isSecure_withValue]
    cases hinner : env.inner.vars.get? name with
    | some w =>
      rw [hinner] at hget
      cases hget
      rfl
    | none =>
      -- The variable comes from a layer around, which declares the same of its name.
      rw [hinner] at hget
      obtain ⟨layer, hlayer, hbinds⟩ := List.exists_of_findSome?_eq_some hget
      rw [Option.any_none, Bool.or_false, Bool.or_assoc]
      congr 1
      cases hsecure : u.isSecure with
      | false => rfl
      | true =>
        refine (List.any_eq_true.2 ⟨layer, hlayer, ?_⟩).symm
        rw [Layer.declaresSecret, hbinds, Option.any_some, hsecure, Bool.or_true]
  · rfl

/-! ### Secrecy -/

/-- The value that `a` has once every variable is resolved still has a placeholder of `b`. -/
def StillRefers (env : Environment) (a b : String) : Prop :=
  ∃ value, env.settled? a >>= Variable.value? = some value ∧ b ∈ value.placeholders

/-- `b` is `a`, or placeholders that full resolution leaves lead from `a` to it. -/
def StillReaches (env : Environment) : String → String → Prop :=
  Relation.ReflTransGen env.StillRefers

theorem refers_resolveAll (h : env.resolveAll = .ok env') : env'.Refers = env.StillRefers := by
  funext a b
  rw [StillRefers, ← get?_resolveAll h]
  change (b ∈ (env'.value? a).elim [] Json.placeholders) = ∃ value, env'.value? a = some value ∧ _
  cases env'.value? a <;> simp

/-- **Full resolution can declassify.** Once every variable is resolved, a name is secret if and
only if the placeholders that are left lead from it to a name declared secret. So the names that
lose their secrecy are those that led to a secret and no longer do; names declared secret, which
lead to themselves, are not among them. -/
theorem isSecret_resolveAll_iff (h : env.resolveAll = .ok env') (name : String) :
    (env'.isSecret name = true ↔
      ∃ b, env.StillReaches name b ∧ env.declaresSecret b = true) ∧
    ((env.isSecret name = true ∧ env'.isSecret name = false) ↔
      (∃ b, env.Reaches name b ∧ env.declaresSecret b = true) ∧
        ∀ b, env.StillReaches name b → env.declaresSecret b = false) := by
  have hafter : env'.isSecret name = true ↔
      ∃ b, env.StillReaches name b ∧ env.declaresSecret b = true := by
    rw [isSecret_iff, Reaches, refers_resolveAll h, StillReaches]
    simp only [declaresSecret_resolveAll h]
  refine ⟨hafter, ?_⟩
  rw [← Bool.not_eq_true, hafter, isSecret_iff]
  simp only [not_exists, not_and, Bool.not_eq_true]

/-- `url` is of no secret kind, but its value refers to a secret. -/
def referring : Environment :=
  { inner := (({} : Layer).set "key" (.secureString "s")).set "url" (.string "$(key)") }

/-- `referring` with the secret itself in the place of the reference. -/
def embedding : Environment := referring.modifyInner fun layer => layer.bind "url" (.string "s")

theorem resolveAll_referring : referring.resolveAll = .ok embedding := by
  have hresolved : referring.resolvedVariables = .ok [("url", .string "s")] := by cbv
  rw [resolveAll, hresolved]
  rfl

theorem isSecret_embedding_iff :
    referring.resolveAll = .ok embedding ∧
      (embedding.isSecret "url" = true ↔
        ∃ b, referring.StillReaches "url" b ∧ referring.declaresSecret b = true) :=
  ⟨resolveAll_referring, (isSecret_resolveAll_iff resolveAll_referring "url").1⟩

/-- The secret is in the value of `url` now, and `url` is not secret any more. -/
theorem not_forall_isSecret_resolveAll :
    ¬ ∀ env env' name, resolveAll env = .ok env' →
      env.isSecret name = true → env'.isSecret name = true := by
  intro hkeeps
  have hbefore : referring.isSecret "url" = true := by cbv
  have hafter : embedding.isSecret "url" = false := by cbv
  have hstill := hkeeps referring embedding "url" resolveAll_referring hbefore
  rw [hafter] at hstill
  cases hstill

end Environment

end Rehearsal
