import Rehearsal.Definition.Diagnostic
import Rehearsal.Environment.Patches
import Rehearsal.Proofs.Dict
import Rehearsal.Proofs.Walk

/-!
# What layers bind

How a look-up reads what a layer declares, takes over, patches and generates. A declaration that
somebody outside fulfils binds nothing (`Layer.get?_declare`), whereas a variable that is taken over
from another environment is bound as it is, with or without a value (`Environment.get?_imported`).
What a declaration binds has a value in the end, as texts with a stem are generated
(`Layer.get?_materialize`) and pending patches are replaced by a patched value
(`Layer.applyPatches_spec`), and in front of an environment it hides no value of that
(`Environment.isSome_value?_within`). What a scope keeps secret or declares with a secret kind is kept secret
by its layer (`Layer.mem_secrets_declare`, `Layer.mem_secrets_within`).
-/

namespace Rehearsal

open Definition (isBound)

namespace Variable

theorem isBound_of_hasValue {v : Variable} (h : v.hasValue = true) : isBound v = true := by
  rw [isBound, h, Bool.true_or]

theorem not_isExternal_of_isBound {v : Variable} (h : isBound v = true) :
    Layer.isExternal v = false := by
  rw [isBound, Bool.or_eq_true] at h
  rcases h with h | h
  · simp [Layer.isExternal, h]
  · cases hstem : v.stem? with
    | none => rw [hstem] at h; cases h
    | some stem => simp [Layer.isExternal, hstem]

/-- Unless patches of it are pending a declaration is bound or fulfilled by somebody outside. -/
theorem isExternal_eq {v : Variable} (hpatches : v.pendingPatches? = none) :
    Layer.isExternal v = !isBound v := by
  cases v with
  | bool value | int value => cases value <;> rfl
  | text secure parts =>
    obtain ⟨value, stem⟩ := parts
    cases value <;> cases stem <;> rfl
  | container kind parts =>
    obtain ⟨value, patches⟩ := parts
    cases value with
    | some value => rfl
    | none =>
      cases hpatches
      rfl

/-- A variable whose patches are pending has no value, but it has one as soon as it is given one, and
nobody outside fulfils it. -/
theorem of_pendingPatches {v : Variable} {patches : List Json} (h : v.pendingPatches? = some patches) :
    v.value? = none ∧ Layer.isExternal v = false ∧ ∀ json, (v.withValue json).hasValue = true := by
  cases v with
  | bool | int | text => cases h
  | container kind parts =>
    obtain ⟨value, pending⟩ := parts
    cases value with
    | some value => cases h
    | none =>
      cases h
      exact ⟨rfl, rfl, fun _ => rfl⟩

end Variable

namespace Layer

variable {layer layer' : Layer} {name : String}

theorem vars_foldl_markSecret (names : List String) :
    (names.foldl markSecret layer).vars = layer.vars := by
  induction names generalizing layer with
  | nil => rfl
  | cons name names ih => rw [List.foldl_cons, ih, markSecret]

theorem get?_set (v : Variable) (other : String) :
    (layer.set name v).vars.get? other = if other = name then some v else layer.vars.get? other := by
  rw [set, bind, Dict.get?_insert]
  split
  · rfl
  · split <;> rfl

theorem get?_declareVariable (v : Variable) (other : String) :
    (layer.declareVariable name v).vars.get? other =
      if other = name ∧ isExternal v = false then some v else layer.vars.get? other := by
  have hsecured : (if v.isSecure then layer.markSecret name else layer).vars = layer.vars := by
    split <;> rfl
  rw [declareVariable]
  split
  · next hexternal => simp [hsecured, hexternal]
  · next hexternal => rw [bind, Dict.get?_insert, hsecured]; simp [hexternal]

/-- A name is looked up in what a scope declares before it is looked up in the layer below, unless
somebody outside fulfils the declaration. -/
theorem get?_declare (scope : Declarations) (name : String) :
    (layer.declare scope).vars.get? name =
      ((scope.get? name).filter fun v => !isExternal v).or (layer.vars.get? name) := by
  rw [declare, vars_foldl_markSecret, Declarations.get?]
  obtain ⟨⟨entries, hascending⟩, -, -⟩ := scope
  change (entries.foldl (fun layer entry => layer.declareVariable entry.1 entry.2) layer).vars.get? name =
    ((Assoc.get? name entries).filter fun v => !isExternal v).or (layer.vars.get? name)
  induction entries generalizing layer with
  | nil => rfl
  | cons entry rest ih =>
    obtain ⟨key, v⟩ := entry
    obtain ⟨hlt, hrest⟩ := List.pairwise_cons.1 hascending
    rw [List.foldl_cons, ih hrest, get?_declareVariable, Assoc.get?]
    by_cases heq : key = name
    · subst heq
      have hnone : Assoc.get? key rest = none := Assoc.get?_eq_none_of_lt hlt
      cases hexternal : isExternal v <;> simp [hnone, hexternal, Option.filter]
    · simp [heq, Ne.symm heq]

theorem get?_declare_empty (scope : Declarations) (name : String) :
    (declare {} scope).vars.get? name = (scope.get? name).filter fun v => !isExternal v := by
  rw [get?_declare, Dict.get?_empty, Option.or_none]

theorem applyPatchesOf_spec {base : Environment} {v : Variable}
    (h : layer.applyPatchesOf base name v = .ok layer') :
    (v.pendingPatches? = none ∧ layer' = layer) ∨
      ∃ patches value, v.pendingPatches? = some patches ∧ base.patchedValue name patches = .ok value ∧
        layer' = layer.set name (v.withValue value) := by
  unfold applyPatchesOf at h
  split at h
  · next hpatches =>
    cases h
    exact .inl ⟨hpatches, rfl⟩
  · next patches hpatches =>
    cases hvalue : base.patchedValue name patches with
    | error e => rw [hvalue] at h; cases h
    | ok value =>
      rw [hvalue] at h
      cases h
      exact .inr ⟨patches, value, hpatches, hvalue, rfl⟩

/-- A variable of a scope has its patched value, if patches of it are pending, and everything else is
bound as it was. -/
theorem applyPatches_spec {scope : Declarations} {base : Environment}
    (h : layer.applyPatches scope base = .ok layer') (name : String) :
    (∃ v patches value, scope.get? name = some v ∧ v.pendingPatches? = some patches ∧
      base.patchedValue name patches = .ok value ∧
      layer'.vars.get? name = some (v.withValue value)) ∨
    ((∀ v, scope.get? name = some v → v.pendingPatches? = none) ∧
      layer'.vars.get? name = layer.vars.get? name) := by
  obtain ⟨⟨entries, hascending⟩, required, secrets⟩ := scope
  replace h : entries.foldlM (fun layer (entry : String × Variable) =>
    layer.applyPatchesOf base entry.1 entry.2) layer = .ok layer' := h
  change (∃ v patches value, Assoc.get? name entries = some v ∧ _) ∨
    ((∀ v, Assoc.get? name entries = some v → _) ∧ _)
  induction entries generalizing layer with
  | nil =>
    cases h
    exact .inr ⟨nofun, rfl⟩
  | cons entry rest ih =>
    obtain ⟨key, v⟩ := entry
    obtain ⟨hlt, hrest⟩ := List.pairwise_cons.1 hascending
    rw [List.foldlM_cons] at h
    obtain ⟨next, hnext, h⟩ := exists_of_bind_eq_ok h
    have hothers := ih hrest h
    rw [Assoc.get?]
    split
    · next heq =>
      subst heq
      -- The names ascend, so nothing behind the entry is about its name.
      have hnone : Assoc.get? key rest = none := Assoc.get?_eq_none_of_lt hlt
      rw [hnone] at hothers
      obtain ⟨_, _, _, hsome, -⟩ | ⟨-, hkept⟩ := hothers
      · cases hsome
      rw [hkept]
      obtain ⟨hpatches, rfl⟩ | ⟨patches, value, hpatches, hvalue, rfl⟩ := applyPatchesOf_spec hnext
      · exact .inr ⟨fun _ hv => by cases hv; exact hpatches, rfl⟩
      · exact .inl ⟨v, patches, value, rfl, hpatches, hvalue, by rw [get?_set, if_pos rfl]⟩
    · next hne =>
      have hkept : next.vars.get? name = layer.vars.get? name := by
        obtain ⟨-, rfl⟩ | ⟨_, _, -, -, rfl⟩ := applyPatchesOf_spec hnext
        · rfl
        · rw [get?_set, if_neg (Ne.symm hne)]
      rwa [hkept] at hothers

/-! ### Names that are kept secret -/

theorem mem_secrets_markSecret {other : String} :
    other ∈ (layer.markSecret name).secrets ↔ other ∈ layer.secrets ∨ other = name := by
  rw [markSecret]
  split
  · next hlisted =>
    refine ⟨.inl, fun h => h.elim id ?_⟩
    rintro rfl
    exact List.contains_iff_mem.1 hlisted
  · rw [List.mem_cons, or_comm]

theorem mem_secrets_foldl_markSecret {names : List String} :
    name ∈ (names.foldl markSecret layer).secrets ↔ name ∈ layer.secrets ∨ name ∈ names := by
  induction names generalizing layer with
  | nil => simp
  | cons other names ih => rw [List.foldl_cons, ih, mem_secrets_markSecret, List.mem_cons, or_assoc]

/-- What is set under a name leaves all secret names secret. -/
theorem mem_secrets_set {other : String} (h : other ∈ layer.secrets) (v : Variable) :
    other ∈ (layer.set name v).secrets := by
  rw [set]
  split
  · exact mem_secrets_markSecret.2 (.inl h)
  · exact h

theorem mem_secrets_set_of_isSecure {v : Variable} (h : v.isSecure = true) :
    name ∈ (layer.set name v).secrets := by
  rw [set, if_pos h]
  exact mem_secrets_markSecret.2 (.inr rfl)

theorem mem_secrets_declareVariable {v : Variable} {other : String} :
    other ∈ (layer.declareVariable name v).secrets ↔
      other ∈ layer.secrets ∨ (other = name ∧ v.isSecure = true) := by
  have hsecured : other ∈ (if v.isSecure then layer.markSecret name else layer).secrets ↔
      other ∈ layer.secrets ∨ (other = name ∧ v.isSecure = true) := by
    split
    · next hsecure => simp [mem_secrets_markSecret, hsecure]
    · next hsecure => simp [hsecure]
  rw [declareVariable]
  split <;> exact hsecured

/-- A layer keeps secret what it kept secret, what a scope declares with a secret kind, and what the
scope lists. -/
theorem mem_secrets_declare {scope : Declarations} :
    name ∈ (layer.declare scope).secrets ↔
      name ∈ layer.secrets ∨ (∃ v, scope.get? name = some v ∧ v.isSecure = true) ∨
        name ∈ scope.secrets := by
  have hfold (entries : List (String × Variable)) (layer : Layer) :
      name ∈ (entries.foldl (fun layer entry => layer.declareVariable entry.1 entry.2) layer).secrets ↔
        name ∈ layer.secrets ∨ ∃ v, (name, v) ∈ entries ∧ v.isSecure = true := by
    induction entries generalizing layer with
    | nil => simp
    | cons entry rest ih =>
      rw [List.foldl_cons, ih, mem_secrets_declareVariable, or_assoc]
      simp [Prod.ext_iff, or_and_right, exists_or]
  rw [declare, mem_secrets_foldl_markSecret, hfold, or_assoc]
  simp only [Dict.mem_entries_iff, Declarations.get?]

theorem mem_secrets_applyPatches {scope : Declarations} {base : Environment}
    (h : layer.applyPatches scope base = .ok layer') (hname : name ∈ layer.secrets) :
    name ∈ layer'.secrets := by
  refine foldlM_keeps (P := fun layer : Layer => name ∈ layer.secrets) h hname ?_
  intro entry _ before after hnext hbefore
  obtain ⟨-, rfl⟩ | ⟨_, _, -, -, rfl⟩ := applyPatchesOf_spec hnext
  · exact hbefore
  · exact mem_secrets_set hbefore _

/-- A layer keeps the names secret that its scope lists. -/
theorem mem_secrets_within {env : Environment} {scope : Declarations}
    (h : within env scope = .ok layer) (hname : name ∈ scope.secrets) : name ∈ layer.secrets :=
  mem_secrets_applyPatches h (mem_secrets_foldl_markSecret.2 (.inr hname))

/-! ### Generated values -/

/-- A variable without a value has none behind the generation of texts either, unless it is a text
with a stem. -/
theorem hasValue_eq_isBound {v : Variable}
    (h : ∀ secure stem, v ≠ .text secure { value := none, stem := some stem }) :
    v.hasValue = isBound v := by
  cases v with
  | bool | int | container => exact (Bool.or_false _).symm
  | text secure parts =>
    obtain ⟨value, stem⟩ := parts
    cases value with
    | some value => rfl
    | none =>
      cases stem with
      | none => rfl
      | some stem => exact absurd rfl (h secure stem)

/-- What the generation of texts makes of a variable: a text that has a stem and no value gets one,
and everything else stays as it is. -/
inductive Generated : Variable → Variable → Prop
  | drawn (secure : Bool) (stem suffix : String) :
      Generated (.text secure { value := none, stem := some stem })
        (.text secure { value := some (stem ++ suffix), stem := some stem })
  | kept {v : Variable} (h : ∀ secure stem, v ≠ .text secure { value := none, stem := some stem }) :
      Generated v v

theorem get?_materialize (layer : Layer) (g : Suffixes) (name : String) :
    Option.Rel Generated (layer.vars.get? name) ((layer.materialize g).1.vars.get? name) := by
  obtain ⟨⟨entries, hascending⟩, secrets⟩ := layer
  change Option.Rel Generated (Assoc.get? name entries)
    (Assoc.get? name (materializeEntries g entries).1)
  clear hascending
  fun_induction materializeEntries g entries with
  | case1 => exact .none
  | case2 g key rest secure stem suffix g' hnext generated names g'' hrest ih =>
    rw [hrest] at ih
    simp only [Assoc.get?]
    split
    · exact .some (.drawn secure stem suffix)
    · exact ih
  | case3 g key rest v hdue generated names g' hrest ih =>
    rw [hrest] at ih
    simp only [Assoc.get?]
    split
    · exact .some (.kept fun secure stem => hdue secure stem)
    · exact ih

/-- Generated texts are values: a variable has one behind them if and only if it was bound. -/
theorem map_hasValue_materialize (layer : Layer) (g : Suffixes) (name : String) :
    ((layer.materialize g).1.vars.get? name).map Variable.hasValue =
      (layer.vars.get? name).map isBound := by
  have hrel := layer.get?_materialize g name
  generalize layer.vars.get? name = before, (layer.materialize g).1.vars.get? name = after at hrel ⊢
  cases hrel with
  | none => rfl
  | some hgenerated =>
    cases hgenerated with
    | drawn => rfl
    | kept hdue => rw [Option.map_some, hasValue_eq_isBound hdue, Option.map_some]

/-- A generated value leaves every variable of the kind it was of. -/
theorem map_isSecure_materialize (layer : Layer) (g : Suffixes) (name : String) :
    ((layer.materialize g).1.vars.get? name).map Variable.isSecure =
      (layer.vars.get? name).map Variable.isSecure := by
  have hrel := layer.get?_materialize g name
  generalize layer.vars.get? name = before, (layer.materialize g).1.vars.get? name = after at hrel ⊢
  cases hrel with
  | none => rfl
  | some hgenerated =>
    cases hgenerated with
    | drawn secure => cases secure <;> rfl
    | kept => rfl

theorem elim_hasValue_materialize (layer : Layer) (g : Suffixes) (name : String) (otherwise : Bool) :
    ((layer.materialize g).1.vars.get? name).elim otherwise Variable.hasValue =
      (layer.vars.get? name).elim otherwise isBound := by
  have hmap := congrArg (fun found : Option Bool => found.elim otherwise id)
    (map_hasValue_materialize layer g name)
  simpa [Option.elim_map] using hmap

/-- What is declared besides patches is bound or fulfilled by somebody outside. -/
theorem filter_not_isExternal {declared : Option Variable}
    (h : ∀ v, declared = some v → v.pendingPatches? = none) :
    (declared.filter fun v => !isExternal v) = declared.filter isBound := by
  cases declared with
  | none => rfl
  | some v => simp [Option.filter, Variable.isExternal_eq (h v rfl)]

/-- A layer with a declaration that is bound has a value for it. -/
theorem elim_isBound_filter (declared : Option Variable) :
    (declared.filter fun v => !isExternal v).elim false isBound = declared.any isBound := by
  cases declared with
  | none => rfl
  | some v =>
    cases hbound : isBound v with
    | true => simp [Option.filter, hbound, Variable.not_isExternal_of_isBound hbound]
    | false => cases hexternal : isExternal v <;> simp [Option.filter, hbound, hexternal]

end Layer

namespace Environment

theorem get?_imported (layer : Layer) (other : Environment) (name : String) :
    (imported layer other).vars.get? name = (other.get? name).or (layer.vars.get? name) := by
  rw [imported, Layer.vars_foldl_markSecret, Dict.get?_union, get?_flatten]

theorem isSome_value? (env : Environment) (name : String) :
    (env.value? name).isSome = (env.get? name).any Variable.hasValue := by
  rw [value?]
  cases env.get? name <;> rfl

theorem isSome_value?_root (layer : Layer) (name : String) :
    ((⟨layer, []⟩ : Environment).value? name).isSome =
      (layer.vars.get? name).elim false Variable.hasValue := by
  rw [isSome_value?, get?, layers, List.findSome?_cons]
  cases layer.vars.get? name <;> rfl

/-- Whether a name has a value is decided by the innermost layer that binds it. -/
theorem isSome_value?_child (env : Environment) (layer : Layer) (name : String) :
    ((env.child layer).value? name).isSome =
      (layer.vars.get? name).elim (env.value? name).isSome Variable.hasValue := by
  rw [isSome_value?, isSome_value?, get?, child, layers, List.findSome?_cons]
  cases layer.vars.get? name <;> rfl

theorem isSome_value?_of_patchedValue {env : Environment} {name : String} {patches : List Json}
    {value : Json} (h : env.patchedValue name patches = .ok value) : (env.value? name).isSome = true := by
  rw [patchedValue] at h
  cases hvalue : env.value? name with
  | none => rw [hvalue] at h; cases h
  | some inherited => rfl

/-- In front of an environment, the layer of a scope has a value for what the scope declares bound and
for what the environment has one for. -/
theorem isSome_value?_within {env : Environment} {scope : Declarations} {layer : Layer}
    (h : Layer.within env scope = .ok layer) (g : Suffixes) (name : String) :
    ((env.child (layer.materialize g).1).value? name).isSome =
      ((scope.get? name).any isBound || (env.value? name).isSome) := by
  rw [isSome_value?_child, Layer.elim_hasValue_materialize]
  rcases Layer.applyPatches_spec h name with
    ⟨v, patches, value, hv, hpending, hpatched, hset⟩ | ⟨hnone, hkept⟩
  · -- What is patched is inherited.
    obtain ⟨-, -, hvalue⟩ := Variable.of_pendingPatches hpending
    rw [hset, Option.elim_some, Variable.isBound_of_hasValue (hvalue value),
      isSome_value?_of_patchedValue hpatched, Bool.or_true]
  · rw [hkept, Layer.get?_declare_empty, Layer.filter_not_isExternal hnone]
    cases scope.get? name with
    | none => rfl
    | some v => cases hbound : isBound v <;> simp [Option.filter, hbound]

end Environment

end Rehearsal
