import Rehearsal.Proofs.Workspace.TakeOver

/-!
# Generated values

A text variable that has a stem and no value is due: it gets a value when its layer is asked for. The
layer goes through its variables in the order of their names and draws a suffix for each of them from
the generator that all environments of a tree share (`Workspace.Materializes`). Apart from the values
of those variables and from what was drawn nothing changes, in no layer and in no other generator.

Behind that no variable of the layer is due (`Layer.Settled`). It takes an action that binds one there
to change this: an action is asked for what it binds in a layer (`Workspace.Action.bindings`), and what
a layer holds afterwards it held before, or it was bound by the action, or it has a value
(`Workspace.get?_act`). So until then the layer can be asked again and again without any effect
(`Workspace.materializes_materialize`).
-/

namespace Rehearsal

variable {name : String} {v : Variable}

namespace Suffixes

/-- The generator behind some draws. -/
def after (g : Suffixes) : Nat → Suffixes
  | 0 => g
  | count + 1 => g.next.2.after count

/-- The suffix of a draw; the next one has number zero. -/
def nth (g : Suffixes) (k : Nat) : String := (g.after k).next.1

end Suffixes

/-- The stem of a text that has one and has no value. -/
def Variable.dueStem? : Variable → Option String
  | .text _ { value := none, stem := stem } => stem
  | _ => none

theorem Variable.dueStem?_eq_some_iff {stem : String} :
    v.dueStem? = some stem ↔ ∃ secure, v = .text secure { value := none, stem := some stem } := by
  constructor
  · intro h
    unfold dueStem? at h
    split at h
    · next secure found =>
      cases h
      exact ⟨secure, rfl⟩
    · cases h
  · rintro ⟨secure, rfl⟩
    rfl

theorem Variable.dueStem?_eq_none_iff : v.dueStem? = none ↔
    ∀ secure stem, v ≠ .text secure { value := none, stem := some stem } := by
  rw [Option.eq_none_iff_forall_ne_some]
  simp only [ne_eq, dueStem?_eq_some_iff, not_exists]
  exact forall_comm

/-- What is given a value is not due. -/
@[simp] theorem Variable.dueStem?_withValue (v : Variable) (json : Json) :
    (v.withValue json).dueStem? = none := by
  cases v <;> rfl

/-! ### One layer -/

namespace Layer

variable {layer : Layer} {g : Suffixes} {entries : List (String × Variable)}

/-- The names whose values are due, in ascending order. -/
def dueNames (layer : Layer) : List String :=
  (layer.vars.entries.filter fun entry => entry.2.dueStem?.isSome).map Prod.fst

/-- No value is due. -/
def Settled (layer : Layer) : Prop :=
  ∀ name v, layer.vars.get? name = some v → v.dueStem? = none

theorem names_materializeEntries (g : Suffixes) (entries : List (String × Variable)) :
    (materializeEntries g entries).2.1 =
      (entries.filter fun entry => entry.2.dueStem?.isSome).map Prod.fst := by
  fun_induction materializeEntries g entries with
  | case1 => rfl
  | case2 g key rest secure stem suffix g' hnext generated names g'' hrest ih =>
    rw [hrest] at ih
    simpa [Variable.dueStem?] using ih
  | case3 g key rest v hdue generated names g' hrest ih =>
    rw [hrest] at ih
    have hnone : v.dueStem? = none :=
      Variable.dueStem?_eq_none_iff.2 fun secure stem => hdue secure stem
    simpa [hnone] using ih

theorem suffixes_materializeEntries (g : Suffixes) (entries : List (String × Variable)) :
    (materializeEntries g entries).2.2 = g.after (materializeEntries g entries).2.1.length := by
  fun_induction materializeEntries g entries with
  | case1 => rfl
  | case2 g key rest secure stem suffix g' hnext generated names g'' hrest ih =>
    rw [hrest] at ih
    simpa [Suffixes.after, hnext] using ih
  | case3 g key rest v hdue generated names g' hrest ih => rwa [hrest] at ih

/-- What is not due stays. -/
theorem get?_materializeEntries_of_not_mem (h : name ∉ (materializeEntries g entries).2.1) :
    Assoc.get? name (materializeEntries g entries).1 = Assoc.get? name entries := by
  fun_induction materializeEntries g entries with
  | case1 => rfl
  | case2 g key rest secure stem suffix g' hnext generated names g'' hrest ih =>
    rw [hrest] at ih
    rw [List.mem_cons, not_or] at h
    simpa [Assoc.get?, Ne.symm h.1] using ih h.2
  | case3 g key rest v hdue generated names g' hrest ih =>
    rw [hrest] at ih
    simp only [Assoc.get?, ih h]

/-- Each due variable gets the suffix of its draw. -/
theorem mem_materializeEntries (k : Nat) (h : k < (materializeEntries g entries).2.1.length) :
    ∃ secure stem,
      ((materializeEntries g entries).2.1[k], .text secure { value := none, stem := some stem }) ∈
        entries ∧
      ((materializeEntries g entries).2.1[k],
        .text secure { value := some (stem ++ g.nth k), stem := some stem }) ∈
        (materializeEntries g entries).1 := by
  fun_induction materializeEntries g entries generalizing k with
  | case1 => cases h
  | case2 g key rest secure stem suffix g' hnext generated names g'' hrest ih =>
    -- The first due name gets the suffix that is next, and for all others one is drawn already.
    cases k with
    | zero =>
      have hsuffix : g.nth 0 = suffix := congrArg Prod.fst hnext
      refine ⟨secure, stem, List.mem_cons_self, ?_⟩
      rw [hsuffix]
      exact List.mem_cons_self
    | succ k =>
      have hlater : g.nth (k + 1) = g'.nth k := congrArg (fun drawn => drawn.2.nth k) hnext
      rw [hrest] at ih
      obtain ⟨secure, stem, hbefore, hafter⟩ := ih k (Nat.lt_of_succ_lt_succ h)
      rw [hlater]
      exact ⟨secure, stem, List.mem_cons_of_mem _ hbefore, List.mem_cons_of_mem _ hafter⟩
  | case3 g key rest v hdue generated names g' hrest ih =>
    rw [hrest] at ih
    obtain ⟨secure, stem, hbefore, hafter⟩ := ih k h
    exact ⟨secure, stem, List.mem_cons_of_mem _ hbefore, List.mem_cons_of_mem _ hafter⟩

theorem materializeEntries_of_settled (h : ∀ entry ∈ entries, entry.2.dueStem? = none) :
    materializeEntries g entries = (entries, [], g) := by
  fun_induction materializeEntries g entries with
  | case1 => rfl
  | case2 g key rest secure stem => cases h _ List.mem_cons_self
  | case3 g key rest v hdue generated names g' hrest ih =>
    rw [ih fun entry hmem => h entry (List.mem_cons_of_mem _ hmem)] at hrest
    cases hrest
    rfl

theorem ascending_dueNames (layer : Layer) : layer.dueNames.Pairwise (· < ·) :=
  List.pairwise_map.2 (layer.vars.ascending.filter _)

theorem mem_dueNames_iff : name ∈ layer.dueNames ↔
    ∃ secure stem, layer.vars.get? name = some (.text secure { value := none, stem := some stem }) := by
  simp only [dueNames, List.mem_map, List.mem_filter]
  constructor
  · rintro ⟨⟨name, v⟩, ⟨hmem, hdue⟩, rfl⟩
    obtain ⟨stem, hstem⟩ := Option.isSome_iff_exists.1 hdue
    obtain ⟨secure, rfl⟩ := Variable.dueStem?_eq_some_iff.1 hstem
    exact ⟨secure, stem, Dict.mem_entries_iff.1 hmem⟩
  · rintro ⟨secure, stem, hget⟩
    exact ⟨(name, _), ⟨Dict.mem_entries_iff.2 hget, rfl⟩, rfl⟩

theorem names_materialize (layer : Layer) (g : Suffixes) :
    (layer.materialize g).2.1 = layer.dueNames :=
  names_materializeEntries g layer.vars.entries

theorem suffixes_materialize (layer : Layer) (g : Suffixes) :
    (layer.materialize g).2.2 = g.after layer.dueNames.length := by
  rw [← names_materialize layer g]
  exact suffixes_materializeEntries g layer.vars.entries

theorem get?_materialize_of_not_mem (h : name ∉ layer.dueNames) :
    (layer.materialize g).1.vars.get? name = layer.vars.get? name := by
  rw [← names_materialize layer g] at h
  exact get?_materializeEntries_of_not_mem h

theorem get?_materialize_dueNames (g : Suffixes) {k : Nat} (h : k < layer.dueNames.length) :
    ∃ secure stem,
      layer.vars.get? layer.dueNames[k] =
          some (.text secure { value := none, stem := some stem }) ∧
        (layer.materialize g).1.vars.get? layer.dueNames[k] =
          some (.text secure { value := some (stem ++ g.nth k), stem := some stem }) := by
  have hnames := names_materialize layer g
  have hk : k < (materializeEntries g layer.vars.entries).2.1.length := hnames.symm ▸ h
  have hname : (materializeEntries g layer.vars.entries).2.1[k] = layer.dueNames[k] :=
    List.getElem_of_eq hnames _
  obtain ⟨secure, stem, hbefore, hafter⟩ := mem_materializeEntries k hk
  rw [hname] at hbefore hafter
  exact ⟨secure, stem, Dict.mem_entries_iff.1 hbefore, Dict.mem_entries_iff.1 hafter⟩

theorem settled_materialize (layer : Layer) (g : Suffixes) : (layer.materialize g).1.Settled := by
  intro name v hget
  have hrel := layer.get?_materialize g name
  rw [hget] at hrel
  generalize layer.vars.get? name = before at hrel
  cases hrel with
  | some hgenerated =>
    cases hgenerated with
    | drawn => rfl
    | kept hdue => exact Variable.dueStem?_eq_none_iff.2 hdue

theorem Settled.materialize_eq (h : layer.Settled) (g : Suffixes) :
    layer.materialize g = (layer, [], g) := by
  have hentries := materializeEntries_of_settled (g := g) fun entry hmem =>
    h entry.1 entry.2 (Dict.mem_entries_iff.1 hmem)
  obtain ⟨⟨entries, hascending⟩, secrets⟩ := layer
  simp only [materialize, hentries]

theorem Settled.dueNames_eq (h : layer.Settled) : layer.dueNames = [] := by
  rw [← names_materialize layer default, h.materialize_eq]

end Layer

/-- A cell without what its layer holds. -/
def Cell.emptied (cell : Cell) : Cell := { cell with layer := {} }

namespace Workspace

variable {ws : Workspace} {id : Nat} {action : Action} {actions : List Action}

/-! ### Generators and places -/

/-- Every environment has a generator. -/
def Sound (ws : Workspace) : Prop :=
  ∀ id, id < ws.cells.size → (ws.cells.getD id default).generator < ws.generators.size

/-- What a new environment stands in is there. -/
def Action.Placed (ws : Workspace) : Action → Prop
  | .addChild _ parent _ _ => parent < ws.cells.size
  | _ => True

theorem materialize_eq (ws : Workspace) (id : Nat) :
    ws.materialize id =
      ((ws.environment id).inner.dueNames,
        (ws.update id fun _ => ((ws.environment id).inner.materialize (ws.generator id)).1).setGenerator
          id ((ws.generator id).after (ws.environment id).inner.dueNames.length)) := by
  rw [← Layer.suffixes_materialize, ← Layer.names_materialize _ (ws.generator id)]
  rfl

theorem drawSuffix_eq (ws : Workspace) (id : Nat) :
    ws.drawSuffix id = ((ws.generator id).next.1, ws.setGenerator id (ws.generator id).next.2) := rfl

theorem layersFrom_setGenerator (ws : Workspace) (id : Nat) (g : Suffixes) (other : Nat) :
    (ws.setGenerator id g).layersFrom other = ws.layersFrom other := by
  induction other using Nat.strong_induction_on with
  | h other ih =>
    have hparent : (ws.setGenerator id g).parent? other = ws.parent? other := rfl
    rw [layersFrom_eq, layersFrom_eq ws, hparent]
    cases ws.parent? other with
    | none => rfl
    | some parent =>
      dsimp only
      split
      · next hlt => rw [ih parent hlt]; rfl
      · rfl

/-- A generator may change without any layer. -/
@[simp] theorem environment_setGenerator (ws : Workspace) (id : Nat) (g : Suffixes) (other : Nat) :
    (ws.setGenerator id g).environment other = ws.environment other := by
  refine Environment.eq_of_layers_eq ?_
  rw [layers_environment, layers_environment, layersFrom_setGenerator]

@[simp] theorem cells_setGenerator (ws : Workspace) (id : Nat) (g : Suffixes) :
    (ws.setGenerator id g).cells = ws.cells := rfl

/-- Apart from its layer nothing of an environment changes. -/
theorem place_update (ws : Workspace) (id : Nat) (f : Layer → Layer) (other : Nat) :
    ((ws.update id f).cells.getD other default).emptied = (ws.cells.getD other default).emptied := by
  rw [update, getD_modify]
  split
  · next heq =>
    obtain ⟨rfl, -⟩ := heq
    rfl
  · rfl

theorem getD_generator_update (ws : Workspace) (id : Nat) (f : Layer → Layer) (other : Nat) :
    ((ws.update id f).cells.getD other default).generator =
      (ws.cells.getD other default).generator := by
  have h := congrArg Cell.generator (place_update ws id f other)
  exact h

theorem generator_update (ws : Workspace) (id : Nat) (f : Layer → Layer) (other : Nat) :
    (ws.update id f).generator other = ws.generator other := by
  rw [generator, getD_generator_update]
  rfl

/-- A generator that changes does so for all environments that share it. -/
theorem generator_setGenerator (h : (ws.cells.getD id default).generator < ws.generators.size)
    (g : Suffixes) (other : Nat) :
    (ws.setGenerator id g).generator other =
      if (ws.cells.getD other default).generator = (ws.cells.getD id default).generator then g
      else ws.generator other := by
  simp only [generator, setGenerator, Array.getD_eq_getD_getElem?, Array.getElem?_setIfInBounds]
  split
  · next heq => simp_all
  · next hne => rw [if_neg (Ne.symm hne)]

theorem size_update (ws : Workspace) (id : Nat) (f : Layer → Layer) :
    (ws.update id f).cells.size = ws.cells.size := by
  simp [update]

theorem Sound.update (h : ws.Sound) (id : Nat) (f : Layer → Layer) : (ws.update id f).Sound := by
  intro other hother
  rw [size_update] at hother
  rw [getD_generator_update]
  exact h other hother

theorem Sound.addCell (h : ws.Sound) (name : String) {cell : Cell}
    (hcell : cell.generator < ws.generators.size) : (ws.addCell name cell).Sound := by
  intro other hother
  rw [Workspace.addCell, Array.size_push] at hother
  rw [Workspace.addCell, getD_push]
  split
  · exact hcell
  · exact h other (by omega)

theorem Sound.setGenerator (h : ws.Sound) (id : Nat) (g : Suffixes) : (ws.setGenerator id g).Sound := by
  intro other hother
  simpa [Workspace.setGenerator] using h other hother

theorem Sound.act (h : ws.Sound) (hplaced : action.Placed ws) : (ws.act action).Sound := by
  cases action with
  | addRoot name seed =>
    intro other hother
    simp only [Workspace.act, addRoot, Workspace.addCell, Array.size_push] at hother ⊢
    rw [getD_push]
    split
    · exact Nat.lt_succ_self _
    · exact (h other (by omega)).trans (Nat.lt_succ_self _)
  | addChild name parent scope target => exact h.addCell name (h parent hplaced)
  | set id name v => exact h.update id _
  | markSecret id name => exact h.update id _
  | declare id scope => exact h.update id _
  | takeOver id other => exact h.update id _
  | output id name v => exact h.update _ _
  | materialize id => exact (h.update id _).setGenerator id _
  | drawSuffix id => exact h.setGenerator id _
  | resolveAll id =>
    rw [Workspace.act]
    split
    · exact h.update id _
    · exact h

/-- Every new environment stands in one that is there. -/
def Places (ws : Workspace) : List Action → Prop
  | [] => True
  | action :: rest => action.Placed ws ∧ (ws.act action).Places rest

theorem sound_empty : ({} : Workspace).Sound := fun id hid => absurd hid (Nat.not_lt_zero id)

theorem Sound.perform (h : ws.Sound) (hplaces : ws.Places actions) : (ws.perform actions).Sound := by
  induction actions generalizing ws with
  | nil => exact h
  | cons action actions ih => exact ih (h.act hplaces.1) hplaces.2

theorem size_le_act (ws : Workspace) (action : Action) : ws.cells.size ≤ (ws.act action).cells.size := by
  cases action with
  | addRoot name seed => simp [act, addRoot, addCell]
  | addChild name parent scope target => simp [act, addChild, addCell]
  | resolveAll id =>
    rw [act]
    split
    · exact (size_update ws id _).ge
    · exact le_rfl
  | materialize id => rw [act, materialize_eq, cells_setGenerator, size_update]
  | drawSuffix id => rw [act, drawSuffix_eq, cells_setGenerator]
  | set | markSecret | declare | takeOver | output => exact (size_update ws _ _).ge

/-! ### What an action binds in a layer -/

/-- What an action is asked to bind in a layer. -/
def Action.bindings (ws : Workspace) (id : Nat) : Action → List (String × Variable)
  | .set other name v => if other = id then [(name, v)] else []
  | .output other name v =>
    if (ws.cells.getD other default).target.getD other = id then [(name, v)] else []
  | .declare other scope => if other = id then scope.vars.entries else []
  | .takeOver other env => if other = id then env.flatten.entries else []
  | _ => []

/-- No value of what some actions bind in a layer is due. -/
def BindsNothingDue (ws : Workspace) (id : Nat) : List Action → Prop
  | [] => True
  | action :: rest =>
    (∀ entry ∈ action.bindings ws id, entry.2.dueStem? = none) ∧ (ws.act action).BindsNothingDue id rest

theorem inner_addCell (hid : id < ws.cells.size) (name : String) (cell : Cell) :
    ((ws.addCell name cell).environment id).inner = (ws.environment id).inner := by
  change ((ws.cells.push cell).getD id default).layer = _
  rw [getD_push, if_neg hid.ne]
  rfl

theorem get?_update {f : Layer → Layer} {other : Nat}
    (h : ((ws.update other f).environment id).inner.vars.get? name = some v) :
    (ws.environment id).inner.vars.get? name = some v ∨
      other = id ∧ (f (ws.environment id).inner).vars.get? name = some v := by
  rw [inner_update] at h
  split at h
  · next heq =>
    obtain ⟨rfl, -⟩ := heq
    exact .inr ⟨rfl, h⟩
  · exact .inl h

/-- What a layer holds behind an action it held before, or it was bound there, or it has a value. -/
theorem get?_act (hid : id < ws.cells.size)
    (h : ((ws.act action).environment id).inner.vars.get? name = some v) :
    (ws.environment id).inner.vars.get? name = some v ∨ (name, v) ∈ action.bindings ws id ∨
      v.dueStem? = none := by
  have hset {other : Nat} {bound : String} {u : Variable}
      (h : ((ws.update other fun layer => layer.set bound u).environment id).inner.vars.get? name =
        some v) :
      (ws.environment id).inner.vars.get? name = some v ∨
        (name, v) ∈ (if other = id then [(bound, u)] else []) := by
    obtain hbefore | ⟨rfl, hget⟩ := get?_update h
    · exact .inl hbefore
    · rw [Layer.get?_set] at hget
      split at hget
      · next heq =>
        cases hget
        simp [heq]
      · exact .inl hget
  cases action with
  | addRoot other seed =>
    have hsame := inner_addCell hid other { generator := ws.generators.size }
    exact .inl (hsame ▸ h)
  | addChild other parent scope target => exact .inl (inner_addCell hid other _ ▸ h)
  | set other bound u => exact (hset h).imp_right .inl
  | output other bound u => exact (hset h).imp_right .inl
  | markSecret other secret =>
    obtain hbefore | ⟨-, hget⟩ := get?_update h
    · exact .inl hbefore
    · exact .inl hget
  | declare other scope =>
    obtain hbefore | ⟨rfl, hget⟩ := get?_update h
    · exact .inl hbefore
    · rw [Layer.get?_declare, Option.or_eq_some_iff] at hget
      rcases hget with hdeclared | ⟨-, hbefore⟩
      · have hscope : scope.get? name = some v := Option.eq_some_of_filter_eq_some hdeclared
        exact .inr (.inl (by simpa [Action.bindings] using Dict.mem_entries_iff.2 hscope))
      · exact .inl hbefore
  | takeOver other env =>
    obtain hbefore | ⟨rfl, hget⟩ := get?_update h
    · exact .inl hbefore
    · rw [Environment.get?_imported, Option.or_eq_some_iff] at hget
      rcases hget with htaken | ⟨-, hbefore⟩
      · rw [← Environment.get?_flatten] at htaken
        exact .inr (.inl (by simpa [Action.bindings] using Dict.mem_entries_iff.2 htaken))
      · exact .inl hbefore
  | materialize other =>
    rw [act, materialize_eq, environment_setGenerator] at h
    obtain hbefore | ⟨rfl, hget⟩ := get?_update h
    · exact .inl hbefore
    · exact .inr (.inr (Layer.settled_materialize _ _ name v hget))
  | drawSuffix other =>
    rw [act, drawSuffix_eq, environment_setGenerator] at h
    exact .inl h
  | resolveAll other =>
    rw [act] at h
    split at h
    · next env hresolved =>
      obtain hbefore | ⟨rfl, hget⟩ := get?_update h
      · exact .inl hbefore
      · rw [Environment.get?_inner_resolveAll hresolved] at hget
        split at hget
        · next bound hbound =>
          -- What is resolved has a value.
          cases hget
          obtain ⟨u, json, -, rfl⟩ := Environment.exists_withValue_of_resolvedVariable hbound
          exact .inr (.inr (u.dueStem?_withValue json))
        · exact .inl hget
    · exact .inl h

theorem settled_act (hid : id < ws.cells.size) (h : (ws.environment id).inner.Settled)
    (hbinds : ∀ entry ∈ action.bindings ws id, entry.2.dueStem? = none) :
    ((ws.act action).environment id).inner.Settled := by
  intro name v hget
  rcases get?_act hid hget with hbefore | hbound | hdue
  · exact h name v hbefore
  · exact hbinds (name, v) hbound
  · exact hdue

theorem settled_perform (hid : id < ws.cells.size) (h : (ws.environment id).inner.Settled)
    (hbinds : ws.BindsNothingDue id actions) :
    ((ws.perform actions).environment id).inner.Settled := by
  induction actions generalizing ws with
  | nil => exact h
  | cons action actions ih =>
    exact ih (hid.trans_le (ws.size_le_act action)) (settled_act hid h hbinds.1) hbinds.2

/-! ### Asking a layer for its values -/

theorem setIfInBounds_getD (generators : Array Suffixes) (i : Nat) :
    generators.setIfInBounds i (generators.getD i default) = generators := by
  refine Array.ext (by simp) fun j hj hj' => ?_
  rw [Array.getElem_setIfInBounds]
  split
  · next heq =>
    subst heq
    simp [Array.getD, hj']
  · rfl

theorem update_self (ws : Workspace) (id : Nat) :
    (ws.update id fun _ => (ws.environment id).inner) = ws := by
  have hcells : ws.cells.modify id (fun cell =>
      { cell with layer := (ws.environment id).inner }) = ws.cells := by
    refine Array.ext (by simp) fun i hi hi' => ?_
    rw [Array.getElem_modify]
    split
    · next heq =>
      subst heq
      simp [environment, Array.getD, hi']
    · rfl
  exact congrArg (fun cells => { ws with cells := cells }) hcells

/-- A layer without a due variable is asked without any effect. -/
theorem materialize_of_settled (h : (ws.environment id).inner.Settled) :
    ws.materialize id = ([], ws) := by
  rw [materialize_eq, h.dueNames_eq, h.materialize_eq, update_self]
  exact congrArg (fun generators => ([], { ws with generators := generators }))
    (setIfInBounds_getD ws.generators _)

/-- What the workspace `ws'` is after environment `id` of `ws` was asked for its values and answered
`names`. -/
structure Materializes (ws : Workspace) (id : Nat) (names : List String) (ws' : Workspace) : Prop where
  /-- The names ascend. -/
  ascending : names.Pairwise (· < ·)
  /-- They are those of the texts of the innermost layer that have a stem and no value. -/
  due : ∀ name, name ∈ names ↔ ∃ secure stem,
    (ws.environment id).inner.vars.get? name =
      some (.text secure { value := none, stem := some stem })
  /-- Each of them gets its stem and the suffix of its place, and keeps its stem and its kind. -/
  generated : ∀ k (h : k < names.length), ∃ secure stem,
    (ws.environment id).inner.vars.get? names[k] =
        some (.text secure { value := none, stem := some stem }) ∧
      (ws'.environment id).inner.vars.get? names[k] =
        some (.text secure { value := some (stem ++ (ws.generator id).nth k), stem := some stem })
  /-- All other names of the layer are bound as they were. -/
  kept : ∀ name, name ∉ names →
    (ws'.environment id).inner.vars.get? name = (ws.environment id).inner.vars.get? name
  /-- The layer keeps the same names secret. -/
  secrets : (ws'.environment id).inner.secrets = (ws.environment id).inner.secrets
  /-- The layers around are as they were. -/
  around : (ws'.environment id).outer = (ws.environment id).outer
  /-- No other layer changes, and no environment that does not stand inside. -/
  layers : ∀ other, other ≠ id → (ws'.environment other).inner = (ws.environment other).inner
  outside : ∀ other, ¬ ws.StandsIn other id → ws'.environment other = ws.environment other
  /-- As many suffixes were drawn as there are names, for all environments with that generator. -/
  generator : ∀ other, ws'.generator other =
    if (ws.cells.getD other default).generator = (ws.cells.getD id default).generator then
      (ws.generator id).after names.length
    else ws.generator other
  /-- Every environment stays where it is, under its name, with its target and its generator. -/
  places : ws'.names = ws.names ∧ ws'.cells.size = ws.cells.size ∧
    ∀ other, (ws'.cells.getD other default).emptied = (ws.cells.getD other default).emptied

/-- **Generated values.** An environment that is asked for its values gives them to the due variables
of its innermost layer, in the order of their names and with one suffix each, and changes nothing else.
When it is asked again, it has no effect at all unless something due was bound in that layer. -/
theorem materializes_materialize (hsound : ws.Sound) (hid : id < ws.cells.size) :
    ws.Materializes id (ws.materialize id).1 (ws.materialize id).2 ∧
      ∀ actions, (ws.materialize id).2.BindsNothingDue id actions →
        ((ws.materialize id).2.perform actions).materialize id =
          ([], (ws.materialize id).2.perform actions) := by
  have hinner : ((ws.materialize id).2.environment id).inner =
      ((ws.environment id).inner.materialize (ws.generator id)).1 := by
    rw [materialize_eq, environment_setGenerator, inner_update, if_pos ⟨rfl, hid⟩]
  refine ⟨?_, fun actions hbinds => ?_⟩
  · have hnames : (ws.materialize id).1 = (ws.environment id).inner.dueNames := by rw [materialize_eq]
    rw [hnames]
    constructor
    case ascending => exact Layer.ascending_dueNames _
    case due => exact fun name => Layer.mem_dueNames_iff
    case generated =>
      rw [hinner]
      exact fun k h => Layer.get?_materialize_dueNames _ h
    case kept =>
      rw [hinner]
      exact fun name h => Layer.get?_materialize_of_not_mem h
    case secrets => rw [hinner]; rfl
    case around =>
      rw [materialize_eq, environment_setGenerator, environment_update hid]
      rfl
    case layers =>
      intro other hother
      rw [materialize_eq, environment_setGenerator, inner_update, if_neg fun h => hother h.1.symm]
    case outside =>
      intro other hother
      rw [materialize_eq, environment_setGenerator, environment_update_of_not_standsIn hother]
    case generator =>
      intro other
      have hbound : ((ws.update id fun _ =>
          ((ws.environment id).inner.materialize (ws.generator id)).1).cells.getD id default).generator <
          ws.generators.size := by
        rw [getD_generator_update]
        exact hsound id hid
      rw [materialize_eq, generator_setGenerator hbound, getD_generator_update, getD_generator_update,
        generator_update]
    case places =>
      rw [materialize_eq]
      refine ⟨rfl, ?_, fun other => ?_⟩
      · rw [cells_setGenerator, size_update]
      · rw [cells_setGenerator, place_update]
  · have hsettled : ((ws.materialize id).2.environment id).inner.Settled := by
      rw [hinner]
      exact Layer.settled_materialize _ _
    have hsize : id < (ws.materialize id).2.cells.size := by
      rwa [materialize_eq, cells_setGenerator, size_update]
    exact materialize_of_settled (settled_perform hsize hsettled hbinds)

/-- A group and a key whose names are generated, with a step inside that has a group of its own. -/
def naming : List Action :=
  [.addRoot "run" 7, .set 0 "key" (.text true { stem := some "k" }), .set 0 "group" (.stemmed "rg-"),
    .set 0 "place" (.string "west"), .addChild "step" 0 none none, .set 1 "group" (.stemmed "inner-")]

/-- What the run does next. -/
def working : List Action :=
  [.set 0 "place" (.string "east"), .materialize 1, .drawSuffix 0, .resolveAll 0]

/-- The group and the key of the run get their values, those of the step do not, and asking again has
no effect behind what the run does next. -/
theorem materializes_naming :
    (({} : Workspace).perform naming).Sound ∧ 0 < (({} : Workspace).perform naming).cells.size ∧
      ((({} : Workspace).perform naming).materialize 0).1 = ["group", "key"] ∧
      (({} : Workspace).perform naming).Materializes 0
        ((({} : Workspace).perform naming).materialize 0).1
        ((({} : Workspace).perform naming).materialize 0).2 ∧
      (((({} : Workspace).perform naming).materialize 0).2.perform working).materialize 0 =
        ([], ((({} : Workspace).perform naming).materialize 0).2.perform working) := by
  have hsound : (({} : Workspace).perform naming).Sound := by
    refine sound_empty.perform ⟨trivial, trivial, trivial, trivial, ?_, trivial, trivial⟩
    exact Nat.zero_lt_one
  have hid : 0 < (({} : Workspace).perform naming).cells.size := by decide
  have hnames : ((({} : Workspace).perform naming).materialize 0).1 = ["group", "key"] := by
    rw [materialize_eq]
    decide
  obtain ⟨hmaterializes, hagain⟩ := materializes_materialize hsound hid
  refine ⟨hsound, hid, hnames, hmaterializes, hagain working ⟨?_, ?_, ?_, ?_, trivial⟩⟩
  · simp [Action.bindings, Variable.string, Variable.dueStem?]
  all_goals exact fun entry hmem => absurd hmem List.not_mem_nil

end Workspace

end Rehearsal
