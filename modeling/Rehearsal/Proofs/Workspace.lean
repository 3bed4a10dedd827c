import Rehearsal.Workspace
import Rehearsal.Proofs.Environment.Declassification
import Rehearsal.Proofs.Environment.Layers

/-!
# Declared secrets are kept

A name is declared secret for two reasons: a layer lists it, or binds it to a variable of a secret
kind. The second reason goes when the variable is overwritten, so it is the first one that has to
last, and not every operation on a layer sees to it that what it binds is listed:
`Environment.resolveAll` binds variables of outer layers and lists none of them.

What holds all the same is `Workspace.Accounted`: a name that is declared secret is listed by some
layer around. One operation changes one layer, in a way that every operation shares
(`Environment.Retains`), and lists only grow (`Workspace.Grows`). Hence whatever is done to the
environments of a workspace, a name once declared secret stays so, there and in every environment
inside (`Workspace.declaredSecret_perform`).
-/

namespace Rehearsal

variable {name : String} {v : Variable}

/-! ### One operation on one layer -/

namespace Environment

variable {env other : Environment} {layer : Layer}

theorem declaredSecret_of_inner (hbinds : env.inner.vars.get? name = some v)
    (hsecure : v.isSecure = true) : env.DeclaredSecret name :=
  ⟨env.inner, List.mem_cons_self, .inr ⟨v, hbinds, hsecure⟩⟩

/-- A layer that takes over bindings lists those that are declared secret where they come from. -/
theorem mem_secrets_imported {layer : Layer} :
    name ∈ (imported layer other).secrets ↔
      name ∈ layer.secrets ∨ other.contains name = true ∧ other.DeclaredSecret name := by
  rw [imported, Layer.mem_secrets_foldl_markSecret, List.mem_filter, mem_names_iff, declaresSecret_iff]

theorem contains_and_declaredSecret_of_get? {v : Variable} (h : other.get? name = some v)
    (hsecure : v.isSecure = true) : other.contains name = true ∧ other.DeclaredSecret name := by
  obtain ⟨layer, hlayer, hbinds⟩ := List.exists_of_findSome?_eq_some h
  refine ⟨?_, layer, hlayer, .inr ⟨v, hbinds, hsecure⟩⟩
  rw [contains, h]
  rfl

/-- What a layer may become in an environment: it keeps what it listed as secret, and a secret
variable that it binds is listed by it unless its name was declared secret already. -/
structure Retains (env : Environment) (layer : Layer) : Prop where
  secrets : ∀ name ∈ env.inner.secrets, name ∈ layer.secrets
  bound : ∀ name v, layer.vars.get? name = some v → v.isSecure = true →
    name ∈ layer.secrets ∨ env.DeclaredSecret name

namespace Retains

theorem refl (env : Environment) : env.Retains env.inner where
  secrets _ hlisted := hlisted
  bound _ _ hbinds hsecure := .inr (declaredSecret_of_inner hbinds hsecure)

theorem set (env : Environment) (name : String) (v : Variable) :
    env.Retains (env.inner.set name v) where
  secrets _ hlisted := Layer.mem_secrets_set hlisted v
  bound other u hbinds hsecure := by
    rw [Layer.get?_set] at hbinds
    split at hbinds
    · next heq =>
      cases hbinds
      subst heq
      exact .inl (Layer.mem_secrets_set_of_isSecure hsecure)
    · exact .inr (declaredSecret_of_inner hbinds hsecure)

theorem markSecret (env : Environment) (name : String) :
    env.Retains (env.inner.markSecret name) where
  secrets _ hlisted := Layer.mem_secrets_markSecret.2 (.inl hlisted)
  bound _ _ hbinds hsecure := .inr (declaredSecret_of_inner hbinds hsecure)

theorem declare (env : Environment) (scope : Declarations) :
    env.Retains (env.inner.declare scope) where
  secrets _ hlisted := Layer.mem_secrets_declare.2 (.inl hlisted)
  bound name v hbinds hsecure := by
    rw [Layer.get?_declare, Option.or_eq_some_iff] at hbinds
    rcases hbinds with hdeclared | ⟨-, hbefore⟩
    · have hscope : scope.get? name = some v := Option.eq_some_of_filter_eq_some hdeclared
      exact .inl (Layer.mem_secrets_declare.2 (.inr (.inl ⟨v, hscope, hsecure⟩)))
    · exact .inr (declaredSecret_of_inner hbefore hsecure)

/-- The secrecy of what is taken over is taken over with it. -/
theorem imported (env other : Environment) : env.Retains (imported env.inner other) where
  secrets _ hlisted := mem_secrets_imported.2 (.inl hlisted)
  bound name v hbinds hsecure := by
    rw [get?_imported, Option.or_eq_some_iff] at hbinds
    rcases hbinds with htaken | ⟨-, hbefore⟩
    · have hdeclared := contains_and_declaredSecret_of_get? htaken hsecure
      exact .inl (mem_secrets_imported.2 (.inr hdeclared))
    · exact .inr (declaredSecret_of_inner hbefore hsecure)

theorem materialize (env : Environment) (g : Suffixes) :
    env.Retains (env.inner.materialize g).1 where
  secrets _ hlisted := hlisted
  bound name v hbinds hsecure := by
    have hmap := Layer.map_isSecure_materialize env.inner g name
    rw [hbinds, Option.map_some, hsecure, eq_comm, Option.map_eq_some_iff] at hmap
    obtain ⟨u, hbefore, hsecure⟩ := hmap
    exact .inr (declaredSecret_of_inner hbefore hsecure)

/-- Resolution lists nothing, but it declares nothing either. -/
theorem resolveAll {env' : Environment} (h : env.resolveAll = .ok env') :
    env.Retains env'.inner where
  secrets name hlisted := by
    obtain ⟨resolved, -, rfl⟩ := resolveAll_eq_ok h
    change name ∈ (resolved.foldl (fun layer entry => layer.bind entry.1 entry.2) env.inner).secrets
    rwa [Layer.secrets_bindAll]
  bound name v hbinds hsecure := by
    rw [← declaresSecret_iff, ← declaresSecret_resolveAll h, declaresSecret_iff]
    exact .inr (declaredSecret_of_inner hbinds hsecure)

end Retains

end Environment

/-! ### Environments inside environments -/

namespace Workspace

variable {ws ws' : Workspace} {id inner outer : Nat} {layer : Layer}

/-- The number of the layer around a layer. -/
def parent? (ws : Workspace) (id : Nat) : Option Nat := (ws.cells.getD id default).parent

/-- `inner` is `outer`, or a layer inside it. -/
inductive StandsIn (ws : Workspace) : (inner outer : Nat) → Prop where
  /-- Every layer stands in itself. -/
  | self (id : Nat) : StandsIn ws id id
  /-- A layer stands in all that the layer around it stands in. -/
  | around {id parent outer : Nat} (hparent : ws.parent? id = some parent) (hlt : parent < id)
    (h : StandsIn ws parent outer) : StandsIn ws id outer

theorem StandsIn.trans {middle : Nat} (h : ws.StandsIn inner middle)
    (h' : ws.StandsIn middle outer) : ws.StandsIn inner outer := by
  induction h with
  | self => exact h'
  | around hparent hlt _ ih => exact .around hparent hlt (ih h')

theorem layersFrom_eq (ws : Workspace) (id : Nat) :
    ws.layersFrom id = (ws.environment id).inner ::
      match ws.parent? id with
      | some parent => if parent < id then ws.layersFrom parent else []
      | none => [] := by
  rw [layersFrom]
  rfl

theorem layersFrom_of_parent? {parent : Nat} (hparent : ws.parent? id = some parent)
    (hlt : parent < id) :
    ws.layersFrom id = (ws.environment id).inner :: ws.layersFrom parent := by
  rw [layersFrom_eq, hparent]
  exact congrArg _ (if_pos hlt)

theorem layers_environment (ws : Workspace) (id : Nat) :
    (ws.environment id).layers = ws.layersFrom id := by
  rw [Environment.layers, environment, layersFrom_eq]
  rfl

/-- The layers of an environment are those that it stands in. -/
theorem mem_layers_environment_iff :
    layer ∈ (ws.environment id).layers ↔
      ∃ outer, ws.StandsIn id outer ∧ (ws.environment outer).inner = layer := by
  rw [layers_environment]
  constructor
  · intro h
    induction id using Nat.strong_induction_on with
    | h id ih =>
      rw [layersFrom_eq, List.mem_cons] at h
      rcases h with rfl | h
      · exact ⟨id, .self id, rfl⟩
      · split at h
        · next parent hparent =>
          split at h
          · next hlt =>
            obtain ⟨outer, hstands, hlayer⟩ := ih parent hlt h
            exact ⟨outer, .around hparent hlt hstands, hlayer⟩
          · cases h
        · cases h
  · rintro ⟨outer, hstands, rfl⟩
    induction hstands with
    | self id =>
      rw [layersFrom_eq]
      exact List.mem_cons_self
    | around hparent hlt _ ih =>
      rw [layersFrom_of_parent? hparent hlt]
      exact List.mem_cons_of_mem _ ih

/-- What is declared secret is declared so by a layer that the environment stands in. -/
theorem declaredSecret_environment_iff :
    (ws.environment id).DeclaredSecret name ↔
      ∃ outer, ws.StandsIn id outer ∧
        (name ∈ (ws.environment outer).inner.secrets ∨
          ∃ v, (ws.environment outer).inner.vars.get? name = some v ∧ v.isSecure = true) := by
  rw [Environment.DeclaredSecret]
  constructor
  · rintro ⟨layer, hlayer, hsecret⟩
    obtain ⟨outer, hstands, rfl⟩ := mem_layers_environment_iff.1 hlayer
    exact ⟨outer, hstands, hsecret⟩
  · rintro ⟨outer, hstands, hsecret⟩
    exact ⟨_, mem_layers_environment_iff.2 ⟨outer, hstands, rfl⟩, hsecret⟩

/-! ### What one operation leaves -/

/-- A number that no layer has yet stands for an empty environment. -/
theorem environment_of_size_le (h : ws.cells.size ≤ id) : ws.environment id = {} := by
  have hcell : ws.cells.getD id default = default := by simp [Array.getD_eq_getD_getElem?, h]
  rw [environment, layersFrom, hcell]
  rfl

theorem getD_push (cells : Array Cell) (cell : Cell) (id : Nat) :
    (cells.push cell).getD id default =
      if id = cells.size then cell else cells.getD id default := by
  simp only [Array.getD_eq_getD_getElem?, Array.getElem?_push]
  split <;> rfl

theorem getD_modify (cells : Array Cell) (f : Cell → Cell) (id other : Nat) :
    (cells.modify id f).getD other default =
      if id = other ∧ id < cells.size then f (cells.getD id default)
      else cells.getD other default := by
  simp only [Array.getD_eq_getD_getElem?, Array.getElem?_modify]
  by_cases heq : id = other
  · subst heq
    by_cases hlt : id < cells.size <;> simp [hlt]
  · simp [heq]

theorem parent?_update (ws : Workspace) (id : Nat) (f : Layer → Layer) (other : Nat) :
    (ws.update id f).parent? other = ws.parent? other := by
  rw [parent?, update, getD_modify, parent?]
  split
  · next heq => rw [heq.1]
  · rfl

theorem inner_update (ws : Workspace) (id : Nat) (f : Layer → Layer) (other : Nat) :
    ((ws.update id f).environment other).inner =
      if id = other ∧ id < ws.cells.size then f (ws.environment id).inner
      else (ws.environment other).inner := by
  change ((ws.cells.modify id _).getD other default).layer = _
  rw [getD_modify]
  split <;> rfl

/-- Every layer stays where it is and keeps what it lists as secret. -/
structure Grows (ws ws' : Workspace) : Prop where
  parent : ∀ id parent, ws.parent? id = some parent → ws'.parent? id = some parent
  secrets : ∀ id, ∀ name ∈ (ws.environment id).inner.secrets,
    name ∈ (ws'.environment id).inner.secrets

namespace Grows

theorem refl (ws : Workspace) : ws.Grows ws := ⟨fun _ _ h => h, fun _ _ h => h⟩

theorem trans {ws'' : Workspace} (h : ws.Grows ws') (h' : ws'.Grows ws'') : ws.Grows ws'' where
  parent id parent hparent := h'.parent id parent (h.parent id parent hparent)
  secrets id name hlisted := h'.secrets id name (h.secrets id name hlisted)

theorem standsIn (h : ws.Grows ws') (hstands : ws.StandsIn inner outer) :
    ws'.StandsIn inner outer := by
  induction hstands with
  | self id => exact .self id
  | around hparent hlt _ ih => exact .around (h.parent _ _ hparent) hlt ih

end Grows

/-- Every layer has become what it may become. -/
structure Retains (ws ws' : Workspace) : Prop where
  parent : ∀ id parent, ws.parent? id = some parent → ws'.parent? id = some parent
  layers : ∀ id, (ws.environment id).Retains (ws'.environment id).inner

namespace Retains

theorem grows (h : ws.Retains ws') : ws.Grows ws' := ⟨h.parent, fun id => (h.layers id).secrets⟩

theorem refl (ws : Workspace) : ws.Retains ws := ⟨fun _ _ h => h, fun _ => .refl _⟩

/-- It is only the layers that count. -/
theorem congr {ws'' : Workspace} (h : ws.Retains ws') (hcells : ws''.cells = ws'.cells) :
    ws.Retains ws'' where
  parent id parent hparent := by
    rw [parent?, hcells]
    exact h.parent id parent hparent
  layers id := by
    have hinner : (ws''.environment id).inner = (ws'.environment id).inner := by
      rw [environment, environment, hcells]
    exact hinner ▸ h.layers id

/-- A new layer may be what an empty one may become. -/
theorem addCell (ws : Workspace) (name : String) {cell : Cell}
    (h : ({} : Environment).Retains cell.layer) : ws.Retains (ws.addCell name cell) where
  parent id parent hparent := by
    have hne : id ≠ ws.cells.size := by
      rintro rfl
      rw [parent?, Array.getD_eq_getD_getElem?, Array.getElem?_size] at hparent
      cases hparent
    rw [parent?, Workspace.addCell, getD_push, if_neg hne]
    exact hparent
  layers id := by
    change (ws.environment id).Retains ((ws.cells.push cell).getD id default).layer
    rw [getD_push]
    split
    · next heq => rwa [environment_of_size_le heq.ge]
    · exact .refl _

theorem update (ws : Workspace) (id : Nat) {f : Layer → Layer}
    (h : (ws.environment id).Retains (f (ws.environment id).inner)) :
    ws.Retains (ws.update id f) where
  parent other parent hparent := by rwa [parent?_update]
  layers other := by
    rw [inner_update]
    split
    · next heq => exact heq.1 ▸ h
    · exact .refl _

end Retains

/-! ### Operations -/

/-- What can be done in a workspace. -/
inductive Action where
  /-- Adds an environment of its own. -/
  | addRoot (name : String) (seed : Nat)
  /-- Adds an environment inside another one. -/
  | addChild (name : String) (parent : Nat) (scope : Option Declarations) (target : Option Nat)
  /-- Binds a name. -/
  | set (id : Nat) (name : String) (v : Variable)
  /-- Keeps a name secret. -/
  | markSecret (id : Nat) (name : String)
  /-- Declares what a scope declares. -/
  | declare (id : Nat) (scope : Declarations)
  /-- Takes over the bindings of another environment. -/
  | takeOver (id : Nat) (other : Environment)
  /-- Binds a name where outputs go. -/
  | output (id : Nat) (name : String) (v : Variable)
  /-- Generates the values that are due. -/
  | materialize (id : Nat)
  /-- Draws a suffix. -/
  | drawSuffix (id : Nat)
  /-- Resolves every variable; with a cycle among them nothing changes. -/
  | resolveAll (id : Nat)

/-- The workspace after an action. -/
def act (ws : Workspace) : Action → Workspace
  | .addRoot name seed => ws.addRoot name seed
  | .addChild name parent scope target => ws.addChild name parent scope target
  | .set id name v => ws.update id fun layer => layer.set name v
  | .markSecret id name => ws.update id fun layer => layer.markSecret name
  | .declare id scope => ws.update id fun layer => layer.declare scope
  | .takeOver id other => ws.update id fun layer => Environment.imported layer other
  | .output id name v => ws.output id name v
  | .materialize id => (ws.materialize id).2
  | .drawSuffix id => (ws.drawSuffix id).2
  | .resolveAll id =>
    match (ws.environment id).resolveAll with
    | .ok env => ws.update id fun _ => env.inner
    | .error _ => ws

/-- The workspace after some actions, one after the other. -/
def perform (ws : Workspace) (actions : List Action) : Workspace := actions.foldl act ws

/-- Every action changes the layers in the same way. -/
theorem retains_act (ws : Workspace) (action : Action) : ws.Retains (ws.act action) := by
  cases action with
  | addRoot name seed =>
    have hcell : ws.Retains (ws.addCell name { generator := ws.generators.size }) :=
      .addCell ws name (.refl _)
    exact hcell.congr rfl
  | addChild name parent scope target =>
    refine .addCell ws name ?_
    cases scope with
    | none => exact .refl _
    | some scope => exact .declare _ scope
  | set id name v =>
    rw [act]
    refine .update ws id ?_
    exact .set _ name v
  | markSecret id name =>
    rw [act]
    refine .update ws id ?_
    exact .markSecret _ name
  | declare id scope =>
    rw [act]
    refine .update ws id ?_
    exact .declare _ scope
  | takeOver id other =>
    rw [act]
    refine .update ws id ?_
    exact .imported _ other
  | output id name v =>
    rw [act, Workspace.output]
    refine .update ws _ ?_
    exact .set _ name v
  | materialize id =>
    have hlayer : ws.Retains
        (ws.update id fun _ => ((ws.environment id).inner.materialize (ws.generator id)).1) :=
      .update ws id (.materialize _ (ws.generator id))
    exact hlayer.congr rfl
  | drawSuffix id => exact (Retains.refl ws).congr rfl
  | resolveAll id =>
    rw [act]
    cases hresolved : (ws.environment id).resolveAll with
    | error e => exact .refl ws
    | ok env => exact .update ws id (.resolveAll hresolved)

theorem grows_perform (ws : Workspace) (actions : List Action) : ws.Grows (ws.perform actions) := by
  induction actions generalizing ws with
  | nil => exact .refl ws
  | cons action actions ih => exact (ws.retains_act action).grows.trans (ih (ws.act action))

/-! ### Lists that account for every secret -/

/-- Whatever is declared secret is listed by a layer around. -/
def Accounted (ws : Workspace) : Prop :=
  ∀ id name, (ws.environment id).DeclaredSecret name →
    ∃ outer, ws.StandsIn id outer ∧ name ∈ (ws.environment outer).inner.secrets

theorem Accounted.empty : ({} : Workspace).Accounted := by
  intro id name hsecret
  rw [environment_of_size_le (Nat.zero_le id)] at hsecret
  obtain ⟨layer, hlayer, hlisted | ⟨v, hbinds, -⟩⟩ := hsecret
  · cases List.mem_singleton.1 hlayer
    cases hlisted
  · cases List.mem_singleton.1 hlayer
    cases hbinds

/-- A layer may bind a secret variable that it does not list only where its name was declared secret
before, and then it was listed. -/
theorem Accounted.retains (h : ws.Accounted) (hretains : ws.Retains ws') : ws'.Accounted := by
  intro id name hsecret
  obtain ⟨outer, hstands, hlisted | ⟨v, hbinds, hsecure⟩⟩ :=
    declaredSecret_environment_iff.1 hsecret
  · exact ⟨outer, hstands, hlisted⟩
  · rcases (hretains.layers outer).bound name v hbinds hsecure with hlisted | hbefore
    · exact ⟨outer, hstands, hlisted⟩
    · obtain ⟨further, hfurther, hlisted⟩ := h outer name hbefore
      exact ⟨further, hstands.trans (hretains.grows.standsIn hfurther),
        hretains.grows.secrets further name hlisted⟩

theorem Accounted.perform (h : ws.Accounted) (actions : List Action) :
    (ws.perform actions).Accounted := by
  induction actions generalizing ws with
  | nil => exact h
  | cons action actions ih => exact ih (h.retains (ws.retains_act action))

/-- **Declared secrets are kept.** If a name is declared secret in an environment after some
actions, it is declared secret there after any further actions, and in every environment that then
stands inside: no matter what is bound to it in the meantime. -/
theorem declaredSecret_perform (before after : List Action)
    (hsecret : ((({} : Workspace).perform before).environment outer).DeclaredSecret name)
    (hstands : ((({} : Workspace).perform before).perform after).StandsIn inner outer) :
    (((({} : Workspace).perform before).perform after).environment inner).DeclaredSecret name := by
  have hgrows := (({} : Workspace).perform before).grows_perform after
  obtain ⟨further, hfurther, hlisted⟩ := Accounted.empty.perform before outer name hsecret
  refine declaredSecret_environment_iff.2 ⟨further, ?_, .inl (hgrows.secrets further name hlisted)⟩
  exact hstands.trans (hgrows.standsIn hfurther)

/-- A secret that refers to another variable, in an environment with one inside it. -/
def referring : List Action :=
  [.addRoot "outer" 0, .addChild "inner" 0 none none, .set 0 "host" (.string "h"),
    .set 0 "key" (.secureString "$(host)")]

/-- The inner environment binds the resolved secret, and then both bind a plain text. -/
def overwriting : List Action :=
  [.resolveAll 1, .set 0 "key" (.string "plain"), .set 1 "key" (.string "plain")]

theorem declaredSecret_overwriting :
    ((({} : Workspace).perform referring).environment 0).DeclaredSecret "key" ∧
      ((((({} : Workspace).perform referring).perform overwriting).environment 1).get? "key").map
        Variable.kind = some .string ∧
      (((({} : Workspace).perform referring).perform overwriting).environment 1).DeclaredSecret
        "key" := by
  have hsecret : ((({} : Workspace).perform referring).environment 0).DeclaredSecret "key" :=
    Environment.declaresSecret_iff.1 (by decide +kernel)
  refine ⟨hsecret, by decide +kernel, declaredSecret_perform referring overwriting hsecret ?_⟩
  exact .around (by decide +kernel) Nat.zero_lt_one (.self 0)

end Workspace

end Rehearsal
