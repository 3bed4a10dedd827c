import Rehearsal.Proofs.Workspace

/-!
# Bindings that are taken over

An environment may take over all bindings of another one: a chain of layers becomes a part of a single
layer. Every name that the other environment binds means the same in both then, and all other names
mean what they meant (`Environment.TookOver`). The secrecy of the bound names comes along, and what was
declared secret in the environment itself stays so.

What does not come along is the secrecy of a name that the other environment declares secret without
binding it. The values that refer to such a name are taken over, and in the new place they are secret
only if the name is: so it is not true that whatever is secret in the other environment is secret
behind it (`Workspace.not_forall_isSecret_takeOver`). What is true is that a name is secret if
references lead from it to a name that was declared secret before, or that the other environment
declares secret and binds (`Workspace.takesOver_act`). Nothing else in the workspace changes.
-/

namespace Rehearsal

variable {name : String}

namespace Environment

variable {env env' other after : Environment}

theorem eq_of_layers_eq (h : env.layers = other.layers) : env = other := by
  obtain ⟨inner, outer⟩ := env
  cases h
  rfl

/-! ### One environment after another one was taken over -/

/-- `after` is `env` with the bindings of `other` in front, and with the secrecy that is declared there
of the names bound there. -/
structure TookOver (env other after : Environment) : Prop where
  /-- What the other environment binds is bound as it is there. -/
  bound : ∀ name, other.contains name = true → after.get? name = other.get? name
  /-- All other names are bound as they were. -/
  kept : ∀ name, other.contains name = false → after.get? name = env.get? name
  /-- Declared secret is what was so, and what is bound and declared secret there. -/
  declared : ∀ name, after.DeclaredSecret name ↔
    env.DeclaredSecret name ∨ other.contains name = true ∧ other.DeclaredSecret name

/-- Some layer lists a name as secret. -/
def ListsSecret (env : Environment) (name : String) : Prop :=
  ∃ layer ∈ env.layers, name ∈ layer.secrets

theorem get?_modifyInner_imported (env other : Environment) (name : String) :
    (env.modifyInner (imported · other)).get? name = (other.get? name).or (env.get? name) := by
  rw [get?_eq_or, get?_eq_or env, ← Option.or_assoc]
  exact congrArg (Option.or · _) (get?_imported env.inner other name)

/-- A layer that takes over bindings may hide a secret variable of its own, so the names that are
declared secret have to be listed. -/
theorem declaredSecret_modifyInner_imported
    (hlisted : ∀ name, env.DeclaredSecret name → env.ListsSecret name) (other : Environment)
    (name : String) :
    (env.modifyInner (imported · other)).DeclaredSecret name ↔
      env.DeclaredSecret name ∨ other.contains name = true ∧ other.DeclaredSecret name := by
  constructor
  · rintro ⟨layer, hlayer, hsecret⟩
    rcases List.mem_cons.1 hlayer with rfl | hlayer
    · rcases hsecret with hmem | ⟨v, hbinds, hsecure⟩
      · rcases mem_secrets_imported.1 hmem with hmem | htaken
        · exact .inl ⟨env.inner, List.mem_cons_self, .inl hmem⟩
        · exact .inr htaken
      · rw [modifyInner, get?_imported, Option.or_eq_some_iff] at hbinds
        rcases hbinds with htaken | ⟨-, hbefore⟩
        · exact .inr (contains_and_declaredSecret_of_get? htaken hsecure)
        · exact .inl (declaredSecret_of_inner hbefore hsecure)
    · exact .inl ⟨layer, List.mem_cons_of_mem _ hlayer, hsecret⟩
  · rintro (hbefore | htaken)
    · obtain ⟨layer, hlayer, hmem⟩ := hlisted name hbefore
      rcases List.mem_cons.1 hlayer with rfl | hlayer
      · exact ⟨_, List.mem_cons_self, .inl (mem_secrets_imported.2 (.inl hmem))⟩
      · exact ⟨layer, List.mem_cons_of_mem _ hlayer, .inl hmem⟩
    · exact ⟨_, List.mem_cons_self, .inl (mem_secrets_imported.2 (.inr htaken))⟩

theorem tookOver_modifyInner (hlisted : ∀ name, env.DeclaredSecret name → env.ListsSecret name)
    (other : Environment) : env.TookOver other (env.modifyInner (imported · other)) where
  bound name hcontains := by
    obtain ⟨v, hget⟩ := Option.isSome_iff_exists.1 hcontains
    rw [get?_modifyInner_imported, hget, Option.some_or]
  kept name hfree := by
    have hunbound : other.get? name = none := by simpa [contains] using hfree
    rw [get?_modifyInner_imported, hunbound, Option.none_or]
  declared := declaredSecret_modifyInner_imported hlisted other

namespace TookOver

/-- References are taken over with the values that have them. -/
theorem reaches (h : env.TookOver other after) {a b : String} (hreach : other.Reaches a b) :
    after.Reaches a b := by
  refine Relation.ReflTransGen.mono (fun c d hrefers => ?_) a b hreach
  have hcontains : other.contains c = true := by
    rw [← mem_names_iff]
    by_contra hmem
    rw [Refers, references_eq_nil_of_not_mem hmem] at hrefers
    cases hrefers
  rwa [Refers, references, value?, h.bound c hcontains]

theorem isSecret_iff (h : env.TookOver other after) :
    after.isSecret name = true ↔
      ∃ secret, after.Reaches name secret ∧
        (env.DeclaredSecret secret ∨ other.contains secret = true ∧ other.DeclaredSecret secret) := by
  simp only [isSecret_iff_declared, h.declared]

/-- What is secret elsewhere stays a secret if the names do that are declared secret there without being
bound: whatever else is declared secret is taken over. -/
theorem forall_isSecret_iff (h : env.TookOver other after) :
    (∀ name, other.isSecret name = true → after.isSecret name = true) ↔
      ∀ name, other.contains name = false → other.DeclaredSecret name → after.isSecret name = true := by
  constructor
  · intro hkeeps name _ hsecret
    exact hkeeps name (isSecret_iff_declared.2 ⟨name, .refl, hsecret⟩)
  · intro hunbound name hsecret
    obtain ⟨secret, hreach, hdeclared⟩ := isSecret_iff_declared.1 hsecret
    cases hcontains : other.contains secret with
    | true => exact h.isSecret_iff.2 ⟨secret, h.reaches hreach, .inr ⟨hcontains, hdeclared⟩⟩
    | false =>
      obtain ⟨further, hfurther, hlisted⟩ :=
        isSecret_iff_declared.1 (hunbound secret hcontains hdeclared)
      exact isSecret_iff_declared.2 ⟨further, (h.reaches hreach).trans hfurther, hlisted⟩

end TookOver

/-- For the environment whose bindings were taken over nothing changes, even if it stands inside. -/
theorem TookOver.of_inside (h : env.TookOver other env') {inside : List Layer}
    (hother : other.layers = inside ++ env.layers) (hafter : after.layers = inside ++ env'.layers)
    (name : String) :
    after.get? name = other.get? name ∧ (after.DeclaredSecret name ↔ other.DeclaredSecret name) := by
  have hget : other.get? name =
      (inside.findSome? fun layer => layer.vars.get? name).or (env.get? name) := by
    rw [get?, hother, List.findSome?_append]
    rfl
  have hsecret : other.DeclaredSecret name ↔
      (∃ layer ∈ inside,
        name ∈ layer.secrets ∨ ∃ v, layer.vars.get? name = some v ∧ v.isSecure = true) ∨
        env.DeclaredSecret name := by
    simp only [DeclaredSecret, hother, List.mem_append, or_and_right, exists_or]
  constructor
  · rw [get?, hafter, List.findSome?_append]
    change Option.or _ (env'.get? name) = _
    cases hcontains : other.contains name with
    | true =>
      rw [h.bound name hcontains, hget]
      cases inside.findSome? fun layer => layer.vars.get? name <;> rfl
    | false => rw [h.kept name hcontains, hget]
  · rw [DeclaredSecret, hafter]
    simp only [List.mem_append, or_and_right, exists_or]
    change _ ∨ env'.DeclaredSecret name ↔ _
    rw [h.declared, hsecret, ← or_assoc]
    exact or_iff_left_of_imp And.right

end Environment

namespace Workspace

variable {ws : Workspace} {id inner outer : Nat} {f : Layer → Layer}

/-! ### What an update leaves as it was -/

theorem StandsIn.le (h : ws.StandsIn inner outer) : outer ≤ inner := by
  induction h with
  | self => exact Nat.le_refl _
  | around _ hlt _ ih => exact ih.trans hlt.le

theorem layersFrom_update_of_not_standsIn (h : ¬ ws.StandsIn inner id) :
    (ws.update id f).layersFrom inner = ws.layersFrom inner := by
  induction inner using Nat.strong_induction_on with
  | h inner ih =>
    have hne : ¬ (id = inner ∧ id < ws.cells.size) := by
      rintro ⟨rfl, -⟩
      exact h (.self _)
    rw [layersFrom_eq, layersFrom_eq ws, inner_update, if_neg hne, parent?_update]
    cases hparent : ws.parent? inner with
    | none => rfl
    | some parent =>
      dsimp only
      split
      · next hlt => rw [ih parent hlt fun hstands => h (.around hparent hlt hstands)]
      · rfl

theorem environment_update_of_not_standsIn (h : ¬ ws.StandsIn inner id) :
    (ws.update id f).environment inner = ws.environment inner := by
  refine Environment.eq_of_layers_eq ?_
  rw [layers_environment, layers_environment, layersFrom_update_of_not_standsIn h]

theorem environment_update (hid : id < ws.cells.size) :
    (ws.update id f).environment id = (ws.environment id).modifyInner f := by
  refine Environment.eq_of_layers_eq ?_
  have hlayers : (ws.environment id).layers = ws.layersFrom id := ws.layers_environment id
  rw [layersFrom_eq] at hlayers
  have houter := (List.cons.inj hlayers).2
  rw [layers_environment, layersFrom_eq, inner_update, if_pos ⟨rfl, hid⟩, parent?_update,
    Environment.modifyInner, Environment.layers, houter]
  cases hparent : ws.parent? id with
  | none => rfl
  | some parent =>
    dsimp only
    split
    · next hlt => rw [layersFrom_update_of_not_standsIn fun hstands => hlt.not_ge hstands.le]
    · rfl

/-- What stands inside a layer keeps its own layers when that one changes. -/
theorem exists_inside_of_standsIn (f : Layer → Layer) (h : ws.StandsIn inner id) :
    ∃ inside, (ws.environment inner).layers = inside ++ (ws.environment id).layers ∧
      ((ws.update id f).environment inner).layers =
        inside ++ ((ws.update id f).environment id).layers := by
  induction h with
  | self id => exact ⟨[], rfl, rfl⟩
  | @around inner parent id hparent hlt hstands ih =>
    obtain ⟨inside, hbefore, hafter⟩ := ih
    have hne : ¬ (id = inner ∧ id < ws.cells.size) := fun heq =>
      (hstands.le.trans_lt hlt).ne heq.1
    refine ⟨(ws.environment inner).inner :: inside, ?_, ?_⟩
    · rw [layers_environment, layersFrom_of_parent? hparent hlt, ← layers_environment, hbefore,
        List.cons_append]
    · have hkept : (ws.update id f).parent? inner = some parent := by rwa [parent?_update]
      rw [layers_environment, layersFrom_of_parent? hkept hlt, inner_update, if_neg hne,
        ← layers_environment, hafter, List.cons_append]

/-! ### Taking over in a workspace -/

/-- A workspace that came out of some actions. -/
def Reached (ws : Workspace) : Prop := ∃ actions, ({} : Workspace).perform actions = ws

theorem Reached.listsSecret (h : ws.Reached) (hsecret : (ws.environment id).DeclaredSecret name) :
    (ws.environment id).ListsSecret name := by
  obtain ⟨actions, rfl⟩ := h
  obtain ⟨outer, hstands, hlisted⟩ := Accounted.empty.perform actions id name hsecret
  exact ⟨_, mem_layers_environment_iff.2 ⟨outer, hstands, rfl⟩, hlisted⟩

/-- What the workspace `ws'` is after environment `id` of `ws` took over the bindings of environment
`other`. -/
structure TakesOver (ws : Workspace) (id other : Nat) (ws' : Workspace) : Prop where
  /-- The bindings are taken over, with the secrecy that is declared of them. -/
  tookOver : (ws.environment id).TookOver (ws.environment other) (ws'.environment id)
  /-- What was declared secret is secret. -/
  keepsSecret : ∀ name, (ws.environment id).DeclaredSecret name →
    (ws'.environment id).isSecret name = true
  /-- What led to a secret that is bound in the other environment leads to it here. -/
  takesSecret : ∀ name secret, (ws.environment other).Reaches name secret →
    (ws.environment other).contains secret = true → (ws.environment other).DeclaredSecret secret →
      (ws'.environment id).isSecret name = true
  /-- Secret are exactly the names that lead to one declared secret before or to one taken over. -/
  isSecret_iff : ∀ name, (ws'.environment id).isSecret name = true ↔
    ∃ secret, (ws'.environment id).Reaches name secret ∧
      ((ws.environment id).DeclaredSecret secret ∨
        (ws.environment other).contains secret = true ∧ (ws.environment other).DeclaredSecret secret)
  /-- Every secret of the other environment stays one exactly if those do that are not bound there. -/
  secrets_iff :
    (∀ name, (ws.environment other).isSecret name = true → (ws'.environment id).isSecret name = true) ↔
      ∀ name, (ws.environment other).contains name = false →
        (ws.environment other).DeclaredSecret name → (ws'.environment id).isSecret name = true
  /-- Only the environments inside see a difference. -/
  outside : ∀ outside, ¬ ws.StandsIn outside id → ws'.environment outside = ws.environment outside
  /-- Those around do not. -/
  around : ∀ around, ws.StandsIn id around → around ≠ id →
    ws'.environment around = ws.environment around
  /-- In the other environment every name means what it meant and is declared secret as it was. -/
  source : ∀ name, (ws'.environment other).get? name = (ws.environment other).get? name ∧
    ((ws'.environment other).DeclaredSecret name ↔ (ws.environment other).DeclaredSecret name)

/-- **What an environment takes over from another one.** All names bound in the other environment are
bound alike, all other names are bound as they were, and what was declared secret is secret. What is
secret in the other environment is secret behind it too, if those names are that the other environment
declares secret without binding them. Nothing changes in the other environment, nor in any that does
not stand inside. -/
theorem takesOver_act (hreached : ws.Reached) (hid : id < ws.cells.size) (other : Nat) :
    ws.TakesOver id other (ws.act (.takeOver id (ws.environment other))) := by
  have htook : (ws.environment id).TookOver (ws.environment other)
      ((ws.act (.takeOver id (ws.environment other))).environment id) := by
    rw [act, environment_update hid]
    exact Environment.tookOver_modifyInner (fun name => hreached.listsSecret) _
  have houtside (outside : Nat) (hnot : ¬ ws.StandsIn outside id) :
      (ws.act (.takeOver id (ws.environment other))).environment outside = ws.environment outside :=
    environment_update_of_not_standsIn hnot
  refine
    { tookOver := htook
      keepsSecret := fun name hsecret => htook.isSecret_iff.2 ⟨name, .refl, .inl hsecret⟩
      takesSecret := fun name secret hreach hcontains hsecret =>
        htook.isSecret_iff.2 ⟨secret, htook.reaches hreach, .inr ⟨hcontains, hsecret⟩⟩
      isSecret_iff := fun name => htook.isSecret_iff
      secrets_iff := htook.forall_isSecret_iff
      outside := houtside
      around := ?_
      source := ?_ }
  · intro around hstands hne
    exact houtside around fun hinside => hne (hstands.le.antisymm hinside.le)
  · intro name
    by_cases hstands : ws.StandsIn other id
    · obtain ⟨inside, hbefore, hafter⟩ :=
        exists_inside_of_standsIn (fun layer => Environment.imported layer (ws.environment other)) hstands
      exact htook.of_inside hbefore hafter name
    · rw [houtside other hstands]
      exact ⟨rfl, Iff.rfl⟩

/-- A caller that keeps a token secret without having one, and a header that refers to it; beside it
stands an environment with a key. -/
def tokenless : Workspace :=
  ({} : Workspace).perform
    [.addRoot "caller" 0, .markSecret 0 "token", .set 0 "header" (.string "Bearer $(token)"),
      .addRoot "scope" 0, .set 1 "key" (.secureString "k")]

theorem takesOver_tokenless :
    tokenless.Reached ∧ 1 < tokenless.cells.size ∧
      tokenless.TakesOver 1 0 (tokenless.act (.takeOver 1 (tokenless.environment 0))) := by
  have hreached : tokenless.Reached := ⟨_, rfl⟩
  have hid : 1 < tokenless.cells.size := by decide
  exact ⟨hreached, hid, takesOver_act hreached hid 0⟩

/-- The header is taken over without the secrecy of the token. -/
theorem not_forall_isSecret_takeOver :
    ¬ ∀ (ws : Workspace) (id other : Nat) (name : String), ws.Reached → id < ws.cells.size →
      other < ws.cells.size → ¬ ws.StandsIn id other → ¬ ws.StandsIn other id →
        (ws.environment other).isSecret name = true →
          ((ws.act (.takeOver id (ws.environment other))).environment id).isSecret name = true := by
  intro hkeeps
  have hroot (id : Nat) (hparent : tokenless.parent? id = none) (outer : Nat)
      (h : tokenless.StandsIn id outer) : outer = id := by
    cases h with
    | self => rfl
    | around h =>
      rw [hparent] at h
      cases h
  have hbefore : (tokenless.environment 0).isSecret "header" = true := by cbv
  have hafter : ((tokenless.act (.takeOver 1 (tokenless.environment 0))).environment 1).isSecret
      "header" = false := by cbv
  have hstill := hkeeps tokenless 1 0 "header" ⟨_, rfl⟩ (by decide) (by decide)
    (fun h => Nat.zero_ne_one (hroot 1 rfl 0 h)) (fun h => Nat.one_ne_zero (hroot 0 rfl 1 h)) hbefore
  rw [hafter] at hstill
  cases hstill

end Workspace

end Rehearsal
