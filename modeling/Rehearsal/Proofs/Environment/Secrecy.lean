import Mathlib.Algebra.Order.BigOperators.Group.List
import Mathlib.Algebra.Order.Ring.Nat
import Rehearsal.Proofs.Environment.Reference

/-!
# What makes a name secret

`Environment.reachesSecret` searches along references with a list of the names it has seen, shared
by all branches, and passes over a name seen before. Still it finds a secret if and only if a name
that is declared secret can be reached (`Environment.reachesSecret_iff`): a search that ends
without one leaves names behind that no reference leads out of, and none of them is declared
secret.

* `Environment.reachesSecretWithin`: the same search with a bound on the names it looks at;
* `Environment.isSecret_iff_leads`: which names and texts are secret, and how soon that is known.
-/

namespace Rehearsal

namespace Environment

variable {env : Environment} {todo seen done : List String} {name : String}

/-- No name of `done` is declared secret, and its references are done or still to do. -/
def ClosedUpTo (env : Environment) (todo done : List String) : Prop :=
  ∀ a ∈ done, env.declaresSecret a = false ∧ ∀ b, env.Refers a b → b ∈ done ++ todo

/-- Once nothing is left to do, everything that can be reached is done. -/
theorem ClosedUpTo.mem_of_reaches (h : env.ClosedUpTo [] done) {a b : String} (ha : a ∈ done)
    (hreach : env.Reaches a b) : b ∈ done := by
  induction hreach with
  | refl => exact ha
  | tail _ hrefers ih => simpa using (h _ ih).2 _ hrefers

theorem mem_cons_append {a : String} {rest next : List String} (hrest : ∀ b ∈ rest, b ∈ next)
    (h : a ∈ done ++ name :: rest) : a ∈ name :: done ++ next := by
  simp only [List.mem_append, List.mem_cons] at h ⊢
  rcases h with h | h | h
  · exact .inl (.inr h)
  · exact .inl (.inl h)
  · exact .inr (hrest a h)

/-- A name that is not declared secret is done once its references are done or to do. -/
theorem ClosedUpTo.cons {rest next : List String} (h : env.ClosedUpTo (name :: rest) done)
    (hsecret : env.declaresSecret name = false) (hrest : ∀ b ∈ rest, b ∈ next)
    (hnext : ∀ b, env.Refers name b → b ∈ name :: done ++ next) :
    env.ClosedUpTo next (name :: done) := by
  intro a ha
  rcases List.mem_cons.1 ha with rfl | ha
  · exact ⟨hsecret, hnext⟩
  · exact ⟨(h a ha).1, fun b hb => mem_cons_append hrest ((h a ha).2 b hb)⟩

/-- A search that finds nothing leaves names behind that are closed under references, and all that
it had to look at is among them. -/
theorem exists_closed_of_reachesSecret (h : env.reachesSecret todo seen = false)
    (hseen : ∀ a ∈ seen, a ∈ done) (hdone : env.ClosedUpTo todo done) :
    ∃ all, env.ClosedUpTo [] all ∧ ∀ a ∈ done ++ todo, a ∈ all := by
  induction todo, seen using reachesSecret.induct env generalizing done with
  | case1 seen => exact ⟨done, hdone, by simp⟩
  | case2 seen name rest hsecret =>
    rw [reachesSecret, if_pos hsecret] at h
    cases h
  | case3 seen name rest hsecret hmem ih =>
    -- Seen before, so the references of the name are accounted for already.
    rw [reachesSecret, if_neg hsecret, dif_pos hmem] at h
    have hdone' : env.ClosedUpTo rest (name :: done) :=
      hdone.cons (by simpa using hsecret) (fun _ hb => hb) fun b hb =>
        mem_cons_append (fun _ hb => hb) ((hdone name (hseen name hmem)).2 b hb)
    obtain ⟨all, hclosed, hall⟩ := ih h (fun a ha => List.mem_cons_of_mem name (hseen a ha)) hdone'
    exact ⟨all, hclosed, fun a ha => hall a (mem_cons_append (fun _ hb => hb) ha)⟩
  | case4 seen name rest hsecret hnew hmem ih =>
    rw [reachesSecret, if_neg hsecret, dif_neg hnew, dif_pos hmem] at h
    have hrest : ∀ b ∈ rest, b ∈ env.references name ++ rest := fun b hb =>
      List.mem_append_right _ hb
    have hdone' : env.ClosedUpTo (env.references name ++ rest) (name :: done) :=
      hdone.cons (by simpa using hsecret) hrest fun b hb =>
        List.mem_append_right _ (List.mem_append_left rest hb)
    have hseen' : ∀ a ∈ name :: seen, a ∈ name :: done := fun a ha =>
      (List.mem_cons.1 ha).elim (fun heq => heq ▸ List.mem_cons_self) fun ha =>
        List.mem_cons_of_mem name (hseen a ha)
    obtain ⟨all, hclosed, hall⟩ := ih h hseen' hdone'
    exact ⟨all, hclosed, fun a ha => hall a (mem_cons_append hrest ha)⟩
  | case5 seen name rest hsecret hnew hmem ih =>
    -- A name that is not bound has no references.
    rw [reachesSecret, if_neg hsecret, dif_neg hnew, dif_neg hmem] at h
    have hdone' : env.ClosedUpTo rest (name :: done) :=
      hdone.cons (by simpa using hsecret) (fun _ hb => hb) fun b hb => by
        rw [Refers, references_eq_nil_of_not_mem hmem] at hb
        cases hb
    obtain ⟨all, hclosed, hall⟩ := ih h (fun a ha => List.mem_cons_of_mem name (hseen a ha)) hdone'
    exact ⟨all, hclosed, fun a ha => hall a (mem_cons_append (fun _ hb => hb) ha)⟩

theorem exists_reaches_of_reachesSecret (h : env.reachesSecret todo seen = true) :
    ∃ a ∈ todo, ∃ b, env.Reaches a b ∧ env.declaresSecret b = true := by
  induction todo, seen using reachesSecret.induct env with
  | case1 seen => rw [reachesSecret] at h; cases h
  | case2 seen name rest hsecret => exact ⟨name, List.mem_cons_self, name, .refl, hsecret⟩
  | case3 seen name rest hsecret hmem ih =>
    rw [reachesSecret, if_neg hsecret, dif_pos hmem] at h
    obtain ⟨a, ha, hreach⟩ := ih h
    exact ⟨a, List.mem_cons_of_mem name ha, hreach⟩
  | case4 seen name rest hsecret hnew hmem ih =>
    rw [reachesSecret, if_neg hsecret, dif_neg hnew, dif_pos hmem] at h
    obtain ⟨a, ha, b, hreach, hb⟩ := ih h
    rcases List.mem_append.1 ha with hrefers | ha
    · exact ⟨name, List.mem_cons_self, b, .head hrefers hreach, hb⟩
    · exact ⟨a, List.mem_cons_of_mem name ha, b, hreach, hb⟩
  | case5 seen name rest hsecret hnew hmem ih =>
    rw [reachesSecret, if_neg hsecret, dif_neg hnew, dif_neg hmem] at h
    obtain ⟨a, ha, hreach⟩ := ih h
    exact ⟨a, List.mem_cons_of_mem name ha, hreach⟩

/-- The search finds a secret if and only if one of the names leads to a name declared secret. -/
theorem reachesSecret_iff :
    env.reachesSecret todo [] = true ↔
      ∃ a ∈ todo, ∃ b, env.Reaches a b ∧ env.declaresSecret b = true := by
  refine ⟨exists_reaches_of_reachesSecret, ?_⟩
  rintro ⟨a, ha, b, hreach, hsecret⟩
  cases hfound : env.reachesSecret todo [] with
  | true => rfl
  | false =>
    have hnone : env.ClosedUpTo todo [] := fun _ h => absurd h List.not_mem_nil
    obtain ⟨all, hclosed, hall⟩ := exists_closed_of_reachesSecret hfound (fun _ h => h) hnone
    have hmem : b ∈ all := hclosed.mem_of_reaches (hall a ha) hreach
    rw [(hclosed b hmem).1] at hsecret
    cases hsecret

theorem isSecret_iff :
    env.isSecret name = true ↔ ∃ b, env.Reaches name b ∧ env.declaresSecret b = true := by
  simp [isSecret, reachesSecret_iff]

/-! ### How long the search takes -/

/-- How many references the bound names have that are not seen yet. -/
def openReferences (env : Environment) (seen : List String) : Nat :=
  ((env.names.filter fun n => !seen.contains n).map fun n => (env.references n).length).sum

/-- `reachesSecret` with a look at no more than `steps` names; `none` says that these were not
enough. -/
def reachesSecretWithin (env : Environment) :
    (steps : Nat) → (todo seen : List String) → Option Bool
  | _, [], _ => some false
  | 0, _ :: _, _ => none
  | steps + 1, name :: rest, seen =>
    if env.declaresSecret name then some true
    else if name ∈ seen then env.reachesSecretWithin steps rest seen
    else if name ∈ env.names then
      env.reachesSecretWithin steps (env.references name ++ rest) (name :: seen)
    else env.reachesSecretWithin steps rest seen

theorem sum_filter_ne_add_le (f : String → Nat) {names : List String} (h : name ∈ names) :
    ((names.filter fun n => n != name).map f).sum + f name ≤ (names.map f).sum := by
  induction names with
  | nil => exact absurd h List.not_mem_nil
  | cons other names ih =>
    by_cases heq : other = name
    · subst heq
      have hrest : ((names.filter fun n => n != other).map f).sum ≤ (names.map f).sum :=
        (List.filter_sublist.map f).sum_le_sum fun _ _ => Nat.zero_le _
      simp
      omega
    · have hrest := ih ((List.mem_cons.1 h).resolve_left (Ne.symm heq))
      simp [heq]
      omega

/-- A name that is seen for the first time takes its references with it. -/
theorem openReferences_cons_add_le (hmem : name ∈ env.names) (hnew : name ∉ seen) :
    env.openReferences (name :: seen) + (env.references name).length ≤ env.openReferences seen := by
  rw [openReferences, filter_not_contains_cons]
  exact sum_filter_ne_add_le _ (List.mem_filter.2 ⟨hmem, by simpa using hnew⟩)

/-- The search looks at what it is given to do, and once more at every reference of a bound name. -/
theorem reachesSecretWithin_eq {steps : Nat} (h : todo.length + env.openReferences seen ≤ steps) :
    env.reachesSecretWithin steps todo seen = some (env.reachesSecret todo seen) := by
  induction todo, seen using reachesSecret.induct env generalizing steps with
  | case1 seen => rw [reachesSecretWithin, reachesSecret]
  | case2 seen name rest hsecret =>
    obtain ⟨steps, rfl⟩ : ∃ n, steps = n + 1 := ⟨steps - 1, by simp at h; omega⟩
    rw [reachesSecretWithin, if_pos hsecret, reachesSecret, if_pos hsecret]
  | case3 seen name rest hsecret hmem ih =>
    obtain ⟨steps, rfl⟩ : ∃ n, steps = n + 1 := ⟨steps - 1, by simp at h; omega⟩
    rw [reachesSecretWithin, if_neg hsecret, if_pos hmem, reachesSecret, if_neg hsecret, dif_pos hmem]
    exact ih (by simp at h; omega)
  | case4 seen name rest hsecret hnew hmem ih =>
    obtain ⟨steps, rfl⟩ : ∃ n, steps = n + 1 := ⟨steps - 1, by simp at h; omega⟩
    rw [reachesSecretWithin, if_neg hsecret, if_neg hnew, if_pos hmem, reachesSecret, if_neg hsecret,
      dif_neg hnew, dif_pos hmem]
    have hless := openReferences_cons_add_le hmem hnew
    exact ih (by simp at h ⊢; omega)
  | case5 seen name rest hsecret hnew hmem ih =>
    obtain ⟨steps, rfl⟩ : ∃ n, steps = n + 1 := ⟨steps - 1, by simp at h; omega⟩
    rw [reachesSecretWithin, if_neg hsecret, if_neg hnew, if_neg hmem, reachesSecret, if_neg hsecret,
      dif_neg hnew, dif_neg hmem]
    exact ih (by simp at h; omega)

/-! ### Names and texts -/

/-- Some layer keeps a name secret, or binds it to a variable of a secret kind. -/
def DeclaredSecret (env : Environment) (name : String) : Prop :=
  ∃ layer ∈ env.layers,
    name ∈ layer.secrets ∨ ∃ v, layer.vars.get? name = some v ∧ v.isSecure = true

theorem declaresSecret_iff : env.declaresSecret name = true ↔ env.DeclaredSecret name := by
  simp [declaresSecret, DeclaredSecret, Layer.declaresSecret, Option.any_eq_true]

theorem isSecret_iff_declared :
    env.isSecret name = true ↔ ∃ secret, env.Reaches name secret ∧ env.DeclaredSecret secret := by
  simp only [isSecret_iff, declaresSecret_iff]

/-- **A name is secret if and only if references lead from it to a name declared secret**, itself
perhaps, and a text embeds a secret if and only if it has the placeholder of a secret name. With
cycles or without, the search that decides this ends: it looks at no more names than it is asked
about and the bound names refer to. -/
theorem isSecret_iff_leads (env : Environment) :
    (∀ name, env.isSecret name = true ↔
      ∃ secret, env.Reaches name secret ∧ env.DeclaredSecret secret) ∧
    (∀ text, env.embedsSecret text = true ↔
      ∃ name ∈ Placeholder.names text, env.isSecret name = true) ∧
    (∀ name steps, 1 + env.openReferences [] ≤ steps →
      env.reachesSecretWithin steps [name] [] = some (env.isSecret name)) ∧
    (∀ text steps, (Placeholder.names text).length + env.openReferences [] ≤ steps →
      env.reachesSecretWithin steps (Placeholder.names text) [] = some (env.embedsSecret text)) := by
  refine ⟨fun name => ?_, fun text => ?_, fun name steps h => reachesSecretWithin_eq h,
    fun text steps h => reachesSecretWithin_eq h⟩
  · simp only [isSecret_iff, declaresSecret_iff]
  · simp only [embedsSecret, reachesSecret_iff, isSecret_iff]

end Environment

end Rehearsal
