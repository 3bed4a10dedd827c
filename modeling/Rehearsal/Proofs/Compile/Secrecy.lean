import Mathlib.Logic.Relation
import Rehearsal.Proofs.Compile.Stable

/-!
# What compilation knows to be secret

The compiler looks up a name in the lists of secret names, and the kind of its innermost
declaration. It misses no variable of a secret kind that an inner declaration hides: a scope that
declares one lists its name (`Declarations.ListsSecure`), and keeps doing so while steps are
compiled. So the look-up finds the names that some scope declares secret
(`Scopes.isSecret_iff_declaredSecret`), but none that only leads to such a name.
-/

namespace Rehearsal

namespace Declarations

variable {scope scope' : Declarations} {name other : String}

theorem mem_secrets_markSecret :
    other ∈ (scope.markSecret name).secrets ↔ other ∈ scope.secrets ∨ other = name :=
  mem_appendNew

/-- Every variable of a secret kind is on the list of secret names. -/
def ListsSecure (scope : Declarations) : Prop :=
  ∀ name v, scope.get? name = some v → v.isSecure = true → name ∈ scope.secrets

namespace ListsSecure

theorem empty : ListsSecure {} := fun _ _ hget => nomatch hget

theorem require (h : scope.ListsSecure) (name : String) : (scope.require name).ListsSecure := h

theorem markSecret (h : scope.ListsSecure) (name : String) : (scope.markSecret name).ListsSecure :=
  fun other v hget hsecure => mem_secrets_markSecret.2 (.inl (h other v hget hsecure))

theorem declare (h : scope.ListsSecure) {v : Variable}
    (hname : v.isSecure = true → name ∈ scope.secrets) : (scope.declare name v).ListsSecure := by
  intro other w hget hsecure
  rw [get?_declare] at hget
  split at hget
  · next heq =>
    cases hget
    rw [heq]
    exact hname hsecure
  · exact h other w hget hsecure

theorem secured (h : scope.ListsSecure) (name : String) (v : Variable) :
    (scope.secured name v).ListsSecure := by
  rw [Declarations.secured]
  split
  · exact h.markSecret name
  · exact h

theorem declareSecure (h : scope.ListsSecure) (name : String) (v : Variable) :
    ((scope.markSecret name).declare name v).ListsSecure :=
  (h.markSecret name).declare fun _ => mem_secrets_markSecret.2 (.inr rfl)

theorem declareOutput (h : scope.ListsSecure) (name : String) (kind : VariableKind) :
    (scope.declareOutput name kind).ListsSecure := by
  have hkind : (Variable.placeholder kind).isSecure = kind.isSecure := by cases kind <;> rfl
  rw [Declarations.declareOutput]
  split
  · -- A name of a secret kind is listed whether or not it was declared before.
    by_cases hcontains : scope.contains name = true
    · rw [if_pos hcontains]
      exact h.markSecret name
    · rw [if_neg hcontains]
      exact h.declareSecure name (.placeholder kind)
  · next hplain =>
    by_cases hcontains : scope.contains name = true
    · rw [if_pos hcontains]
      exact h
    · rw [if_neg hcontains]
      exact h.declare fun hsecure => absurd (hkind ▸ hsecure) hplain

/-- The names on the list stay there while steps are compiled. -/
theorem stable : Stable ListsSecure where
  require h name := h.require name
  declareOutput h name kind := h.declareOutput name kind

end ListsSecure

end Declarations

namespace Compile

open Declarations (ListsSecure)

variable {around : List Declarations} {scope scope' : Declarations}

/-! ### The declarations of a draft -/

theorem listsSecure_declareOne {name : String} {v : Variable} (hscope : scope.ListsSecure)
    (h : declareOne around scope name v = .ok scope') : scope'.ListsSecure := by
  have hsecured := hscope.secured name v
  have hname : v.isSecure = true → name ∈ (scope.secured name v).secrets := by
    intro hsecure
    rw [Declarations.secured, if_pos hsecure]
    exact Declarations.mem_secrets_markSecret.2 (.inr rfl)
  cases declares_of_declareOne h with
  | opened => exact (hsecured.require name).declare hname
  | closed _ hstored => exact hsecured.declare fun hsecure => hname (hstored.isSecure ▸ hsecure)

theorem listsSecure_declareAll {vars : Dict Declaration} (h : declareAll around vars = .ok scope) :
    scope.ListsSecure :=
  foldlM_keeps h ListsSecure.empty fun _ _ _ _ hnext hbefore => listsSecure_declareOne hbefore hnext

theorem listsSecure_definitionScope {kind : ScopeKind} {vars : Dict Declaration}
    (h : definitionScope kind vars = .ok scope) : scope.ListsSecure := by
  rw [definitionScope] at h
  cases hvars : declareAll [] vars with
  | error e => rw [hvars] at h; cases h
  | ok declared =>
    rw [hvars] at h
    cases h
    exact ListsSecure.stable.requireAll (listsSecure_declareAll hvars) kind.impliedRequirements

theorem listsSecure_steps {setting : Setting} {phase : Phase} {outer : Option Declarations}
    {owner : Declarations} {label : String} {taken : List String} {index : Nat}
    {drafts : List Draft.Step} {batch : Batch} (howner : owner.ListsSecure)
    (h : steps setting phase outer label index taken owner drafts = .ok batch) :
    batch.owner.ListsSecure :=
  ListsSecure.stable.steps howner h

end Compile

/-! ### What is found -/

namespace Scopes

variable {scopes : Scopes} {name : String}

/-- Some scope lists a name as secret, or declares it as a variable of a secret kind, even if
another declaration hides that one. -/
def DeclaredSecret (scopes : Scopes) (name : String) : Prop :=
  ∃ scope ∈ scopes.chain, name ∈ scope.secrets ∨ ∃ v, scope.get? name = some v ∧ v.isSecure = true

/-- The value that the innermost declaration of `a` gives it has a placeholder of `b`. -/
def Refers (scopes : Scopes) (a b : String) : Prop :=
  ∃ value, scopes.get? a >>= Variable.value? = some value ∧ b ∈ value.placeholders

/-- `b` is `a`, or declared values lead from `a` to it. -/
def Reaches (scopes : Scopes) : String → String → Prop := Relation.ReflTransGen scopes.Refers

/-- A name is declared secret, or declared values lead from it to a name that is. -/
def Secret (scopes : Scopes) (name : String) : Prop :=
  ∃ other, scopes.Reaches name other ∧ scopes.DeclaredSecret other

theorem isSecret_iff_declaredSecret (h : ∀ scope ∈ scopes.chain, scope.ListsSecure) :
    scopes.isSecret name = true ↔ scopes.DeclaredSecret name := by
  rw [isSecret, Bool.or_eq_true, List.any_eq_true]
  constructor
  · rintro (⟨scope, hmem, hlisted⟩ | hinnermost)
    · exact ⟨scope, hmem, .inl (List.contains_iff_mem.1 hlisted)⟩
    · obtain ⟨v, hget, hsecure⟩ := (Option.any_eq_true _ _).1 hinnermost
      obtain ⟨scope, hmem, hscope⟩ := List.exists_of_findSome?_eq_some hget
      exact ⟨scope, hmem, .inr ⟨v, hscope, hsecure⟩⟩
  · rintro ⟨scope, hmem, hlisted | ⟨v, hget, hsecure⟩⟩
    · exact .inl ⟨scope, hmem, List.contains_iff_mem.2 hlisted⟩
    · exact .inl ⟨scope, hmem, List.contains_iff_mem.2 (h scope hmem name v hget hsecure)⟩

end Scopes

end Rehearsal
