import Rehearsal.Compile.Scopes
import Rehearsal.Proofs.Dict
import Rehearsal.Proofs.Environment.Patches
import Rehearsal.Proofs.Walk

/-!
# How declarations grow

While steps are compiled their owner only gains: what it demands it demands for good, and it
declares no more than what these steps set (`Declarations.Grows`). A variable of a draft is stored
under its name, and nothing else happens to the scope that declares it but that its name may be
demanded or become secret (`Compile.declares_of_declareOne`).
-/

namespace Rehearsal

namespace Declarations

variable {scope scope' scope'' : Declarations} {sets sets' : String → Prop}

theorem get?_declare (scope : Declarations) (name other : String) (v : Variable) :
    (scope.declare name v).get? other = if other = name then some v else scope.get? other :=
  Dict.get?_insert ..

theorem mem_appendNew {names : List String} {name other : String} :
    other ∈ appendNew names name ↔ other ∈ names ∨ other = name := by
  rw [appendNew]
  split
  · next hmem =>
    refine ⟨.inl, fun h => h.elim id fun heq => ?_⟩
    exact heq ▸ List.contains_iff_mem.1 hmem
  · rw [List.mem_append, List.mem_singleton]

theorem mem_required_require {name other : String} :
    other ∈ (scope.require name).required ↔ other ∈ scope.required ∨ other = name :=
  mem_appendNew

theorem mem_required_foldl_require {names : List String} {name : String} :
    name ∈ (names.foldl require scope).required ↔ name ∈ scope.required ∨ name ∈ names := by
  induction names generalizing scope with
  | nil => simp
  | cons other names ih =>
    rw [List.foldl_cons, ih, mem_required_require, List.mem_cons, or_assoc]

/-- A name is known to a scope: it is declared, or demanded from outside. -/
def Knows (scope : Declarations) (name : String) : Prop :=
  scope.contains name = true ∨ name ∈ scope.required

/-- One scope has grown out of another: it demands what that one demanded, and besides what that one
declared it declares names that are set. -/
structure Grows (sets : String → Prop) (scope scope' : Declarations) : Prop where
  required : ∀ name ∈ scope.required, name ∈ scope'.required
  declared : ∀ name, scope'.contains name = true → scope.contains name = true ∨ sets name

namespace Grows

theorem refl (sets : String → Prop) (scope : Declarations) : Grows sets scope scope :=
  ⟨fun _ h => h, fun _ h => .inl h⟩

theorem trans (h : Grows sets scope scope') (h' : Grows sets scope' scope'') :
    Grows sets scope scope'' where
  required name hname := h'.required name (h.required name hname)
  declared name hname := (h'.declared name hname).elim (h.declared name) .inr

theorem mono (h : Grows sets scope scope') (hsets : ∀ name, sets name → sets' name) :
    Grows sets' scope scope' where
  required := h.required
  declared name hname := (h.declared name hname).imp_right (hsets name)

theorem require (sets : String → Prop) (scope : Declarations) (name : String) :
    Grows sets scope (scope.require name) where
  required _ hmem := mem_required_require.2 (.inl hmem)
  declared _ h := .inl h

theorem markSecret (sets : String → Prop) (scope : Declarations) (name : String) :
    Grows sets scope (scope.markSecret name) :=
  ⟨fun _ h => h, fun _ h => .inl h⟩

theorem declare (scope : Declarations) {name : String} (v : Variable) (h : sets name) :
    Grows sets scope (scope.declare name v) where
  required _ hmem := hmem
  declared other hother := by
    rw [contains, Declarations.declare, Dict.contains_insert] at hother
    rcases hother with rfl | hother
    · exact .inr h
    · exact .inl hother

theorem declareOutput (scope : Declarations) {name : String} (kind : VariableKind) (h : sets name) :
    Grows sets scope (scope.declareOutput name kind) := by
  have hdeclared : Grows sets scope
      (if scope.contains name then scope else scope.declare name (.placeholder kind)) := by
    split
    · exact refl sets scope
    · exact declare scope _ h
  rw [Declarations.declareOutput]
  split
  · exact hdeclared.trans (markSecret sets _ name)
  · exact hdeclared

theorem foldl {α : Type} {f : Declarations → α → Declarations} {as : List α}
    (h : ∀ a ∈ as, ∀ scope, Grows sets scope (f scope a)) (scope : Declarations) :
    Grows sets scope (as.foldl f scope) := by
  induction as generalizing scope with
  | nil => exact refl sets scope
  | cons a as ih =>
    exact (h a List.mem_cons_self scope).trans
      (ih (fun a' hmem => h a' (List.mem_cons_of_mem a hmem)) (f scope a))

end Grows

end Declarations

/-! ### Declaring one variable -/

/-- A text is open: it has neither a value nor a stem. -/
def Variable.IsOpen (v : Variable) : Prop := ∃ secure, v = .text secure {}

/-- Makes a name secret if the variable that it is declared as has a secret kind. -/
def Declarations.secured (scope : Declarations) (name : String) (v : Variable) : Declarations :=
  if v.isSecure then scope.markSecret name else scope

theorem Declarations.get?_secured (scope : Declarations) (name : String) (v : Variable)
    (other : String) : (scope.secured name v).get? other = scope.get? other := by
  rw [secured]
  split <;> rfl

namespace Compile

variable {around : List Declarations} {scope scope' : Declarations} {name : String} {v : Variable}

/-- What a variable of a draft is stored as: as it is declared, unless it has patches and no value. -/
inductive Stored (around : List Declarations) (name : String) (v : Variable) : Variable → Prop
  /-- The variable is stored as it is. -/
  | plain (hpending : v.pendingPatches? = none) : Stored around name v v
  /-- The variable is stored with its patched value, if there is one. -/
  | inherited {patches : List Json} {found : Option Json} (hpending : v.pendingPatches? = some patches)
      (hfound : inheritedValue around name patches = .ok found) :
      Stored around name v (found.elim v v.withValue)

theorem Stored.isSecure {stored : Variable} (h : Stored around name v stored) :
    stored.isSecure = v.isSecure := by
  cases h with
  | plain => rfl
  | @inherited patches found =>
    cases found with
    | none => rfl
    | some value => exact Variable.isSecure_withValue v value

/-- What becomes of a scope that declares a variable. -/
inductive Declares (around : List Declarations) (scope : Declarations) (name : String)
    (v : Variable) : Declarations → Prop
  /-- A text that is left open is demanded from outside. -/
  | opened (hopen : v.IsOpen) :
      Declares around scope name v (((scope.secured name v).require name).declare name v)
  /-- Any other variable is only stored. -/
  | closed {stored : Variable} (hopen : ¬ v.IsOpen) (hstored : Stored around name v stored) :
      Declares around scope name v ((scope.secured name v).declare name stored)

theorem declares_of_declareOne (h : declareOne around scope name v = .ok scope') :
    Declares around scope name v scope' := by
  change (if v.hasValue then .ok ((scope.secured name v).declare name v)
    else declareValueless around (scope.secured name v) name v) = .ok scope' at h
  split at h
  · next hvalue =>
    cases h
    refine .closed ?_ (.plain ?_)
    · rintro ⟨secure, rfl⟩
      cases hvalue
    · obtain ⟨value, hvalue⟩ := Option.isSome_iff_exists.1 hvalue
      exact Variable.pendingPatches?_of_value? hvalue
  unfold declareValueless at h
  split at h
  · next secure parts hvalue =>
    obtain ⟨value, stem⟩ := parts
    cases value with
    | some value => exact absurd rfl hvalue
    | none =>
      cases h
      cases stem with
      | none => exact .opened ⟨secure, rfl⟩
      | some stem => exact .closed (fun ⟨_, hopen⟩ => by cases hopen) (.plain rfl)
  · next kind value patches hnone =>
    obtain ⟨found, hfound, h⟩ := exists_of_bind_eq_ok h
    cases value with
    | some value => exact absurd rfl hnone
    | none =>
      have hstored := Stored.inherited (v := .container kind { patches := some patches }) rfl hfound
      cases found <;> cases h <;> exact .closed (fun ⟨_, hopen⟩ => by cases hopen) hstored
  · cases h

end Compile

namespace Scopes

variable {scopes : Scopes} {name : String}

/-- A name is known to one of the scopes that a step sees. -/
def Knows (scopes : Scopes) (name : String) : Prop := ∃ scope ∈ scopes.chain, scope.Knows name

theorem isDeclared_iff : scopes.isDeclared name = true ↔ scopes.Knows name := by
  rw [isDeclared, Bool.or_eq_true, get?, List.findSome?_isSome_iff, isRequired, List.any_eq_true,
    Knows]
  constructor
  · rintro (⟨scope, hmem, hsome⟩ | ⟨scope, hmem, hrequired⟩)
    · exact ⟨scope, hmem, .inl hsome⟩
    · exact ⟨scope, hmem, .inr (List.contains_iff_mem.1 hrequired)⟩
  · rintro ⟨scope, hmem, hsome | hrequired⟩
    · exact .inl ⟨scope, hmem, hsome⟩
    · exact .inr ⟨scope, hmem, List.contains_iff_mem.2 hrequired⟩

end Scopes

end Rehearsal
