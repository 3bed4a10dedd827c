import Rehearsal.Proofs.Compile.Scopes

/-!
# How declarations grow, exactly

`Declarations.Gains` says which names a scope has come to declare and to demand, and no others. A
scope that is compiled next to others demands a name only if none of them does, so the demands are
those of all of them together (`Declarations.Demanded`).

* `Declarations.Gains.foldlM`: what a walk along a list gains;
* `Compile.gains_declareAll`: the declarations of a draft, and the texts that it leaves open.
-/

namespace Rehearsal

/-! ### Exact growth -/

namespace Declarations

variable {around : List Declarations} {scope scope' scope'' : Declarations}
  {sets sets' wants wants' : String → Prop}

theorem nodup_appendNew {names : List String} (h : names.Nodup) (name : String) :
    (appendNew names name).Nodup := by
  rw [appendNew]
  split
  · exact h
  · next hnew =>
    rw [List.contains_iff_mem] at hnew
    refine List.nodup_append.2 ⟨h, List.pairwise_singleton _ name, fun other hmem _ hlast heq => hnew ?_⟩
    rwa [← List.mem_singleton.1 hlast, ← heq]

/-- A scope or one around it demands a name from outside. -/
def Demanded (around : List Declarations) (scope : Declarations) (name : String) : Prop :=
  name ∈ scope.required ∨ ∃ other ∈ around, name ∈ other.required

theorem demanded_nil {name : String} : Demanded [] scope name ↔ name ∈ scope.required :=
  or_iff_left nofun

theorem demanded_require {name other : String} :
    Demanded around (scope.require name) other ↔ Demanded around scope other ∨ other = name := by
  rw [Demanded, mem_required_require, Demanded, or_right_comm]

/-- One scope has grown out of another: besides what that one declared it declares what is set, and
besides what that one or the scopes around it demanded what is wanted is demanded. No name is
demanded twice. -/
structure Gains (around : List Declarations) (sets wants : String → Prop)
    (scope scope' : Declarations) : Prop where
  declared : ∀ name, scope'.contains name = true ↔ scope.contains name = true ∨ sets name
  demanded : ∀ name, Demanded around scope' name ↔ Demanded around scope name ∨ wants name
  nodup : scope.required.Nodup → scope'.required.Nodup

namespace Gains

theorem refl (around : List Declarations) (scope : Declarations) :
    Gains around (fun _ => False) (fun _ => False) scope scope :=
  ⟨fun _ => (or_iff_left not_false).symm, fun _ => (or_iff_left not_false).symm, id⟩

theorem trans (h : Gains around sets wants scope scope') (h' : Gains around sets' wants' scope' scope'') :
    Gains around (fun name => sets name ∨ sets' name) (fun name => wants name ∨ wants' name)
      scope scope'' where
  declared name := by rw [h'.declared, h.declared, or_assoc]
  demanded name := by rw [h'.demanded, h.demanded, or_assoc]
  nodup := h'.nodup ∘ h.nodup

theorem congr (h : Gains around sets wants scope scope') (hsets : ∀ name, sets name ↔ sets' name)
    (hwants : ∀ name, wants name ↔ wants' name) : Gains around sets' wants' scope scope' where
  declared name := by rw [h.declared, hsets]
  demanded name := by rw [h.demanded, hwants]
  nodup := h.nodup

/-- The demands of a scope further in are demands of the scope once it has them itself. -/
theorem of_cons {inner : Declarations} (h : Gains (inner :: around) sets wants scope scope')
    (hinner : ∀ name ∈ inner.required, name ∈ scope'.required) :
    Gains around sets (fun name => name ∈ inner.required ∨ wants name) scope scope' where
  declared := h.declared
  demanded name := by
    have hcons (scope : Declarations) : Demanded (inner :: around) scope name ↔
        name ∈ inner.required ∨ Demanded around scope name := by
      rw [Demanded, List.exists_mem_cons_iff, or_left_comm, Demanded]
    have hinner' : name ∈ inner.required → Demanded around scope' name :=
      fun hmem => .inl (hinner name hmem)
    have hdemanded := h.demanded name
    rw [hcons, hcons, or_iff_right_of_imp hinner'] at hdemanded
    rw [hdemanded, or_assoc, or_left_comm]
  nodup := h.nodup

theorem require (around : List Declarations) (scope : Declarations) (name : String) :
    Gains around (fun _ => False) (· = name) scope (scope.require name) where
  declared _ := (or_iff_left not_false).symm
  demanded _ := demanded_require
  nodup h := nodup_appendNew h name

theorem declare (around : List Declarations) (scope : Declarations) (name : String) (v : Variable) :
    Gains around (· = name) (fun _ => False) scope (scope.declare name v) where
  declared other := by
    rw [contains, Declarations.declare, Dict.contains_insert, contains, or_comm]
  demanded _ := (or_iff_left not_false).symm
  nodup := id

theorem declareOutput (around : List Declarations) (scope : Declarations) (name : String)
    (kind : VariableKind) :
    Gains around (· = name) (fun _ => False) scope (scope.declareOutput name kind) := by
  have hdeclared : Gains around (· = name) (fun _ => False) scope
      (if scope.contains name then scope else scope.declare name (.placeholder kind)) := by
    split
    · next hcontains =>
      refine ⟨fun other => ⟨.inl, fun h => h.elim id fun heq => ?_⟩, fun _ => (or_iff_left not_false).symm, id⟩
      exact heq ▸ hcontains
    · exact declare around scope name _
  rw [Declarations.declareOutput]
  split
  · exact ⟨hdeclared.declared, hdeclared.demanded, hdeclared.nodup⟩
  · exact hdeclared

variable {α : Type} {setsOf wantsOf : α → String → Prop} {as : List α}

/-- A walk along a list gains what its steps gain. -/
theorem foldlM {ε : Type} {f : Declarations → α → Except ε Declarations}
    (h : as.foldlM f scope = .ok scope')
    (hstep : ∀ a ∈ as, ∀ scope scope', f scope a = .ok scope' →
      Gains around (setsOf a) (wantsOf a) scope scope') :
    Gains around (fun name => ∃ a ∈ as, setsOf a name) (fun name => ∃ a ∈ as, wantsOf a name)
      scope scope' := by
  induction as generalizing scope with
  | nil =>
    cases h
    exact (refl around _).congr (fun _ => by simp) fun _ => by simp
  | cons a as ih =>
    rw [List.foldlM_cons] at h
    obtain ⟨next, hnext, hrest⟩ := exists_of_bind_eq_ok h
    have hfirst := hstep a List.mem_cons_self scope next hnext
    have hothers := ih hrest fun a' hmem => hstep a' (List.mem_cons_of_mem a hmem)
    exact (hfirst.trans hothers).congr (fun _ => by rw [List.exists_mem_cons_iff])
      fun _ => by rw [List.exists_mem_cons_iff]

theorem foldl {f : Declarations → α → Declarations}
    (h : ∀ a ∈ as, ∀ scope, Gains around (setsOf a) (wantsOf a) scope (f scope a)) :
    Gains around (fun name => ∃ a ∈ as, setsOf a name) (fun name => ∃ a ∈ as, wantsOf a name)
      scope (as.foldl f scope) := by
  have hwalk : as.foldlM (fun scope a => pure (f scope a)) scope =
      (.ok (as.foldl f scope) : Except Unit Declarations) := List.foldlM_pure
  refine foldlM hwalk fun a hmem scope scope' heq => ?_
  cases heq
  exact h a hmem scope

theorem requireAll (around : List Declarations) (scope : Declarations) (names : List String) :
    Gains around (fun _ => False) (· ∈ names) scope (names.foldl Declarations.require scope) := by
  refine (foldl fun name _ scope => require around scope name).congr (fun _ => by simp) fun name => ?_
  rw [exists_eq_right']

/-- Declaring the outputs of a step sets their names. -/
theorem declareOutputs (around : List Declarations) (scope : Declarations) (kind : α → VariableKind)
    (outputs : Dict α) :
    Gains around (outputs.contains · = true) (fun _ => False) scope
      (outputs.entries.foldl (fun owner entry => owner.declareOutput entry.1 (kind entry.2)) scope) := by
  refine (foldl fun entry _ scope => declareOutput around scope entry.1 _).congr (fun name => ?_)
    fun _ => by simp
  exact Dict.contains_iff.symm

end Gains

end Declarations

/-- An author declares a name as an open text. -/
def Draft.LeavesOpen (vars : Dict Declaration) (name : String) : Prop :=
  ∃ secure, vars.get? name = some (.full (.text secure {}))

theorem Draft.leavesOpen_iff {vars : Dict Declaration} {name : String} :
    LeavesOpen vars name ↔ ∃ entry ∈ vars.entries, name = entry.1 ∧ entry.2.toVariable.IsOpen := by
  constructor
  · rintro ⟨secure, hget⟩
    exact ⟨_, Dict.mem_entries_iff.2 hget, rfl, secure, rfl⟩
  · rintro ⟨⟨_, declaration⟩, hmem, rfl, secure, hopen⟩
    refine ⟨secure, (Dict.mem_entries_iff.1 hmem).trans (congrArg some ?_)⟩
    cases declaration with
    | brief value => cases hopen
    | full v => exact congrArg _ hopen

namespace Compile

open Declarations

variable {around ancestors : List Declarations} {scope scope' : Declarations}

theorem gains_secured (around : List Declarations) (scope : Declarations) (name : String)
    (v : Variable) :
    Gains around (fun _ => False) (fun _ => False) scope (scope.secured name v) := by
  rw [secured]
  split
  · exact ⟨(Gains.refl around scope).declared, (Gains.refl around scope).demanded, id⟩
  · exact .refl around scope

/-- A scope gains the variable that it declares, and demands it if it is an open text. -/
theorem gains_declareOne {name : String} {v : Variable}
    (h : declareOne ancestors scope name v = .ok scope') :
    Gains around (· = name) (fun other => other = name ∧ v.IsOpen) scope scope' := by
  have hsecured := gains_secured around scope name v
  cases declares_of_declareOne h with
  | opened hopen =>
    exact ((hsecured.trans (.require around _ name)).trans (.declare around _ name v)).congr
      (fun _ => by simp) fun _ => by simp [hopen]
  | closed hopen _ =>
    exact (hsecured.trans (.declare around _ name _)).congr (fun _ => by rw [false_or])
      fun _ => by simp [hopen]

/-- The declarations of a draft are what its author declares, and demand what is left open. -/
theorem gains_declareAll {vars : Dict Declaration} (h : declareAll ancestors vars = .ok scope) :
    Gains [] (vars.contains · = true) (Draft.LeavesOpen vars) {} scope := by
  refine (Gains.foldlM h fun entry _ _ _ => gains_declareOne).congr (fun name => ?_) fun name => ?_
  · exact Dict.contains_iff.symm
  · exact Draft.leavesOpen_iff.symm

theorem contains_declareAll {vars : Dict Declaration} (h : declareAll ancestors vars = .ok scope)
    (name : String) : scope.contains name = true ↔ vars.contains name = true :=
  ((gains_declareAll h).declared name).trans (or_iff_right nofun)

theorem required_declareAll {vars : Dict Declaration} (h : declareAll ancestors vars = .ok scope)
    (name : String) : name ∈ scope.required ↔ Draft.LeavesOpen vars name := by
  rw [← demanded_nil, (gains_declareAll h).demanded, demanded_nil]
  exact or_iff_right List.not_mem_nil

/-- The declarations of a draft know what its author declares. -/
theorem contains_of_declareAll {vars : Dict Declaration} (h : declareAll ancestors vars = .ok scope)
    {name : String} (hknows : scope.Knows name) : vars.contains name = true := by
  rcases hknows with hcontains | hrequired
  · exact (contains_declareAll h name).1 hcontains
  · obtain ⟨secure, hget⟩ := (required_declareAll h name).1 hrequired
    rw [Dict.contains, hget]
    rfl

end Compile

end Rehearsal
