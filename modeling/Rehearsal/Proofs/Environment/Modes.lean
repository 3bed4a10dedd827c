import Rehearsal.Proofs.Environment.Resolution

/-!
# Strict and deferred resolution

Both modes of resolution take the same walk, and they part at the first placeholder without a value:
strict resolution gives up there, deferred resolution leaves the placeholder and goes on. So whatever
strict resolution comes to, deferred resolution comes to as well, unless it is that a name has no
value (`AgreesUnless`, carried from look-ups to whole values by `Json.traverse_agreesUnless`).

Hence there are three ways in which the two can end (`Environment.resolve_deferred_of_strict`): both
with the same value, both with the same cycle, or strict resolution with a name without a value.
-/

namespace Rehearsal

variable {α β ε : Type}

/-- `y` comes to what `x` comes to, unless `x` fails for a cause that is excused. -/
def AgreesUnless (excused : ε → Prop) (x y : Except ε α) : Prop :=
  (∃ e, x = .error e ∧ excused e) ∨ y = x

namespace AgreesUnless

variable {excused : ε → Prop} {x y : Except ε α}

theorem refl (x : Except ε α) : AgreesUnless excused x x := .inr rfl

theorem map (h : AgreesUnless excused x y) (f : α → β) :
    AgreesUnless excused (x.map f) (y.map f) := by
  rcases h with ⟨e, rfl, he⟩ | rfl
  · exact .inl ⟨e, rfl, he⟩
  · exact .refl _

theorem bind {f g : α → Except ε β} (h : AgreesUnless excused x y)
    (hnext : ∀ a, AgreesUnless excused (f a) (g a)) : AgreesUnless excused (x >>= f) (y >>= g) := by
  rcases h with ⟨e, rfl, he⟩ | rfl
  · exact .inl ⟨e, rfl, he⟩
  · cases y with
    | error e => exact .refl _
    | ok a => exact hnext a

/-- A walk that takes the place of another one agrees with it if every step does. -/
theorem mapM {f g : α → Except ε β} {as : List α} (h : ∀ a ∈ as, AgreesUnless excused (f a) (g a)) :
    AgreesUnless excused (as.mapM f) (as.mapM g) := by
  induction as with
  | nil => exact .refl _
  | cons a as ih =>
    rw [List.mapM_cons, List.mapM_cons]
    refine (h a List.mem_cons_self).bind fun b => ?_
    exact (ih fun a' hmem => h a' (List.mem_cons_of_mem a hmem)).bind fun bs => .refl _

end AgreesUnless

/-! ### Whole values -/

section values

variable {excused : ε → Prop} {f g : String → Except ε (Option Json)}

theorem Placeholder.substitute_agreesUnless {text : String}
    (h : ∀ name ∈ names text, AgreesUnless excused (f name) (g name)) :
    AgreesUnless excused (substitute f text) (substitute g text) := by
  rw [substitute, substitute]
  split
  · next name hpieces => exact (h name (by simp [mem_names_iff, hpieces])).map _
  · refine (AgreesUnless.mapM fun piece hmem => ?_).map _
    cases piece with
    | char c => exact .refl _
    | token name => exact (h name (mem_names_iff.2 hmem)).map _

open Placeholder (substitute) in
/-- If the values of all placeholders agree, so does what a value becomes with them. -/
theorem Json.traverse_agreesUnless {target : Json}
    (h : ∀ name ∈ target.placeholders, AgreesUnless excused (f name) (g name)) :
    AgreesUnless excused (target.traverse (substitute f)) (target.traverse (substitute g)) := by
  induction target using Json.induct with
  | null | bool | int | float => exact .refl _
  | str text => exact Placeholder.substitute_agreesUnless h
  | arr items ih =>
    rw [placeholders_arr] at h
    rw [traverse_arr, traverse_arr]
    refine (AgreesUnless.mapM fun item hmem => ?_).map _
    exact ih item hmem fun name hname => h name (List.mem_flatMap.2 ⟨item, hmem, hname⟩)
  | obj members ih =>
    rw [placeholders_obj] at h
    rw [traverse_obj, traverse_obj]
    refine (AgreesUnless.mapM fun member hmem => ?_).map _
    refine (ih member hmem fun name hname => ?_).map _
    exact h name (List.mem_flatMap.2 ⟨member, hmem, hname⟩)

end values

namespace VariableError

/-- That a name has no value. -/
def IsMissing (e : VariableError) : Prop := ∃ name, e = .missing name

end VariableError

namespace Environment

variable {env : Environment} {target : Json}

/-- A deferred look-up agrees with a strict one that finds all it needs. -/
theorem lookup_agreesUnless (env : Environment) (stack : List String) (name : String) :
    AgreesUnless VariableError.IsMissing (env.lookup .strict stack name)
      (env.lookup .deferred stack name) := by
  induction stack, name using lookup.induct env .strict with
  | case1 stack name hmem =>
    rw [lookup_of_mem hmem, lookup_of_mem hmem]
    exact .refl _
  | case2 stack name hnew hvalue =>
    exact .inl ⟨.missing name, lookup_strict_of_unbound hnew hvalue, name, rfl⟩
  | case3 stack name hnew hvalue hmode => cases hmode
  | case4 stack name hnew value hvalue ih =>
    rw [lookup_of_bound hnew hvalue, lookup_of_bound hnew hvalue]
    exact (Json.traverse_agreesUnless fun next _ => ih next).map some

theorem resolve_agreesUnless (env : Environment) (target : Json) :
    AgreesUnless VariableError.IsMissing (env.resolve .strict target)
      (env.resolve .deferred target) :=
  Json.traverse_agreesUnless fun name _ => env.lookup_agreesUnless [] name

/-- Strict resolution that does not miss a value ends as deferred resolution does. -/
theorem resolve_deferred_eq_strict (h : ∀ name, env.resolve .strict target ≠ .error (.missing name)) :
    env.resolve .deferred target = env.resolve .strict target := by
  rcases env.resolve_agreesUnless target with ⟨e, he, name, rfl⟩ | heq
  · exact absurd he (h name)
  · exact heq

/-- **Deferred resolution extends strict resolution.** It gives the value that strict resolution
gives, and fails with the cycle that strict resolution fails with. Where it gives a value, strict
resolution gives the same one, or it misses the value of a name that the target leads to. -/
theorem resolve_deferred_of_strict (env : Environment) (target : Json) :
    (∀ value, env.resolve .strict target = .ok value →
      env.resolve .deferred target = .ok value ∧ env.resolveDeferred target = value) ∧
    (∀ name, env.resolve .strict target = .error (.circular name) →
      env.resolve .deferred target = .error (.circular name)) ∧
    (∀ value, env.resolve .deferred target = .ok value →
      env.resolve .strict target = .ok value ∨
        ∃ name, env.resolve .strict target = .error (.missing name) ∧
          env.value? name = none ∧ env.ReachedFrom target name) := by
  refine ⟨fun value hvalue => ?_, fun name hcircular => ?_, fun value hvalue => ?_⟩
  · have hdeferred : env.resolve .deferred target = .ok value := by
      rw [resolve_deferred_eq_strict (by rw [hvalue]; nofun), hvalue]
    exact ⟨hdeferred, by rw [resolveDeferred, hdeferred]⟩
  · rw [resolve_deferred_eq_strict (by rw [hcircular]; nofun), hcircular]
  · rcases env.resolve_agreesUnless target with ⟨e, he, name, rfl⟩ | heq
    · -- The failure says of which name that is reached the value is missing.
      obtain ⟨next, hreached, hobstacle⟩ := exists_obstacle_of_resolve he
      cases hobstacle with
      | missing _ hnone => exact .inr ⟨name, he, hnone, hreached⟩
    · exact .inl (heq.symm.trans hvalue)

/-- A variable whose value refers to a name that is not bound. -/
def dangling : Environment :=
  { inner := ({} : Layer).set "url" (.string (Placeholder.token "host")) }

theorem resolve_dangling (mode : ResolveMode) :
    dangling.resolve mode (.str (Placeholder.token "url")) =
      (dangling.lookup mode ["url"] "host").map fun value =>
        value.getD (.str (Placeholder.token "host")) := by
  have hurl : dangling.value? "url" = some (.str (Placeholder.token "host")) := rfl
  rw [resolve_token_of_bound (by decide) hurl, resolveOn, Json.traverse,
    Placeholder.substitute_token (by decide)]

/-- Deferred resolution gives the value of the variable, and strict resolution fails with the name
that it refers to. -/
theorem resolve_deferred_dangling :
    dangling.resolve .deferred (.str (Placeholder.token "url")) =
        .ok (.str (Placeholder.token "host")) ∧
      ∃ name, dangling.resolve .strict (.str (Placeholder.token "url")) = .error (.missing name) ∧
        dangling.value? name = none ∧
        dangling.ReachedFrom (.str (Placeholder.token "url")) name := by
  have hhost : dangling.value? "host" = none := rfl
  have hdeferred : dangling.resolve .deferred (.str (Placeholder.token "url")) =
      .ok (.str (Placeholder.token "host")) := by
    rw [resolve_dangling, lookup_deferred_of_unbound (by decide) hhost]
    rfl
  obtain ⟨-, -, hmissing⟩ := resolve_deferred_of_strict dangling (.str (Placeholder.token "url"))
  refine ⟨hdeferred, (hmissing _ hdeferred).resolve_left ?_⟩
  rw [resolve_dangling, lookup_strict_of_unbound (by decide) hhost]
  nofun

end Environment

end Rehearsal
