import Mathlib.Data.List.Basic

/-!
# Walks that may fail

Facts about `List.mapM` where each item may fail: what a walk that succeeds leaves
(`map_eq_of_mapM_eq_ok`), how a walk depends on the values that its items ask for (`Follows`), and
that errors may be renamed before a walk or after it (`mapM_mapError`). A walk by `List.foldlM` that
succeeds keeps what each of its steps keeps (`foldlM_keeps`).
-/

namespace Rehearsal

variable {α β γ ε ε' : Type}

theorem exists_of_bind_eq_ok {x : Except ε α} {f : α → Except ε β} {b : β} (h : x >>= f = .ok b) :
    ∃ a, x = .ok a ∧ f a = .ok b := by
  cases x with
  | error e => cases h
  | ok a => exact ⟨a, rfl, h⟩

theorem exists_of_map_eq_ok {x : Except ε α} {f : α → β} {b : β} (h : x.map f = .ok b) :
    ∃ a, x = .ok a ∧ f a = b := by
  cases x with
  | error e => cases h
  | ok a => exact ⟨a, rfl, Except.ok.inj h⟩

theorem exists_ok_of_any {x : Except ε α} {p : α → Bool} (h : x.toOption.any p = true) :
    ∃ a, x = .ok a ∧ p a = true := by
  cases x with
  | error e => cases h
  | ok a => exact ⟨a, rfl, h⟩

/-- Whether something succeeds with a value and a state that a test accepts. -/
def okAnd {σ : Type} (x : Except ε α × σ) (p : α → σ → Bool) : Bool := x.1.toOption.any (p · x.2)

theorem exists_of_okAnd {σ : Type} {x : Except ε α × σ} {p : α → σ → Bool} (h : okAnd x p = true) :
    ∃ a s, x = (.ok a, s) ∧ p a s = true := by
  obtain ⟨a, hok, hp⟩ := exists_ok_of_any h
  exact ⟨a, x.2, Prod.ext hok rfl, hp⟩

theorem eq_some_of_elim_eq_ok {a? : Option α} {a : α} {e : ε}
    (h : a?.elim (.error e) .ok = (.ok a : Except ε α)) : a? = some a := by
  cases a? with
  | none => cases h
  | some b => rw [Except.ok.inj h]

theorem eq_ok_of_mapError_eq_ok {x : Except ε α} {f : ε → ε'} {a : α} (h : x.mapError f = .ok a) :
    x = .ok a := by
  cases x with
  | error e => cases h
  | ok b => rw [Except.ok.inj h]

theorem eq_ok_of_map_eq_ok {x : Except ε α} {f : α → β} (hf : ∀ a b, f a = f b → a = b) {a : α}
    (h : x.map f = .ok (f a)) : x = .ok a := by
  cases x with
  | error e => cases h
  | ok b => rw [hf b a (Except.ok.inj h)]

theorem foldlM_keeps {P : β → Prop} {f : β → α → Except ε β} {as : List α} {b b' : β}
    (h : as.foldlM f b = .ok b') (hb : P b)
    (keeps : ∀ a ∈ as, ∀ b b', f b a = .ok b' → P b → P b') : P b' := by
  induction as generalizing b with
  | nil => cases h; exact hb
  | cons a as ih =>
    rw [List.foldlM_cons] at h
    obtain ⟨next, hnext, hrest⟩ := exists_of_bind_eq_ok h
    exact ih hrest (keeps a List.mem_cons_self b next hnext hb) fun a' hmem =>
      keeps a' (List.mem_cons_of_mem a hmem)

theorem map_eq_of_mapM_eq_ok {f : α → Except ε β} {as : List α} {bs : List β}
    (h : as.mapM f = .ok bs) : as.map f = bs.map .ok := by
  induction as generalizing bs with
  | nil => cases h; rfl
  | cons a as ih =>
    rw [List.mapM_cons] at h
    cases ha : f a with
    | error e => rw [ha] at h; cases h
    | ok b =>
      cases hrest : as.mapM f with
      | error e => rw [ha, hrest] at h; cases h
      | ok bs' =>
        rw [ha, hrest] at h
        cases h
        rw [List.map_cons, List.map_cons, ha, ih hrest]

theorem mapM_eq_ok_self {f : α → Except ε α} {as : List α} (h : ∀ a ∈ as, f a = .ok a) :
    as.mapM f = .ok as := by
  induction as with
  | nil => rfl
  | cons a as ih =>
    rw [List.mapM_cons, h a List.mem_cons_self, ih fun a' hmem => h a' (List.mem_cons_of_mem a hmem)]
    rfl

theorem eq_ok_of_mapM_eq_self {f : α → Except ε α} {as : List α} (h : as.mapM f = .ok as) {a : α}
    (ha : a ∈ as) : f a = .ok a :=
  List.map_inj_left.1 (map_eq_of_mapM_eq_ok h) a ha

theorem exists_mem_of_mem_mapM {f : α → Except ε β} {as : List α} {bs : List β}
    (h : as.mapM f = .ok bs) {b : β} (hb : b ∈ bs) : ∃ a ∈ as, f a = .ok b := by
  have hmem : (.ok b : Except ε β) ∈ bs.map .ok := List.mem_map_of_mem hb
  rw [← map_eq_of_mapM_eq_ok h] at hmem
  exact List.mem_map.1 hmem

theorem exists_mem_mapM_of_mem {f : α → Except ε β} {as : List α} {bs : List β}
    (h : as.mapM f = .ok bs) {a : α} (ha : a ∈ as) : ∃ b ∈ bs, f a = .ok b := by
  have hmem : f a ∈ as.map f := List.mem_map_of_mem ha
  rw [map_eq_of_mapM_eq_ok h] at hmem
  obtain ⟨b, hb, heq⟩ := List.mem_map.1 hmem
  exact ⟨b, hb, heq.symm⟩

/-- What every step of a walk leaves as it was is the same in what the walk makes. -/
theorem map_eq_map_of_mapM {f : α → Except ε β} {g : α → γ} {g' : β → γ} {as : List α} {bs : List β}
    (h : as.mapM f = .ok bs) (hg : ∀ a b, f a = .ok b → g' b = g a) : bs.map g' = as.map g := by
  induction as generalizing bs with
  | nil => cases h; rfl
  | cons a as ih =>
    rw [List.mapM_cons] at h
    obtain ⟨b, hb, h⟩ := exists_of_bind_eq_ok h
    obtain ⟨rest, hrest, h⟩ := exists_of_bind_eq_ok h
    cases h
    rw [List.map_cons, List.map_cons, hg a b hb, ih hrest]

/-! ### Results that depend on the values of names -/

/-- The result of asking for the values of some names: a success if all were found, and else the
failure of one of them. -/
def Follows (value : String → Except ε α) (names : List String) : Except ε β → Prop
  | .ok _ => ∀ name ∈ names, ∃ found, value name = .ok found
  | .error e => ∃ name ∈ names, value name = .error e

namespace Follows

variable {value : String → Except ε α} {names others : List String}

theorem single (name : String) (f : α → β) : Follows value [name] ((value name).map f) := by
  cases h : value name with
  | error e => exact ⟨name, List.mem_singleton_self name, h⟩
  | ok found => exact fun other hmem => ⟨found, List.mem_singleton.1 hmem ▸ h⟩

theorem map {result : Except ε β} (h : Follows value names result) (f : β → γ) :
    Follows value names (result.map f) := by
  cases result <;> exact h

theorem append {result : Except ε β} {next : β → Except ε γ} (h : Follows value names result)
    (hnext : ∀ b, result = .ok b → Follows value others (next b)) :
    Follows value (names ++ others) (result >>= next) := by
  cases result with
  | error e =>
    obtain ⟨name, hmem, he⟩ := h
    exact ⟨name, List.mem_append_left others hmem, he⟩
  | ok b =>
    have hb := hnext b rfl
    change Follows value (names ++ others) (next b)
    cases hresult : next b with
    | error e =>
      rw [hresult] at hb
      obtain ⟨name, hmem, he⟩ := hb
      exact ⟨name, List.mem_append_right names hmem, he⟩
    | ok c =>
      rw [hresult] at hb
      exact fun name hmem => (List.mem_append.1 hmem).elim (h name) (hb name)

/-- A walk along a list follows the values of the names of all its items. -/
theorem mapM {f : β → Except ε γ} {parts : β → List String} {bs : List β}
    (h : ∀ b ∈ bs, Follows value (parts b) (f b)) :
    Follows value (bs.flatMap parts) (bs.mapM f) := by
  induction bs with
  | nil => exact fun name hmem => absurd hmem List.not_mem_nil
  | cons b bs ih =>
    rw [List.mapM_cons, List.flatMap_cons]
    refine (h b List.mem_cons_self).append fun c _ => ?_
    exact (ih fun b' hmem => h b' (List.mem_cons_of_mem b hmem)).map (c :: ·)

end Follows

theorem map_mapError (r : ε → ε') (x : Except ε α) (f : α → β) :
    (x.mapError r).map f = (x.map f).mapError r := by
  cases x <;> rfl

theorem mapM_mapError (r : ε → ε') {f : α → Except ε β} {g : α → Except ε' β} {as : List α}
    (h : ∀ a ∈ as, g a = (f a).mapError r) : as.mapM g = (as.mapM f).mapError r := by
  induction as with
  | nil => rfl
  | cons a as ih =>
    rw [List.mapM_cons, List.mapM_cons, h a List.mem_cons_self,
      ih fun a' hmem => h a' (List.mem_cons_of_mem a hmem)]
    cases f a with
    | error e => rfl
    | ok b => cases as.mapM f <;> rfl

end Rehearsal
