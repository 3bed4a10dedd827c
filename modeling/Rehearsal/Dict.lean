/-!
# Dictionaries

A `Dict α` maps names to values and is listed in the order of its names (the order of their
code points), so two dictionaries that answer every look-up alike are equal (`Dict.ext_get?`).

The operations on bare association lists come first, because the members of a JSON object are
such a list; `Dict` adds the proof that the names ascend.

* `Assoc.get?`, `Assoc.insert`, `Assoc.erase`: look-up and update of a list of pairs;
* `Dict.get?_insert`, `Dict.get?_erase`: what an update changes.
-/

namespace Rehearsal

universe u v w

namespace Assoc

variable {α : Type u} {β : Type v}

/-- The value listed first under `name`. -/
def get? (name : String) : List (String × α) → Option α
  | [] => none
  | (key, value) :: rest => if key = name then some value else get? name rest

/-- Binds `name` in an ascending list, replacing an earlier binding. -/
def insert (name : String) (value : α) : List (String × α) → List (String × α)
  | [] => [(name, value)]
  | (key, old) :: rest =>
    if name < key then (name, value) :: (key, old) :: rest
    else if name = key then (name, value) :: rest
    else (key, old) :: insert name value rest

/-- Drops every binding of `name`. -/
def erase (name : String) (entries : List (String × α)) : List (String × α) :=
  entries.filter fun entry => entry.1 != name

/-- Whether `name` is bound. -/
def contains (name : String) (entries : List (String × α)) : Bool :=
  (get? name entries).isSome

/-- The names ascend strictly. -/
abbrev Ascending (entries : List (String × α)) : Prop :=
  entries.Pairwise fun a b => a.1 < b.1

/-- An ascending list with the bindings of `entries`; of two bindings of a name the later wins. -/
def sort (entries : List (String × α)) : List (String × α) :=
  entries.foldl (fun acc entry => insert entry.1 entry.2 acc) []

theorem mem_insert {name : String} {value : α} {entries : List (String × α)}
    {entry : String × α} (h : entry ∈ insert name value entries) :
    entry = (name, value) ∨ entry ∈ entries := by
  induction entries with
  | nil => simpa [insert] using h
  | cons head rest ih =>
    obtain ⟨key, old⟩ := head
    simp only [insert] at h
    split at h
    · simpa using h
    · split at h
      · simp only [List.mem_cons] at h ⊢
        exact h.imp id .inr
      · simp only [List.mem_cons] at h ⊢
        rcases h with h | h
        · exact .inr (.inl h)
        · exact (ih h).imp id .inr

theorem lt_of_not_lt_of_ne {a b : String} (h : ¬ a < b) (hne : a ≠ b) : b < a := by
  refine Decidable.byContradiction fun h' => hne ?_
  exact String.le_antisymm (String.not_lt.1 h') (String.not_lt.1 h)

theorem Ascending.insert {entries : List (String × α)} (h : Ascending entries) (name : String)
    (value : α) : Ascending (Assoc.insert name value entries) := by
  induction entries with
  | nil => simp [Assoc.insert]
  | cons head rest ih =>
    obtain ⟨key, old⟩ := head
    have hrest := List.pairwise_cons.1 h
    simp only [Assoc.insert]
    split
    · next hlt =>
      refine List.pairwise_cons.2 ⟨fun entry hmem => ?_, h⟩
      rcases List.mem_cons.1 hmem with rfl | hmem
      · exact hlt
      · exact String.lt_trans hlt (hrest.1 entry hmem)
    · next hlt =>
      split
      · next heq => exact List.pairwise_cons.2 ⟨fun entry hmem => heq ▸ hrest.1 entry hmem, hrest.2⟩
      · next hne =>
        refine List.pairwise_cons.2 ⟨fun entry hmem => ?_, ih hrest.2⟩
        rcases mem_insert hmem with rfl | hmem
        · exact lt_of_not_lt_of_ne hlt hne
        · exact hrest.1 entry hmem

theorem Ascending.erase {entries : List (String × α)} (h : Ascending entries) (name : String) :
    Ascending (Assoc.erase name entries) :=
  h.filter _

theorem ascending_sort (entries : List (String × α)) : Ascending (sort entries) := by
  have go : ∀ (todo acc : List (String × α)), Ascending acc →
      Ascending (todo.foldl (fun acc entry => Assoc.insert entry.1 entry.2 acc) acc) := by
    intro todo
    induction todo with
    | nil => exact fun _ h => h
    | cons entry rest ih => exact fun acc h => ih _ (h.insert entry.1 entry.2)
  exact go entries [] List.Pairwise.nil

theorem Ascending.mapValues {entries : List (String × α)} (h : Ascending entries)
    (f : String → α → β) : Ascending (entries.map fun entry => (entry.1, f entry.1 entry.2)) :=
  List.pairwise_map.2 h

theorem get?_insert (name other : String) (value : α) (entries : List (String × α)) :
    get? other (insert name value entries) =
      if other = name then some value else get? other entries := by
  induction entries with
  | nil => simp [insert, get?, eq_comm]
  | cons head rest ih =>
    obtain ⟨key, old⟩ := head
    simp only [insert]
    split
    · simp [get?, eq_comm]
    · split
      · next heq => subst heq; by_cases h : name = other <;> simp [get?, h, eq_comm]
      · next hne =>
        simp only [get?, ih]
        by_cases h : key = other
        · subst h; simp [Ne.symm hne]
        · simp [h]

theorem get?_erase (name other : String) (entries : List (String × α)) :
    get? other (erase name entries) = if other = name then none else get? other entries := by
  induction entries with
  | nil => simp [erase, get?]
  | cons head rest ih =>
    obtain ⟨key, old⟩ := head
    by_cases hk : key = name
    · subst hk
      by_cases h : key = other
      · subst h; simpa [erase, get?] using ih
      · simpa [erase, get?, h] using ih
    · by_cases h : key = other
      · subst h; simp [erase, get?, hk]
      · simpa [erase, get?, hk, h] using ih

theorem get?_eq_none_of_lt {name : String} {entries : List (String × α)}
    (h : ∀ entry ∈ entries, name < entry.1) : get? name entries = none := by
  induction entries with
  | nil => rfl
  | cons head rest ih =>
    obtain ⟨key, old⟩ := head
    have hlt : name < key := h _ List.mem_cons_self
    have hne : key ≠ name := fun heq => String.lt_irrefl name (heq ▸ hlt)
    simp [get?, hne, ih fun entry hmem => h entry (List.mem_cons_of_mem _ hmem)]

end Assoc

/-- A finite map from names to values, listed in ascending order of the names. -/
structure Dict (α : Type u) where
  /-- The bindings. -/
  entries : List (String × α)
  ascending : Assoc.Ascending entries

namespace Dict

variable {α : Type u} {β : Type v}

/-- The dictionary without bindings. -/
def empty : Dict α := ⟨[], List.Pairwise.nil⟩

instance : EmptyCollection (Dict α) := ⟨empty⟩

instance : Inhabited (Dict α) := ⟨empty⟩

/-- The value bound to `name`. -/
def get? (dict : Dict α) (name : String) : Option α := Assoc.get? name dict.entries

/-- Whether `name` is bound. -/
def contains (dict : Dict α) (name : String) : Bool := (dict.get? name).isSome

/-- Binds `name` to `value`, replacing an earlier binding. -/
def insert (dict : Dict α) (name : String) (value : α) : Dict α :=
  ⟨Assoc.insert name value dict.entries, dict.ascending.insert name value⟩

/-- Drops the binding of `name`. -/
def erase (dict : Dict α) (name : String) : Dict α :=
  ⟨Assoc.erase name dict.entries, dict.ascending.erase name⟩

/-- The names in ascending order. -/
def names (dict : Dict α) : List String := dict.entries.map (·.1)

/-- Number of bindings. -/
def size (dict : Dict α) : Nat := dict.entries.length

/-- Whether nothing is bound. -/
def isEmpty (dict : Dict α) : Bool := dict.entries.isEmpty

/-- The dictionary of a list of bindings; of two bindings of a name the later wins. -/
def ofList (entries : List (String × α)) : Dict α :=
  ⟨Assoc.sort entries, Assoc.ascending_sort entries⟩

/-- Applies a function to every binding and keeps the names. -/
def mapValues (dict : Dict α) (f : String → α → β) : Dict β :=
  ⟨dict.entries.map fun entry => (entry.1, f entry.1 entry.2), dict.ascending.mapValues f⟩

/-- Applies a fallible function to the values in order; the first failure wins. -/
def mapM {m : Type v → Type w} [Monad m] (dict : Dict α) (f : String → α → m β) : m (Dict β) := do
  return ofList (← dict.entries.mapM fun entry => do return (entry.1, ← f entry.1 entry.2))

/-- The bindings of both dictionaries; those of `upper` win. -/
def union (upper lower : Dict α) : Dict α :=
  upper.entries.foldl (fun dict entry => dict.insert entry.1 entry.2) lower

@[simp] theorem get?_empty (name : String) : (∅ : Dict α).get? name = none := rfl

theorem get?_insert (dict : Dict α) (name other : String) (value : α) :
    (dict.insert name value).get? other = if other = name then some value else dict.get? other :=
  Assoc.get?_insert name other value dict.entries

theorem get?_erase (dict : Dict α) (name other : String) :
    (dict.erase name).get? other = if other = name then none else dict.get? other :=
  Assoc.get?_erase name other dict.entries

theorem get?_union (upper lower : Dict α) (name : String) :
    (upper.union lower).get? name = (upper.get? name).or (lower.get? name) := by
  obtain ⟨entries, h⟩ := upper
  simp only [union, get?]
  induction entries generalizing lower with
  | nil => simp [Assoc.get?]
  | cons head rest ih =>
    obtain ⟨key, value⟩ := head
    have hrest := List.pairwise_cons.1 h
    simp only [List.foldl_cons]
    rw [ih (lower.insert key value) hrest.2,
      show Assoc.get? name (lower.insert key value).entries = _ from
        Assoc.get?_insert key name value lower.entries]
    by_cases hk : key = name
    · subst hk
      simp [Assoc.get?, Assoc.get?_eq_none_of_lt hrest.1]
    · simp [Assoc.get?, hk, Ne.symm hk]

theorem mem_names_iff {dict : Dict α} {name : String} :
    name ∈ dict.names ↔ dict.contains name = true := by
  obtain ⟨entries, h⟩ := dict
  simp only [names, contains, get?]
  clear h
  induction entries with
  | nil => simp [Assoc.get?]
  | cons head rest ih =>
    obtain ⟨key, value⟩ := head
    by_cases hk : key = name
    · subst hk; simp [Assoc.get?]
    · simp [Assoc.get?, hk, Ne.symm hk, ← ih]

theorem ext_get? {a b : Dict α} (h : ∀ name, a.get? name = b.get? name) : a = b := by
  obtain ⟨as, ha⟩ := a
  obtain ⟨bs, hb⟩ := b
  suffices as = bs by subst this; rfl
  replace h : ∀ name, Assoc.get? name as = Assoc.get? name bs := h
  induction as generalizing bs with
  | nil =>
    cases bs with
    | nil => rfl
    | cons head rest => exact absurd (h head.1) (by simp [Assoc.get?])
  | cons head rest ih =>
    obtain ⟨key, value⟩ := head
    cases bs with
    | nil => exact absurd (h key) (by simp [Assoc.get?])
    | cons head' rest' =>
      obtain ⟨key', value'⟩ := head'
      have ha' := List.pairwise_cons.1 ha
      have hb' := List.pairwise_cons.1 hb
      have hnone := Assoc.get?_eq_none_of_lt ha'.1
      have hnone' := Assoc.get?_eq_none_of_lt hb'.1
      have hkey : key = key' := by
        refine Decidable.byContradiction fun hne => ?_
        by_cases hlt : key < key'
        · have hk := h key
          have hall : ∀ entry ∈ (key', value') :: rest', key < entry.1 := fun entry hmem =>
            (List.mem_cons.1 hmem).elim (fun heq => heq ▸ hlt) fun hmem =>
              String.lt_trans hlt (hb'.1 entry hmem)
          rw [Assoc.get?_eq_none_of_lt hall] at hk
          simp [Assoc.get?] at hk
        · have hlt' := Assoc.lt_of_not_lt_of_ne hlt hne
          have hk := h key'
          have hall : ∀ entry ∈ (key, value) :: rest, key' < entry.1 := fun entry hmem =>
            (List.mem_cons.1 hmem).elim (fun heq => heq ▸ hlt') fun hmem =>
              String.lt_trans hlt' (ha'.1 entry hmem)
          rw [Assoc.get?_eq_none_of_lt hall] at hk
          simp [Assoc.get?] at hk
      subst hkey
      have hvalue : value = value' := by simpa [Assoc.get?] using h key
      subst hvalue
      refine congrArg _ (ih ha'.2 rest' hb'.2 fun name => ?_)
      by_cases hn : key = name
      · subst hn; rw [hnone, hnone']
      · simpa [Assoc.get?, hn] using h name

end Dict

end Rehearsal
