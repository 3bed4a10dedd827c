import Rehearsal.Dict
import Rehearsal.Proofs.Walk

/-!
# Dictionaries as maps

What a dictionary binds, and what it binds after a function was applied to its values
(`Dict.get?_mapValues`, `Dict.get?_mapM`).
-/

namespace Rehearsal

variable {α β ε : Type}

namespace Assoc

/-- What is found under a name is listed under it. -/
theorem mem_of_get? {entries : List (String × α)} {name : String} {value : α}
    (h : get? name entries = some value) : (name, value) ∈ entries := by
  induction entries with
  | nil => cases h
  | cons entry entries ih =>
    obtain ⟨key, found⟩ := entry
    rw [get?] at h
    split at h
    · next heq =>
      cases h
      exact heq ▸ List.mem_cons_self
    · exact List.mem_cons_of_mem _ (ih h)

theorem get?_eq_none_iff {entries : List (String × α)} {name : String} :
    get? name entries = none ↔ ∀ entry ∈ entries, entry.1 ≠ name := by
  induction entries with
  | nil => exact iff_of_true rfl (List.forall_mem_nil _)
  | cons entry entries ih =>
    rw [get?, List.forall_mem_cons]
    split
    · next heq => exact iff_of_false (Option.some_ne_none _) fun h => h.1 heq
    · next hne => rw [ih, and_iff_right hne]

theorem mem_sort {entries : List (String × α)} {entry : String × α} (h : entry ∈ sort entries) :
    entry ∈ entries := by
  have hfold (todo acc : List (String × α))
      (hmem : entry ∈ todo.foldl (fun acc entry => insert entry.1 entry.2 acc) acc) :
      entry ∈ todo ∨ entry ∈ acc := by
    induction todo generalizing acc with
    | nil => exact .inr hmem
    | cons first todo ih =>
      rcases ih _ hmem with hmem | hmem
      · exact .inl (List.mem_cons_of_mem first hmem)
      · rcases mem_insert hmem with rfl | hmem
        · exact .inl List.mem_cons_self
        · exact .inr hmem
  exact (hfold entries [] h).resolve_right List.not_mem_nil

theorem get?_eq_some_iff {entries : List (String × α)} (h : (entries.map Prod.fst).Nodup)
    {name : String} {value : α} : get? name entries = some value ↔ (name, value) ∈ entries := by
  induction entries with
  | nil => exact iff_of_false nofun List.not_mem_nil
  | cons entry entries ih =>
    obtain ⟨key, found⟩ := entry
    obtain ⟨hnew, hrest⟩ := List.nodup_cons.1 h
    rw [get?, List.mem_cons, Prod.mk.injEq]
    split
    · next heq =>
      have hnone : (name, value) ∉ entries := fun hmem =>
        hnew (List.mem_map.2 ⟨(name, value), hmem, heq.symm⟩)
      rw [Option.some.injEq, or_iff_left hnone, eq_comm, and_iff_right heq.symm]
    · next hne => rw [ih hrest, or_iff_right fun h => hne h.1.symm]

theorem Ascending.nodup {entries : List (String × α)} (h : Ascending entries) :
    (entries.map Prod.fst).Nodup := by
  rw [List.Nodup, List.pairwise_map]
  refine h.imp fun {a b} (hlt : a.1 < b.1) heq => ?_
  exact String.lt_irrefl b.1 (heq ▸ hlt)

end Assoc

namespace Dict

theorem contains_insert (dict : Dict α) (name other : String) (value : α) :
    (dict.insert name value).contains other = true ↔ other = name ∨ dict.contains other = true := by
  rw [contains, get?_insert, contains]
  split
  · next heq => simp [heq]
  · next hne => simp [hne]

theorem contains_of_mem {dict : Dict α} {entry : String × α}
    (h : entry ∈ dict.entries) : dict.contains entry.1 = true :=
  mem_names_iff.1 (List.mem_map_of_mem h)

theorem nodup_names (dict : Dict α) : dict.names.Nodup := dict.ascending.nodup

theorem mem_entries_iff {dict : Dict α} {name : String} {value : α} :
    (name, value) ∈ dict.entries ↔ dict.get? name = some value :=
  (Assoc.get?_eq_some_iff dict.nodup_names).symm

theorem contains_iff {dict : Dict α} {name : String} :
    dict.contains name = true ↔ ∃ entry ∈ dict.entries, name = entry.1 := by
  rw [← mem_names_iff, names, List.mem_map]
  simp only [eq_comm]

theorem contains_mapValues {dict : Dict α} {f : String → α → β} {name : String} :
    (dict.mapValues f).contains name = true ↔ dict.contains name = true := by
  rw [← mem_names_iff, ← mem_names_iff, names, mapValues, List.map_map]
  rfl

theorem get?_mapValues (dict : Dict α) (f : String → α → β) (name : String) :
    (dict.mapValues f).get? name = (dict.get? name).map (f name) := by
  refine Option.ext fun value => ?_
  rw [← mem_entries_iff, mapValues, List.mem_map, Option.map_eq_some_iff]
  constructor
  · rintro ⟨⟨key, old⟩, hmem, heq⟩
    cases heq
    exact ⟨old, mem_entries_iff.1 hmem, rfl⟩
  · rintro ⟨old, hget, rfl⟩
    exact ⟨(name, old), mem_entries_iff.2 hget, rfl⟩

theorem mapValues_id (dict : Dict α) : (dict.mapValues fun _ value => value) = dict := by
  refine ext_get? fun name => ?_
  rw [get?_mapValues, Option.map_id']

/-- Of bindings with different names a dictionary keeps all. -/
theorem get?_ofList_iff {entries : List (String × α)} (h : (entries.map Prod.fst).Nodup)
    {name : String} {value : α} :
    (ofList entries).get? name = some value ↔ (name, value) ∈ entries := by
  have hfold (acc : List (String × α)) (hacc : ∀ entry ∈ entries, Assoc.get? entry.1 acc = none) :
      Assoc.get? name (entries.foldl (fun acc entry => Assoc.insert entry.1 entry.2 acc) acc) =
        some value ↔ Assoc.get? name acc = some value ∨ (name, value) ∈ entries := by
    induction entries generalizing acc with
    | nil => simp
    | cons head rest ih =>
      obtain ⟨key, first⟩ := head
      rw [List.map_cons, List.nodup_cons] at h
      have hkey : Assoc.get? key acc = none := hacc (key, first) List.mem_cons_self
      rw [List.foldl_cons, ih h.2, Assoc.get?_insert, List.mem_cons, Prod.mk.injEq, or_left_comm,
        or_comm (a := Assoc.get? name acc = some value)]
      · split
        · next heq =>
          subst heq
          simp [hkey, eq_comm, or_comm]
        · next hne => simp [hne, or_comm]
      · intro entry hmem
        have hne : entry.1 ≠ key := by
          intro heq
          exact h.1 (List.mem_map.2 ⟨entry, hmem, heq⟩)
        rw [Assoc.get?_insert, if_neg hne]
        exact hacc entry (List.mem_cons_of_mem _ hmem)
  have h := hfold [] fun _ _ => rfl
  simpa [ofList, get?, Assoc.sort, Assoc.get?] using h

/-- What is bound after a fallible function was applied to every value. -/
theorem get?_mapM {f : String → α → Except ε β} {dict : Dict α} {dict' : Dict β}
    (h : dict.mapM f = .ok dict') {name : String} {value : β} :
    dict'.get? name = some value ↔ ∃ old, dict.get? name = some old ∧ f name old = .ok value := by
  obtain ⟨entries, hentries, heq⟩ := exists_of_bind_eq_ok h
  cases heq
  have hone (entry : String × α) (entry' : String × β) :
      (do return (entry.1, ← f entry.1 entry.2) : Except ε (String × β)) = .ok entry' ↔
        entry'.1 = entry.1 ∧ f entry.1 entry.2 = .ok entry'.2 := by
    cases f entry.1 entry.2 with
    | error e => exact iff_of_false nofun fun h => nomatch h.2
    | ok b => simp [pure, Except.pure, bind, Except.bind, Prod.ext_iff, eq_comm]
  have hnames : entries.map Prod.fst = dict.names :=
    map_eq_map_of_mapM hentries fun entry entry' h => ((hone entry entry').1 h).1
  rw [get?_ofList_iff (hnames ▸ dict.nodup_names)]
  constructor
  · intro hmem
    obtain ⟨⟨key, old⟩, hold, heq⟩ := exists_mem_of_mem_mapM hentries hmem
    obtain ⟨rfl, hf⟩ := (hone _ _).1 heq
    exact ⟨old, mem_entries_iff.1 hold, hf⟩
  · rintro ⟨old, hold, hf⟩
    obtain ⟨entry', hmem, heq⟩ := exists_mem_mapM_of_mem hentries (mem_entries_iff.2 hold)
    rw [(hone _ (name, value)).2 ⟨rfl, hf⟩] at heq
    cases heq
    exact hmem

/-- A fallible function that was applied to every value succeeded with each of them. -/
theorem exists_get?_of_mapM {f : String → α → Except ε β} {dict : Dict α} {dict' : Dict β}
    (h : dict.mapM f = .ok dict') {name : String} {old : α} (hold : dict.get? name = some old) :
    ∃ value, f name old = .ok value ∧ dict'.get? name = some value := by
  obtain ⟨entries, hentries, -⟩ := exists_of_bind_eq_ok h
  obtain ⟨entry, -, hentry⟩ := exists_mem_mapM_of_mem hentries (mem_entries_iff.2 hold)
  obtain ⟨value, hvalue, -⟩ := exists_of_bind_eq_ok hentry
  exact ⟨value, hvalue, (get?_mapM h).2 ⟨old, hold, hvalue⟩⟩

theorem isSome_get?_mapM {f : String → α → Except ε β} {dict : Dict α} {dict' : Dict β}
    (h : dict.mapM f = .ok dict') (name : String) :
    (dict'.get? name).isSome = (dict.get? name).isSome := by
  cases hold : dict.get? name with
  | none =>
    refine Option.isSome_eq_false_iff.2 (Option.isNone_iff_eq_none.2 ?_)
    refine Option.eq_none_iff_forall_ne_some.2 fun value hvalue => ?_
    obtain ⟨old, hsome, -⟩ := (get?_mapM h).1 hvalue
    rw [hold] at hsome
    cases hsome
  | some old =>
    obtain ⟨value, -, hvalue⟩ := exists_get?_of_mapM h hold
    rw [hvalue]
    rfl

/-- A dictionary is that of its bindings. -/
theorem ofList_entries (dict : Dict α) : ofList dict.entries = dict :=
  ext_get? fun _ => Option.ext fun _ => (get?_ofList_iff dict.nodup_names).trans mem_entries_iff

theorem mapM_eq_ok_self {f : String → α → Except ε α} {dict : Dict α}
    (h : ∀ name value, dict.get? name = some value → f name value = .ok value) :
    dict.mapM f = .ok dict := by
  have hentries : (dict.entries.mapM fun entry => do
      return (entry.1, ← f entry.1 entry.2) : Except ε (List (String × α))) = .ok dict.entries := by
    refine Rehearsal.mapM_eq_ok_self fun entry hmem => ?_
    rw [h entry.1 entry.2 (mem_entries_iff.1 hmem)]
    rfl
  rw [mapM, hentries]
  exact congrArg Except.ok dict.ofList_entries

end Dict

/-- Ascending lists with the same names list them alike. -/
theorem Assoc.map_fst_eq {as : List (String × α)} {bs : List (String × β)} (ha : Ascending as)
    (hb : Ascending bs) (h : ∀ name, get? name as = none ↔ get? name bs = none) :
    as.map Prod.fst = bs.map Prod.fst := by
  let a : Dict α := ⟨as, ha⟩
  let b : Dict β := ⟨bs, hb⟩
  have hunits : (a.mapValues fun _ _ => ()) = b.mapValues fun _ _ => () := by
    refine Dict.ext_get? fun name => ?_
    rw [Dict.get?_mapValues, Dict.get?_mapValues]
    have hname : a.get? name = none ↔ b.get? name = none := h name
    cases hfound : a.get? name with
    | none =>
      rw [hname.1 hfound]
      rfl
    | some value =>
      cases hother : b.get? name with
      | none =>
        rw [hname.2 hother] at hfound
        cases hfound
      | some other => rfl
  have hnames := congrArg (fun dict : Dict Unit => dict.entries.map Prod.fst) hunits
  rwa [Dict.mapValues, Dict.mapValues, List.map_map, List.map_map] at hnames

namespace Dict

/-! ### Dictionaries of a function -/

/-- The dictionary that binds each of some names to its value under a function. -/
def tabulate (names : List String) (f : String → α) : Dict α :=
  names.foldl (fun dict name => dict.insert name (f name)) ∅

theorem get?_foldl_insert (names : List String) (f : String → α) (dict : Dict α) (name : String) :
    (names.foldl (fun dict name => dict.insert name (f name)) dict).get? name =
      if name ∈ names then some (f name) else dict.get? name := by
  induction names generalizing dict with
  | nil => simp
  | cons other names ih =>
    rw [List.foldl_cons, ih, get?_insert]
    by_cases hmem : name ∈ names
    · simp [hmem]
    · by_cases heq : name = other
      · subst heq; simp [hmem]
      · simp [hmem, heq]

theorem get?_tabulate (names : List String) (f : String → α) (name : String) :
    (tabulate names f).get? name = if name ∈ names then some (f name) else none :=
  get?_foldl_insert names f ∅ name

end Dict

end Rehearsal
