import Rehearsal.Proofs.Json.Fields
import Rehearsal.Proofs.Placeholder

/-!
# Values whose members are in order

The members of an object are listed in ascending order of their names. A value has this at every
level (`Json.Ordered`) if it was put together by the operations of this library, and two objects
of this form are the same if look-ups in them are (`Json.sameMembers_of_get?`).
-/

namespace Rehearsal

namespace Json

/-- Only an object has a member. -/
theorem exists_members_of_field? {value found : Json} {name : String}
    (h : value.field? name = some found) :
    ∃ members, value = .obj members ∧ Assoc.get? name members = some found := by
  obtain ⟨members, hmembers, hget⟩ := Option.bind_eq_some_iff.1 h
  cases value with
  | obj =>
    cases hmembers
    exact ⟨members, rfl, hget⟩
  | null | bool | int | float | str | arr => cases hmembers

/-- The members of every object in the value are in ascending order of their names. -/
inductive Ordered : Json → Prop
  | null : Ordered .null
  | bool (value : Bool) : Ordered (.bool value)
  | int (value : Int) : Ordered (.int value)
  | float (value : Binary64) : Ordered (.float value)
  | str (value : String) : Ordered (.str value)
  | arr {items : List Json} (h : ∀ item ∈ items, Ordered item) : Ordered (.arr items)
  | obj {members : List (String × Json)} (hascending : Assoc.Ascending members)
      (h : ∀ member ∈ members, Ordered member.2) : Ordered (.obj members)

namespace Ordered

variable {members : List (String × Json)} {value : Json} {name : String}

theorem ascending (h : Ordered (.obj members)) : Assoc.Ascending members := by
  cases h with
  | obj hascending _ => exact hascending

theorem of_mem (h : Ordered (.obj members)) {member : String × Json} (hmem : member ∈ members) :
    member.2.Ordered := by
  cases h with
  | obj _ h => exact h member hmem

/-- The object of some members, whatever order they are given in. -/
theorem ofMembers (h : ∀ member ∈ members, member.2.Ordered) : (ofMembers members).Ordered :=
  .obj (Assoc.ascending_sort members) fun member hmem => h member (Assoc.mem_sort hmem)

/-- The members of an ordered object, as a dictionary. -/
theorem of_dict? (h : value.Ordered) {dict : Dict Json} (hdict : value.dict? = some dict)
    {entry : String × Json} (hmem : entry ∈ dict.entries) : entry.2.Ordered := by
  cases h with
  | obj _ h =>
    cases hdict
    exact h entry (Assoc.mem_sort hmem)
  | null | bool | int | float | str | arr => cases hdict

theorem of_field? (h : value.Ordered) {found : Json} (hfield : value.field? name = some found) :
    found.Ordered := by
  obtain ⟨members, rfl, hget⟩ := exists_members_of_field? hfield
  exact h.of_mem (Assoc.mem_of_get? hget)

end Ordered

/-! ### Equality of values -/

theorem same_refl (value : Json) : value.same value = true := by
  induction value using Json.induct with
  | null => rfl
  | bool b => exact beq_self_eq_true b
  | int n => exact beq_self_eq_true n
  | float x =>
    rw [same, Binary64.sameNumber]
    split
    · next hzero => exact decide_eq_true hzero
    · exact decide_eq_true rfl
  | str text => exact beq_self_eq_true text
  | arr items ih =>
    rw [same]
    induction items with
    | nil => rfl
    | cons item items ihItems =>
      obtain ⟨hitem, hitems⟩ := List.forall_mem_cons.1 ih
      rw [sameItems, hitem, ihItems hitems, Bool.and_true]
  | obj members ih =>
    rw [same]
    induction members with
    | nil => rfl
    | cons member members ihMembers =>
      obtain ⟨name, value⟩ := member
      obtain ⟨hvalue, hmembers⟩ := List.forall_mem_cons.1 ih
      rw [sameMembers, beq_self_eq_true, hvalue, ihMembers hmembers, Bool.and_true, Bool.and_true]

/-- Two members, if there are any, are the same. -/
abbrev SameMember : Option Json → Option Json → Prop := Option.Rel fun a b => a.same b = true

/-- Objects are the same if they look alike under every name. -/
theorem sameMembers_of_get? {as bs : List (String × Json)} (ha : Assoc.Ascending as)
    (hb : Assoc.Ascending bs)
    (h : ∀ name, SameMember (Assoc.get? name as) (Assoc.get? name bs)) : sameMembers as bs = true := by
  have hnames : as.map Prod.fst = bs.map Prod.fst := by
    refine Assoc.map_fst_eq ha hb fun name => ?_
    replace h := h name
    generalize Assoc.get? name as = found, Assoc.get? name bs = other at h
    cases h with
    | none => exact Iff.rfl
    | some _ => exact iff_of_false nofun nofun
  induction as generalizing bs with
  | nil =>
    rw [List.map_eq_nil_iff.1 hnames.symm]
    rfl
  | cons a as ih =>
    cases bs with
    | nil => cases hnames
    | cons b bs =>
      obtain ⟨name, value⟩ := a
      obtain ⟨name', value'⟩ := b
      obtain ⟨hname, htail⟩ := List.cons.inj hnames
      change name = name' at hname
      subst hname
      obtain ⟨hlt, ha⟩ := List.pairwise_cons.1 ha
      obtain ⟨hlt', hb⟩ := List.pairwise_cons.1 hb
      have hvalue : value.same value' = true := by
        have hhead := h name
        rw [Assoc.get?, Assoc.get?, if_pos rfl, if_pos rfl] at hhead
        cases hhead with
        | some hsame => exact hsame
      rw [sameMembers, beq_self_eq_true, hvalue, Bool.true_and, Bool.true_and]
      refine ih ha hb (fun other => ?_) htail
      -- Behind the first member its name does not come again.
      by_cases heq : name = other
      · subst heq
        rw [Assoc.get?_eq_none_of_lt hlt, Assoc.get?_eq_none_of_lt hlt']
        exact .none
      · have hother := h other
        rwa [Assoc.get?, Assoc.get?, if_neg heq, if_neg heq] at hother

end Json

end Rehearsal
