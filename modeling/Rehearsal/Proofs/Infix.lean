import Mathlib.Data.List.Infix

/-!
# Parts of texts that are put together

Where a text stands in the concatenation of others: inside one of them, or across a point where two
of them meet (`infix_flatMap_iff`). A text that lacks a character does not stand across that
character (`infix_append_cons_iff`, `infix_intercalate_iff`).
-/

namespace Rehearsal

variable {α β : Type} {w : List α}

/-- A text stands across the point where two others meet. -/
def Straddles (w left right : List α) : Prop :=
  ∃ front back, front ≠ [] ∧ back ≠ [] ∧ w = front ++ back ∧ front <:+ left ∧ back <+: right

theorem infix_append_iff_straddles {left right : List α} :
    w <:+: left ++ right ↔ w <:+: left ∨ w <:+: right ∨ Straddles w left right := by
  rw [List.infix_append_iff]
  constructor
  · rintro (h | h | ⟨front, back, rfl, hfront, hback⟩)
    · exact .inl h
    · exact .inr (.inl h)
    · by_cases hnil : front = []
      · exact .inr (.inl (by simpa [hnil] using hback.isInfix))
      by_cases hnil' : back = []
      · exact .inl (by simpa [hnil'] using hfront.isInfix)
      exact .inr (.inr ⟨front, back, hnil, hnil', rfl, hfront, hback⟩)
  · rintro (h | h | ⟨front, back, -, -, rfl, hfront, hback⟩)
    · exact .inl h
    · exact .inr (.inl h)
    · exact .inr (.inr ⟨front, back, rfl, hfront, hback⟩)

/-- A text in a concatenation stands in one of the parts, or across a point where two parts meet. -/
theorem infix_flatMap_iff {f : β → List α} {parts : List β} (hne : w ≠ []) :
    w <:+: parts.flatMap f ↔ (∃ part ∈ parts, w <:+: f part) ∨
      ∃ left right, parts = left ++ right ∧ Straddles w (left.flatMap f) (right.flatMap f) := by
  constructor
  · intro h
    induction parts with
    | nil => exact absurd (List.eq_nil_of_infix_nil h) hne
    | cons part parts ih =>
      rw [List.flatMap_cons, infix_append_iff_straddles] at h
      rcases h with h | h | h
      · exact .inl ⟨part, List.mem_cons_self, h⟩
      · rcases ih h with ⟨other, hmem, hother⟩ |
          ⟨left, right, rfl, front, back, hfront, hback, hw, hleft, hright⟩
        · exact .inl ⟨other, List.mem_cons_of_mem part hmem, hother⟩
        · refine .inr ⟨part :: left, right, rfl, front, back, hfront, hback, hw, ?_, hright⟩
          exact hleft.trans (List.suffix_append (f part) _)
      · exact .inr ⟨[part], parts, rfl, by simpa using h⟩
  · rintro (⟨part, hmem, hpart⟩ | ⟨left, right, rfl, h⟩)
    · obtain ⟨before, behind, rfl⟩ := List.append_of_mem hmem
      rw [List.flatMap_append, List.flatMap_cons]
      exact hpart.trans ((List.prefix_append _ _).isInfix.trans (List.suffix_append _ _).isInfix)
    · rw [List.flatMap_append, infix_append_iff_straddles]
      exact .inr (.inr h)

/-- A character that a text lacks parts it from what stands on the other side. -/
theorem infix_append_cons_iff {c : α} (hne : w ≠ []) (hc : c ∉ w) {xs ys : List α} :
    w <:+: xs ++ c :: ys ↔ w <:+: xs ∨ w <:+: ys := by
  have hcons : w <:+: c :: ys ↔ w <:+: ys := by
    rw [List.infix_cons_iff]
    refine or_iff_right fun hprefix => ?_
    obtain ⟨first, rest, rfl⟩ := List.exists_cons_of_ne_nil hne
    exact hc ((List.cons_prefix_cons.1 hprefix).1 ▸ List.mem_cons_self)
  rw [infix_append_iff_straddles, hcons]
  refine or_congr_right (or_iff_left ?_)
  rintro ⟨front, back, -, hback, rfl, -, hprefix⟩
  obtain ⟨first, rest, rfl⟩ := List.exists_cons_of_ne_nil hback
  exact hc (List.mem_append_right front ((List.cons_prefix_cons.1 hprefix).1 ▸ List.mem_cons_self))

theorem infix_cons_iff_of_not_mem {c : α} (hne : w ≠ []) (hc : c ∉ w) {xs : List α} :
    w <:+: c :: xs ↔ w <:+: xs := by
  have h : w <:+: [] ++ c :: xs ↔ w <:+: [] ∨ w <:+: xs := infix_append_cons_iff hne hc
  rw [List.nil_append, List.infix_nil] at h
  exact h.trans (or_iff_right hne)

/-- What begins with a character that the first of two texts lacks begins in the second. -/
theorem infix_of_infix_append {c : α} {xs ys : List α} (hc : c ∉ xs) (h : c :: w <:+: xs ++ ys) :
    c :: w <:+: ys := by
  induction xs with
  | nil => exact h
  | cons x xs ih =>
    rw [List.mem_cons, not_or] at hc
    rw [List.cons_append, List.infix_cons_iff] at h
    refine ih hc.2 (h.resolve_left fun hprefix => hc.1 ?_)
    exact (List.cons_prefix_cons.1 hprefix).1

/-- A text that lacks the separator stands in one of the texts that are listed. -/
theorem infix_intercalate_iff {c : α} (hne : w ≠ []) (hc : c ∉ w) {parts : List (List α)} :
    w <:+: [c].intercalate parts ↔ ∃ part ∈ parts, w <:+: part := by
  induction parts with
  | nil => simpa using hne
  | cons part parts ih =>
    cases parts with
    | nil => simp
    | cons next parts =>
      rw [List.intercalate_cons_cons, List.append_assoc, List.singleton_append,
        infix_append_cons_iff hne hc, ih]
      simp

end Rehearsal
