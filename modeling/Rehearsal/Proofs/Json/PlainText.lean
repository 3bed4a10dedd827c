import Mathlib.Data.List.Infix
import Rehearsal.Json.Printer

/-!
# The texts of values that are no strings

Put into a text, a value that is no string has no `$` in it, or it is an array or an object and
begins with a bracket (`Json.plainText_cases`). So no such text begins with a placeholder.
-/

namespace Rehearsal

/-- Whether a character can stand in a number. -/
def isNumeric (c : Char) : Bool := c.isDigit || c == '-' || c == '+' || c == '.' || c == 'e'

theorem all_isNumeric_toDigits (n : Nat) : (Nat.toDigits 10 n).all isNumeric = true := by
  rw [List.all_eq_true]
  intro c h
  have hdigit : c.isDigit = true := Nat.isDigit_of_mem_toDigits (by decide) (by decide) h
  rw [isNumeric, hdigit]
  rfl

theorem all_of_subset {p : Char → Bool} {cs ds : List Char} (h : ds.all p = true)
    (hsub : cs ⊆ ds) : cs.all p = true :=
  List.all_eq_true.2 fun c hc => List.all_eq_true.1 h c (hsub hc)

namespace Binary64

theorem all_isNumeric_trimmed (n : Nat) :
    ((digits n).reverse.dropWhile (· == '0')).reverse.all isNumeric = true := by
  refine all_of_subset (all_isNumeric_toDigits n) fun c hc => ?_
  exact List.mem_reverse.1 ((List.dropWhile_suffix _).subset (List.mem_reverse.1 hc))

theorem all_isNumeric_shortest (x : Binary64) : x.shortest.1.all isNumeric = true := by
  unfold shortest
  dsimp only
  split
  · exact all_isNumeric_trimmed _
  · exact all_isNumeric_toDigits _

/-- The text of a number has digits, signs, a point and an exponent in it and nothing else. -/
theorem all_isNumeric_toText (x : Binary64) : x.toText.toList.all isNumeric = true := by
  have hsign : (if x.negative then "-" else "").toList.all isNumeric = true := by
    cases x.negative <;> decide
  have hdigits := all_isNumeric_shortest x
  have htake (n : Nat) : (x.shortest.1.take n).all isNumeric = true :=
    all_of_subset hdigits (List.take_subset n _)
  have hdrop (n : Nat) : (x.shortest.1.drop n).all isNumeric = true :=
    all_of_subset hdigits (List.drop_subset n _)
  have hzeros (n : Nat) : (List.replicate n '0').all isNumeric = true := by
    rw [List.all_replicate]
    simp [isNumeric]
  have hexponent (n : Nat) : (digits n).all isNumeric = true := all_isNumeric_toDigits n
  unfold toText
  dsimp only
  split
  · rw [String.toList_append, List.all_append, hsign]
    decide
  · rw [String.toList_append, List.all_append, hsign, String.toList_ofList, Bool.true_and]
    split
    · rw [List.all_append, List.all_append, hzeros, hdigits]
      decide
    · split
      · split
        · rw [List.all_append, List.all_append, hzeros, hdigits]
          decide
        · rw [List.all_append, List.all_append, htake, hdrop]
          decide
      · have hfraction : (if x.shortest.1.length ≤ 1 then []
            else '.' :: x.shortest.1.drop 1).all isNumeric = true := by
          split
          · rfl
          · rw [List.all_cons, hdrop]
            decide
        have hmark : isNumeric (if x.shortest.2 - 1 < 0 then '-' else '+') = true := by
          split <;> decide
        rw [List.all_append, List.all_append, List.all_append, htake, hfraction, hexponent,
          List.all_cons, List.all_cons, hmark]
        decide

end Binary64

namespace Json

theorem all_isNumeric_toString (n : Int) : (toString n).toList.all isNumeric = true := by
  cases n with
  | ofNat n =>
    rw [show toString (Int.ofNat n) = String.ofList (Nat.toDigits 10 n) from rfl,
      String.toList_ofList, all_isNumeric_toDigits]
  | negSucc n =>
    have hdigits : (String.ofList (Nat.toDigits 10 (n + 1))).toList.all isNumeric = true := by
      rw [String.toList_ofList, all_isNumeric_toDigits]
    rw [show toString (Int.negSucc n) = "-" ++ String.ofList (Nat.toDigits 10 (n + 1)) from rfl,
      String.toList_append, List.all_append, hdigits]
    decide

theorem dollar_not_mem {cs : List Char} (h : cs.all isNumeric = true) : '$' ∉ cs := by
  intro hmem
  exact absurd (List.all_eq_true.1 h '$' hmem) (by decide)

/-- The characters that the texts of arrays and objects begin with. -/
def isBracket (c : Char) : Bool := c == '[' || c == '{'

/-- What the text of a value can look like: it is the text of a string, it has no `$`, or it
begins with a bracket. -/
theorem plainText_cases (value : Json) :
    (∃ text, value = .str text) ∨ '$' ∉ value.plainText.toList ∨
      ∃ c rest, value.plainText.toList = c :: rest ∧ isBracket c = true := by
  cases value with
  | null => exact .inr (.inl (by decide))
  | bool b => exact .inr (.inl (by cases b <;> decide))
  | int n => exact .inr (.inl (dollar_not_mem (all_isNumeric_toString n)))
  | float x => exact .inr (.inl (dollar_not_mem x.all_isNumeric_toText))
  | str text => exact .inl ⟨text, rfl⟩
  | arr items =>
    have htext : (Json.arr items).plainText.toList =
        '[' :: ((",".intercalate (compactItems items)).toList ++ [']']) := by
      simp [plainText, compact]
    exact .inr (.inr ⟨'[', _, htext, by decide⟩)
  | obj members =>
    have htext : (Json.obj members).plainText.toList =
        '{' :: ((",".intercalate (compactMembers members)).toList ++ ['}']) := by
      simp [plainText, compact, openBrace, closeBrace]
    exact .inr (.inr ⟨'{', _, htext, by decide⟩)

end Json

end Rehearsal
