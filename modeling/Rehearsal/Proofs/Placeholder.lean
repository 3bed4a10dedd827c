import Rehearsal.Placeholder
import Rehearsal.Proofs.Walk

/-!
# Replacing placeholders

What putting values in place of placeholders (`Placeholder.substitute`, carried through a value
by `Json.traverse`) makes of the function that gives the values:

* it succeeds if the function does so at every placeholder, and else fails as the function does
  at one of them (`Json.follows_traverse`);
* two functions that agree at every placeholder, up to a renaming of their errors, agree up to
  that renaming in what they make of the value (`Json.traverse_mapError`).

Strings are walked piece by piece, arrays and objects part by part, each by `List.mapM`; so both
facts are carried from such walks (`Rehearsal.Proofs.Walk`) to values by the induction
`Json.induct`.
-/

namespace Rehearsal

variable {ε ε' : Type}

/-! ### One string -/

namespace Placeholder

/-- The names of a piece: that of a placeholder. -/
def Piece.names : Piece → List String
  | .char _ => []
  | .token name => [name]

theorem names_eq_flatMap (text : String) : names text = (pieces text).flatMap Piece.names := by
  rw [names]
  induction pieces text with
  | nil => rfl
  | cons piece rest ih => cases piece <;> simp [Piece.names, ih]

theorem mem_names_iff {text name : String} : name ∈ names text ↔ .token name ∈ pieces text := by
  rw [names_eq_flatMap, List.mem_flatMap]
  constructor
  · rintro ⟨piece, hmem, hname⟩
    cases piece with
    | char c => cases hname
    | token other => rwa [List.mem_singleton.1 hname]
  · exact fun hmem => ⟨.token name, hmem, List.mem_singleton_self name⟩

theorem follows_pieceText (value : String → Except ε (Option Json)) (piece : Piece) :
    Follows value piece.names (pieceText value piece) := by
  cases piece with
  | char c => exact fun name hmem => absurd hmem List.not_mem_nil
  | token name => exact .single name _

theorem follows_substitute (value : String → Except ε (Option Json)) (text : String) :
    Follows value (names text) (substitute value text) := by
  rw [substitute, names_eq_flatMap]
  split
  · next name hpieces => rw [hpieces]; exact .single name _
  · exact (Follows.mapM fun piece _ => follows_pieceText value piece).map _

theorem substitute_mapError (r : ε → ε') {f : String → Except ε (Option Json)}
    {g : String → Except ε' (Option Json)} {text : String}
    (h : ∀ name ∈ names text, g name = (f name).mapError r) :
    substitute g text = (substitute f text).mapError r := by
  rw [substitute, substitute]
  split
  · next name hpieces => rw [h name (by simp [mem_names_iff, hpieces]), map_mapError]
  · rw [mapM_mapError r (f := pieceText f), map_mapError]
    intro piece hmem
    cases piece with
    | char c => rfl
    | token name => rw [pieceText, pieceText, h name (mem_names_iff.2 hmem), map_mapError]

end Placeholder

/-! ### Whole values -/

namespace Json

/-- Induction on values, where arrays and objects have the property if all their parts do. -/
@[elab_as_elim]
theorem induct {P : Json → Prop} (null : P .null) (bool : ∀ b, P (.bool b)) (int : ∀ n, P (.int n))
    (float : ∀ x, P (.float x)) (str : ∀ text, P (.str text))
    (arr : ∀ items, (∀ item ∈ items, P item) → P (.arr items))
    (obj : ∀ members, (∀ member ∈ members, P member.2) → P (.obj members)) (value : Json) :
    P value :=
  @Json.rec P (fun items => ∀ item ∈ items, P item) (fun members => ∀ member ∈ members, P member.2)
    (fun member => P member.2) null bool int float str arr obj
    (fun _ h => absurd h List.not_mem_nil) (fun _ _ h hs => List.forall_mem_cons.2 ⟨h, hs⟩)
    (fun _ h => absurd h List.not_mem_nil) (fun _ _ h hs => List.forall_mem_cons.2 ⟨h, hs⟩)
    (fun _ _ h => h) value

theorem traverseItems_eq_mapM (f : String → Except ε Json) (items : List Json) :
    traverseItems f items = items.mapM (traverse f) := by
  induction items with
  | nil => rfl
  | cons item rest ih => rw [traverseItems, List.mapM_cons, ih]

/-- Replaces every string of the value of a member. -/
def traverseMember (f : String → Except ε Json) (member : String × Json) :
    Except ε (String × Json) := (traverse f member.2).map (member.1, ·)

theorem traverseMembers_eq_mapM (f : String → Except ε Json) (members : List (String × Json)) :
    traverseMembers f members = members.mapM (traverseMember f) := by
  induction members with
  | nil => rfl
  | cons member rest ih =>
    obtain ⟨name, value⟩ := member
    rw [traverseMembers, List.mapM_cons, ih, traverseMember]
    cases traverse f value <;> rfl

theorem traverse_arr (f : String → Except ε Json) (items : List Json) :
    traverse f (.arr items) = (items.mapM (traverse f)).map .arr := by
  rw [traverse, traverseItems_eq_mapM]

theorem traverse_obj (f : String → Except ε Json) (members : List (String × Json)) :
    traverse f (.obj members) = (members.mapM (traverseMember f)).map .obj := by
  rw [traverse, traverseMembers_eq_mapM]

theorem placeholders_arr (items : List Json) :
    placeholders (.arr items) = items.flatMap placeholders := by
  rw [placeholders]
  induction items with
  | nil => rfl
  | cons item rest ih => rw [placeholdersOfItems, List.flatMap_cons, ih]

theorem placeholders_obj (members : List (String × Json)) :
    placeholders (.obj members) = members.flatMap fun member => member.2.placeholders := by
  rw [placeholders]
  induction members with
  | nil => rfl
  | cons member rest ih => rw [placeholdersOfMembers, List.flatMap_cons, ih]

open Placeholder (substitute)

/-- Replacing the placeholders of a value succeeds if a value is found for each of them, and else
fails as the first failure does that it meets. -/
theorem follows_traverse (value : String → Except ε (Option Json)) (target : Json) :
    Follows value target.placeholders (target.traverse (substitute value)) := by
  induction target using Json.induct with
  | null | bool | int | float => exact fun name hmem => absurd hmem List.not_mem_nil
  | str text => exact Placeholder.follows_substitute value text
  | arr items ih =>
    rw [traverse_arr, placeholders_arr]
    exact (Follows.mapM ih).map _
  | obj members ih =>
    rw [traverse_obj, placeholders_obj]
    exact (Follows.mapM fun member hmem => (ih member hmem).map _).map _

theorem traverse_mapError (r : ε → ε') {f : String → Except ε (Option Json)}
    {g : String → Except ε' (Option Json)} {target : Json}
    (h : ∀ name ∈ target.placeholders, g name = (f name).mapError r) :
    target.traverse (substitute g) = (target.traverse (substitute f)).mapError r := by
  induction target using Json.induct with
  | null | bool | int | float => rfl
  | str text => exact Placeholder.substitute_mapError r h
  | arr items ih =>
    rw [placeholders_arr] at h
    rw [traverse_arr, traverse_arr, ← map_mapError]
    refine congrArg _ (mapM_mapError r fun item hmem => ?_)
    exact ih item hmem fun name hname => h name (List.mem_flatMap.2 ⟨item, hmem, hname⟩)
  | obj members ih =>
    rw [placeholders_obj] at h
    rw [traverse_obj, traverse_obj, ← map_mapError]
    refine congrArg _ (mapM_mapError r fun member hmem => ?_)
    rw [traverseMember, traverseMember, ← map_mapError]
    refine congrArg _ (ih member hmem fun name hname => ?_)
    exact h name (List.mem_flatMap.2 ⟨member, hmem, hname⟩)

theorem traverse_congr {f g : String → Except ε (Option Json)} {target : Json}
    (h : ∀ name ∈ target.placeholders, g name = f name) :
    target.traverse (substitute g) = target.traverse (substitute f) := by
  have hid {α : Type} (result : Except ε α) : result.mapError id = result := by
    cases result <;> rfl
  have htraverse := traverse_mapError id fun name hname => (h name hname).trans (hid _).symm
  rw [hid] at htraverse
  exact htraverse

end Json

end Rehearsal
