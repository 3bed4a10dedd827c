import Mathlib.Data.List.Basic
import Rehearsal.Proofs.Placeholder

/-!
# Which tokens are placeholders

`Placeholder.token` makes a token of any text, but only the tokens of names are read as placeholders
(`Placeholder.pieces_token_iff`). Cutting a string into pieces loses nothing of it
(`Placeholder.flatMap_pieces`), so a value none of whose placeholders has a value stays as it is
when placeholders are replaced (`Json.traverse_of_valueless`).
-/

namespace Rehearsal

namespace Placeholder

/-- Whether the characters are those of a name. -/
def isNameOf : List Char → Bool
  | [] => false
  | first :: rest => isNameStart first && rest.all isNameRest

/-- Whether a text is a name that a placeholder can have. -/
def isName (name : String) : Bool := isNameOf name.toList

/-- The characters of a piece. -/
def Piece.chars : Piece → List Char
  | .char c => [c]
  | .token name => (Placeholder.token name).toList

theorem toList_token (name : String) : (token name).toList = '$' :: '(' :: (name.toList ++ [')']) := by
  simp [token]

/-- A placeholder at the front is `$(`, a name and `)`. -/
theorem nameAt?_eq_some_iff {cs name : List Char} :
    nameAt? cs = some name ↔
      isNameOf name = true ∧ ∃ rest, cs = '$' :: '(' :: (name ++ ')' :: rest) := by
  constructor
  · intro h
    unfold nameAt? at h
    split at h
    · next c rest =>
      split at h
      · next hname =>
        cases h
        rw [Bool.and_eq_true, beq_iff_eq, List.head?_eq_some_iff] at hname
        obtain ⟨hstart, tail, htail⟩ := hname
        refine ⟨?_, tail, ?_⟩
        · rw [isNameOf, hstart, List.all_takeWhile]
          rfl
        · rw [List.cons_append, ← htail, List.takeWhile_append_dropWhile]
      · cases h
    · cases h
  · rintro ⟨hname, rest, rfl⟩
    cases name with
    | nil => cases hname
    | cons first name =>
      rw [isNameOf, Bool.and_eq_true, List.all_eq_true] at hname
      have hclose : isNameRest ')' = false := by decide
      simp [nameAt?, hname.1, List.takeWhile_append_of_pos hname.2,
        List.dropWhile_append_of_pos hname.2, hclose]

/-! ### Cutting -/

theorem piecesAfter_of_length_le {skip : Nat} {cs : List Char} (h : cs.length ≤ skip) :
    piecesAfter skip cs = [] := by
  induction cs generalizing skip with
  | nil => rw [piecesAfter]
  | cons c cs ih =>
    cases skip with
    | zero => simp at h
    | succ skip => exact ih (by simpa using h)

/-- Put together again, the pieces are what was cut. -/
theorem flatMap_piecesAfter (skip : Nat) (cs : List Char) :
    (piecesAfter skip cs).flatMap Piece.chars = cs.drop skip := by
  fun_induction piecesAfter skip cs with
  | case1 skip => simp
  | case2 skip c rest ih => simpa using ih
  | case3 c rest name hname ih =>
    obtain ⟨-, tail, htail⟩ := nameAt?_eq_some_iff.1 hname
    obtain ⟨rfl, rfl⟩ := List.cons.inj htail
    have hdrop : ('(' :: (name ++ ')' :: tail)).drop (name.length + 2) = tail := by
      rw [List.drop_succ_cons, ← List.singleton_append, ← List.append_assoc]
      exact List.drop_left' (by simp)
    rw [List.flatMap_cons, ih, hdrop, Piece.chars, toList_token]
    simp
  | case4 c rest hname ih => simpa [Piece.chars] using ih

theorem flatMap_pieces (text : String) : (pieces text).flatMap Piece.chars = text.toList :=
  flatMap_piecesAfter 0 text.toList

theorem isName_of_mem_piecesAfter {skip : Nat} {cs : List Char} {name : String}
    (h : .token name ∈ piecesAfter skip cs) : isName name = true := by
  fun_induction piecesAfter skip cs with
  | case1 skip => cases h
  | case2 skip c rest ih => exact ih h
  | case3 c rest found hname ih =>
    rcases List.mem_cons.1 h with heq | h
    · cases heq
      rw [isName, String.toList_ofList]
      exact (nameAt?_eq_some_iff.1 hname).1
    · exact ih h
  | case4 c rest hname ih =>
    rcases List.mem_cons.1 h with heq | h
    · cases heq
    · exact ih h

/-- Only names are the names of placeholders. -/
theorem isName_of_mem_names {text name : String} (h : name ∈ names text) : isName name = true :=
  isName_of_mem_piecesAfter (mem_names_iff.1 h)

theorem token_injective {name other : String} (h : token name = token other) : name = other := by
  have hchars := congrArg String.toList h
  rw [toList_token, toList_token] at hchars
  exact String.toList_injective (by simpa using hchars)

/-- The token of a text is read as the placeholder of that text if and only if the text is a
name, and never as that of another. -/
theorem pieces_token_iff {name other : String} :
    pieces (token name) = [.token other] ↔ name = other ∧ isName name = true := by
  constructor
  · intro h
    have hother : isName other = true := isName_of_mem_names (mem_names_iff.2 (by rw [h]; simp))
    have hchars : (token other).toList = (token name).toList := by
      rw [← flatMap_pieces (token name), h]
      simp [Piece.chars]
    obtain rfl := token_injective (String.toList_injective hchars)
    exact ⟨rfl, hother⟩
  · rintro ⟨rfl, hname⟩
    have hat : nameAt? ('$' :: '(' :: (name.toList ++ [')'])) = some name.toList :=
      nameAt?_eq_some_iff.2 ⟨hname, [], rfl⟩
    rw [pieces, toList_token, piecesAfter, hat]
    simp only [String.ofList_toList]
    rw [piecesAfter_of_length_le (by simp)]

/-! ### Replacing -/

variable {ε : Type} {value : String → Except ε (Option Json)}

/-- What the token of a name is replaced by is what the name stands for. -/
theorem substitute_token {name : String} (h : isName name = true) :
    substitute value (token name) = (value name).map fun json => json.getD (.str (token name)) := by
  rw [substitute, pieces_token_iff.2 ⟨rfl, h⟩]

/-- The token of a text that is no name is replaced by a text, if anything. -/
theorem exists_str_of_substitute_token {name : String} {json : Json} (h : isName name = false)
    (hjson : substitute value (token name) = .ok json) : ∃ text, json = .str text := by
  rw [substitute] at hjson
  split at hjson
  · next other hpieces =>
    rw [(pieces_token_iff.1 hpieces).2] at h
    cases h
  · generalize (pieces (token name)).mapM (pieceText value) = texts at hjson
    cases texts with
    | error e => cases hjson
    | ok texts =>
      cases hjson
      exact ⟨_, rfl⟩

/-- Where no piece has a value the texts of the pieces are their characters. -/
theorem exists_mapM_pieceText {parts : List Piece}
    (h : ∀ name, .token name ∈ parts → value name = .ok none) :
    ∃ texts, parts.mapM (pieceText value) = .ok texts ∧
      (String.join texts).toList = parts.flatMap Piece.chars := by
  induction parts with
  | nil => exact ⟨[], rfl, rfl⟩
  | cons piece parts ih =>
    obtain ⟨texts, htexts, hjoin⟩ := ih fun name hmem => h name (List.mem_cons_of_mem _ hmem)
    cases piece with
    | char c =>
      refine ⟨c.toString :: texts, ?_, ?_⟩
      · rw [List.mapM_cons, htexts]
        rfl
      · simp [String.join_cons, hjoin, Piece.chars]
    | token name =>
      refine ⟨token name :: texts, ?_, ?_⟩
      · rw [List.mapM_cons, htexts, pieceText, h name List.mem_cons_self]
        rfl
      · simp [String.join_cons, hjoin, Piece.chars]

/-- A string stays as it is if none of its placeholders has a value. -/
theorem substitute_of_valueless {text : String} (h : ∀ name ∈ names text, value name = .ok none) :
    substitute value text = .ok (.str text) := by
  rw [substitute]
  split
  · next name hpieces =>
    rw [h name (mem_names_iff.2 (by rw [hpieces]; exact List.mem_cons_self))]
    rfl
  · obtain ⟨texts, htexts, hjoin⟩ :=
      exists_mapM_pieceText fun name hmem => h name (mem_names_iff.2 hmem)
    have heq : String.join texts = text := String.toList_injective (by rw [hjoin, flatMap_pieces])
    rw [htexts, ← heq]
    rfl

end Placeholder

namespace Json

theorem isName_of_mem_placeholders {value : Json} {name : String} (h : name ∈ value.placeholders) :
    Placeholder.isName name = true := by
  induction value using Json.induct with
  | null | bool | int | float => exact absurd h List.not_mem_nil
  | str text => exact Placeholder.isName_of_mem_names h
  | arr items ih =>
    rw [placeholders_arr] at h
    obtain ⟨item, hitem, hname⟩ := List.mem_flatMap.1 h
    exact ih item hitem hname
  | obj members ih =>
    rw [placeholders_obj] at h
    obtain ⟨member, hmember, hname⟩ := List.mem_flatMap.1 h
    exact ih member hmember hname

variable {ε : Type} {value : String → Except ε (Option Json)}

/-- A value stays as it is if none of its placeholders has a value. -/
theorem traverse_of_valueless {target : Json}
    (h : ∀ name ∈ target.placeholders, value name = .ok none) :
    target.traverse (Placeholder.substitute value) = .ok target := by
  induction target using Json.induct with
  | null | bool | int | float => rfl
  | str text => exact Placeholder.substitute_of_valueless h
  | arr items ih =>
    rw [placeholders_arr] at h
    rw [traverse_arr, mapM_eq_ok_self fun item hmem =>
      ih item hmem fun name hname => h name (List.mem_flatMap.2 ⟨item, hmem, hname⟩)]
    rfl
  | obj members ih =>
    rw [placeholders_obj] at h
    rw [traverse_obj, mapM_eq_ok_self fun member hmem => ?_]
    · rfl
    · rw [traverseMember, ih member hmem fun name hname =>
        h name (List.mem_flatMap.2 ⟨member, hmem, hname⟩)]
      rfl

/-- A value without placeholders stays as it is. -/
theorem traverse_of_no_placeholders {target : Json} (h : target.placeholders = []) :
    target.traverse (Placeholder.substitute value) = .ok target :=
  traverse_of_valueless fun name hmem => absurd hmem (by rw [h]; exact List.not_mem_nil)

end Json

end Rehearsal
