import Rehearsal.Proofs.Json.Compact

/-!
# Tokens that replacing brings about

Once its placeholders are replaced a text can have tokens again. A token comes with a value that is
put in (`Placeholder.Brings`), or it is formed in the text (`Placeholder.Forms`): it stands where
two pieces meet, or in the name of a member of an object, which is no placeholder until the object
becomes part of a text. There is no third way (`Json.mem_placeholders_traverse_iff`).
-/

namespace Rehearsal

variable {ε : Type} {value : String → Except ε (Option Json)}

namespace Placeholder

/-- Replacing the placeholders of a text makes a placeholder that no value has. -/
inductive Forms (value : String → Except ε (Option Json)) (text name : String) : Prop
  /-- The token stands across the point where two pieces meet. -/
  | seam {left right : List Piece} (hname : isName name = true)
      (hpieces : pieces text = left ++ right)
      (h : Straddles (token name).toList (left.flatMap (replacement value))
        (right.flatMap (replacement value)))
  /-- The token stands in the name of a member of a value that is put into a larger text. -/
  | member {inner member : String} {json : Json} (hlarger : pieces text ≠ [.token inner])
      (hinner : inner ∈ names text) (hvalue : value inner = .ok (some json))
      (hmember : json.HasMember member) (hname : name ∈ names member)

/-- The value of a placeholder of a text has itself the placeholder. -/
def Brings (value : String → Except ε (Option Json)) (text name : String) : Prop :=
  ∃ inner ∈ names text, ∃ json, value inner = .ok (some json) ∧ name ∈ json.placeholders

/-- A text that is nothing but one placeholder forms none. -/
theorem not_forms_of_pieces_eq {text only name : String} (hpieces : pieces text = [.token only]) :
    ¬ Forms value text name := by
  rintro (@⟨left, right, -, hsplit, front, back, hfront, hback, -, hleft, hright⟩ |
    ⟨hlarger, hinner, -, -, -⟩)
  · rw [hpieces] at hsplit
    rcases List.append_eq_singleton_iff.1 hsplit.symm with ⟨rfl, -⟩ | ⟨-, rfl⟩
    · exact hfront (List.suffix_nil.1 hleft)
    · exact hback (List.prefix_nil.1 hright)
  · obtain rfl : _ = only := by simpa [hpieces] using mem_names_iff.1 hinner
    exact hlarger hpieces

/-- A token in what takes the place of a piece. -/
theorem infix_replacement_iff {name : String} (hname : isName name = true) {piece : Piece}
    (hvalued : ∀ inner, piece = .token inner → ∃ json, value inner = .ok (some json)) :
    (token name).toList <:+: replacement value piece ↔
      ∃ inner json, piece = .token inner ∧ value inner = .ok (some json) ∧
        (name ∈ json.placeholders ∨ ∃ member, json.HasMember member ∧ name ∈ names member) := by
  cases piece with
  | char c =>
    refine iff_of_false (fun h => ?_) fun ⟨_, _, h, _⟩ => nomatch h
    have hlength := h.length_le
    rw [toList_token] at hlength
    simp [replacement] at hlength
  | token inner =>
    obtain ⟨json, hvalue⟩ := hvalued inner rfl
    rw [replacement, hvalue, Json.infix_plainText_iff hname]
    constructor
    · exact fun h => ⟨inner, json, rfl, hvalue, h⟩
    · rintro ⟨_, _, ⟨⟩, hother, h⟩
      rw [hvalue] at hother
      cases hother
      exact h

/-- A token in a text whose placeholders were replaced, if the text was more than one placeholder. -/
theorem infix_flatMap_replacement_iff {text name : String} (hname : isName name = true)
    (hvalued : ∀ inner ∈ names text, ∃ json, value inner = .ok (some json))
    (hlarger : ∀ only, pieces text ≠ [.token only]) :
    (token name).toList <:+: (pieces text).flatMap (replacement value) ↔
      Forms value text name ∨ Brings value text name := by
  have hpiece {piece : Piece} (hmem : piece ∈ pieces text) :
      ∀ inner, piece = .token inner → ∃ json, value inner = .ok (some json) := by
    rintro inner rfl
    exact hvalued inner (mem_names_iff.2 hmem)
  rw [infix_flatMap_iff (show (token name).toList ≠ [] by simp [toList_token])]
  constructor
  · rintro (⟨piece, hpart, hwithin⟩ | ⟨left, right, hpieces, hseam⟩)
    · obtain ⟨inner, found, rfl, hfound, hplace | ⟨member, hmember, hplace⟩⟩ :=
        (infix_replacement_iff hname (hpiece hpart)).1 hwithin
      · exact .inr ⟨inner, mem_names_iff.2 hpart, found, hfound, hplace⟩
      · exact .inl (.member (hlarger inner) (mem_names_iff.2 hpart) hfound hmember hplace)
    · exact .inl (.seam hname hpieces hseam)
  · rintro ((⟨-, hpieces, hseam⟩ | ⟨-, hinner, hfound, hmember, hplace⟩) |
      ⟨inner, hinner, found, hfound, hplace⟩)
    · exact .inr ⟨_, _, hpieces, hseam⟩
    · have hpart := mem_names_iff.1 hinner
      exact .inl ⟨_, hpart, (infix_replacement_iff hname (hpiece hpart)).2
        ⟨_, _, rfl, hfound, .inr ⟨_, hmember, hplace⟩⟩⟩
    · have hpart := mem_names_iff.1 hinner
      exact .inl ⟨_, hpart, (infix_replacement_iff hname (hpiece hpart)).2
        ⟨_, _, rfl, hfound, .inl hplace⟩⟩

theorem isName_of_forms_or_brings {text name : String}
    (h : Forms value text name ∨ Brings value text name) : isName name = true := by
  rcases h with (⟨hname, -, -⟩ | ⟨-, -, -, -, hname⟩) | ⟨-, -, json, -, hplace⟩
  · exact hname
  · exact isName_of_mem_names hname
  · exact Json.isName_of_mem_placeholders hplace

/-- The placeholders of a text once its own are replaced. -/
theorem mem_placeholders_substitute_iff {text name : String} {json : Json}
    (hvalued : ∀ inner ∈ names text, ∃ json, value inner = .ok (some json))
    (h : substitute value text = .ok json) :
    name ∈ json.placeholders ↔ Forms value text name ∨ Brings value text name := by
  rw [substitute] at h
  split at h
  · next only hpieces =>
    have hmem : only ∈ names text := mem_names_iff.2 (by rw [hpieces]; exact List.mem_cons_self)
    obtain ⟨found, hfound⟩ := hvalued only hmem
    rw [hfound] at h
    cases h
    rw [or_iff_right (not_forms_of_pieces_eq hpieces)]
    constructor
    · exact fun h => ⟨only, hmem, found, hfound, h⟩
    · rintro ⟨inner, hinner, other, hother, h⟩
      obtain rfl : inner = only := by simpa [hpieces] using mem_names_iff.1 hinner
      rw [hfound] at hother
      cases hother
      exact h
  · next hlarger =>
    obtain ⟨texts, htexts, rfl⟩ := exists_of_map_eq_ok h
    have hwithin (hname : isName name = true) :
        name ∈ names (String.join texts) ↔ Forms value text name ∨ Brings value text name := by
      rw [← infix_token_iff hname, toList_join_of_mapM htexts,
        infix_flatMap_replacement_iff hname hvalued hlarger]
    constructor
    · exact fun hmem => (hwithin (isName_of_mem_names hmem)).1 hmem
    · exact fun h => (hwithin (isName_of_forms_or_brings h)).2 h

end Placeholder

namespace Json

open Placeholder (substitute Forms Brings)

/-- The placeholders of a value once its own are replaced. -/
theorem mem_placeholders_traverse_iff {target json : Json} {name : String}
    (hvalued : ∀ inner ∈ target.placeholders, ∃ json, value inner = .ok (some json))
    (h : target.traverse (substitute value) = .ok json) :
    name ∈ json.placeholders ↔
      ∃ text, target.HasString text ∧ (Forms value text name ∨ Brings value text name) := by
  induction target using Json.induct generalizing json with
  | null | bool | int | float =>
    cases h
    exact iff_of_false List.not_mem_nil fun ⟨_, h, _⟩ => nomatch h
  | str text =>
    rw [Placeholder.mem_placeholders_substitute_iff hvalued h]
    constructor
    · exact fun h => ⟨text, .self, h⟩
    · rintro ⟨_, ⟨⟩, h⟩
      exact h
  | arr items ih =>
    rw [placeholders_arr] at hvalued
    rw [traverse_arr] at h
    obtain ⟨results, hresults, rfl⟩ := exists_of_map_eq_ok h
    have hitem {item : Json} (hmem : item ∈ items) {result : Json}
        (hresult : item.traverse (substitute value) = .ok result) :=
      ih item hmem (fun inner hinner => hvalued inner (List.mem_flatMap.2 ⟨item, hmem, hinner⟩))
        hresult
    simp only [placeholders_arr, List.mem_flatMap, hasString_arr]
    constructor
    · rintro ⟨result, hmem, hplace⟩
      obtain ⟨item, hmem, hresult⟩ := exists_mem_of_mem_mapM hresults hmem
      obtain ⟨text, hstring, h⟩ := (hitem hmem hresult).1 hplace
      exact ⟨text, ⟨item, hmem, hstring⟩, h⟩
    · rintro ⟨text, ⟨item, hmem, hstring⟩, h⟩
      obtain ⟨result, hmem', hresult⟩ := exists_mem_mapM_of_mem hresults hmem
      exact ⟨result, hmem', (hitem hmem hresult).2 ⟨text, hstring, h⟩⟩
  | obj members ih =>
    rw [placeholders_obj] at hvalued
    rw [traverse_obj] at h
    obtain ⟨results, hresults, rfl⟩ := exists_of_map_eq_ok h
    have hmember {member : String × Json} (hmem : member ∈ members) {result : Json}
        (hresult : member.2.traverse (substitute value) = .ok result) :=
      ih member hmem
        (fun inner hinner => hvalued inner (List.mem_flatMap.2 ⟨member, hmem, hinner⟩)) hresult
    simp only [placeholders_obj, List.mem_flatMap, hasString_obj]
    constructor
    · rintro ⟨result, hmem, hplace⟩
      obtain ⟨member, hmem', hresult⟩ := exists_mem_of_mem_mapM hresults hmem
      obtain ⟨found, hfound, rfl⟩ := exists_of_map_eq_ok hresult
      obtain ⟨text, hstring, h⟩ := (hmember hmem' hfound).1 hplace
      exact ⟨text, ⟨member, hmem', hstring⟩, h⟩
    · rintro ⟨text, ⟨member, hmem, hstring⟩, h⟩
      obtain ⟨result, hmem', hresult⟩ := exists_mem_mapM_of_mem hresults hmem
      obtain ⟨found, hfound, rfl⟩ := exists_of_map_eq_ok hresult
      exact ⟨_, hmem', (hmember hmem hfound).2 ⟨text, hstring, h⟩⟩

end Json

end Rehearsal
