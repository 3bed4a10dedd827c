import Mathlib.Data.List.Infix
import Rehearsal.Proofs.Json.PlainText
import Rehearsal.Proofs.Placeholder.Token

/-!
# Values that replacing leaves as they are

Replacing the placeholders of a value can leave it as it is although some of them have values, but
only if a placeholder stands for a string with that very placeholder in it
(`Json.exists_self_of_traverse_eq`): where the texts that take the places of the tokens come out as
the tokens again, one of them has to reach around the token whose place it takes.
-/

namespace Rehearsal

namespace Placeholder

/-! ### Tokens inside a text -/

/-- A character that no name begins or goes on with is in no name. -/
theorem not_mem_of_isNameOf {c : Char} (hstart : isNameStart c = false) (hrest : isNameRest c = false)
    {name : List Char} (h : isNameOf name = true) : c ∉ name := by
  cases name with
  | nil => exact List.not_mem_nil
  | cons first rest =>
    rw [isNameOf, Bool.and_eq_true, List.all_eq_true] at h
    rw [List.mem_cons, not_or]
    refine ⟨?_, fun hmem => ?_⟩
    · rintro rfl
      rw [hstart] at h
      cases h.1
    · rw [h.2 c hmem] at hrest
      cases hrest

/-- There are no brackets among some characters. -/
def Bracketless (cs : List Char) : Prop := ∀ c, Json.isBracket c = true → c ∉ cs

theorem bracketless_token {name : String} (h : isName name = true) :
    Bracketless (token name).toList := by
  intro c hc
  rw [Json.isBracket, Bool.or_eq_true, beq_iff_eq, beq_iff_eq] at hc
  have hname : c ∉ name.toList := by
    rcases hc with rfl | rfl
    · exact not_mem_of_isNameOf (by decide) (by decide) h
    · exact not_mem_of_isNameOf (by decide) (by decide) h
  have houter : c ≠ '$' ∧ c ≠ '(' ∧ c ≠ ')' := by rcases hc with rfl | rfl <;> decide
  rw [toList_token]
  simp [hname, houter]

/-- No token begins inside another. -/
theorem infix_tail_of_infix {inside name tail : List Char} (hname : '(' ∉ name)
    (h : '$' :: '(' :: inside <:+: name ++ ')' :: tail) : '$' :: '(' :: inside <:+: tail := by
  induction name with
  | nil =>
    rcases List.infix_cons_iff.1 h with hprefix | hwithin
    · exact absurd (List.cons_prefix_cons.1 hprefix).1 (by decide)
    · exact hwithin
  | cons c name ih =>
    rw [List.mem_cons, not_or] at hname
    rcases List.infix_cons_iff.1 h with hprefix | hwithin
    · -- The parenthesis of the inner token would have to be the one that closes the outer one.
      obtain ⟨-, hparen⟩ := List.cons_prefix_cons.1 hprefix
      cases name with
      | nil => exact absurd (List.cons_prefix_cons.1 hparen).1 (by decide)
      | cons d name =>
        rw [← (List.cons_prefix_cons.1 hparen).1] at hname
        exact absurd List.mem_cons_self hname.2
    · exact ih hname.2 hwithin

theorem token_mem_piecesAfter {name : String} (hname : isName name = true) {skip : Nat}
    {cs : List Char} (h : (token name).toList <:+: cs.drop skip) :
    .token name ∈ piecesAfter skip cs := by
  rw [toList_token] at h
  have hfront : ∀ {cs}, '$' :: '(' :: (name.toList ++ [')']) <+: cs → nameAt? cs = some name.toList := by
    rintro _ ⟨rest, rfl⟩
    exact nameAt?_eq_some_iff.2 ⟨hname, rest, by simp⟩
  induction skip, cs using piecesAfter.induct with
  | case1 skip => exact absurd (List.eq_nil_of_infix_nil (List.drop_nil ▸ h)) (by simp)
  | case2 skip c rest ih =>
    rw [piecesAfter]
    exact ih (by simpa using h)
  | case3 c rest found hfound ih =>
    rw [piecesAfter, hfound]
    rcases List.infix_cons_iff.1 h with hprefix | hwithin
    · rw [hfront hprefix, Option.some.injEq] at hfound
      rw [← hfound]
      simp only [String.ofList_toList]
      exact List.mem_cons_self
    · obtain ⟨hof, tail, htail⟩ := nameAt?_eq_some_iff.1 hfound
      obtain ⟨rfl, rfl⟩ := List.cons.inj htail
      refine List.mem_cons_of_mem _ (ih ?_)
      have hdrop : ('(' :: (found ++ ')' :: tail)).drop (found.length + 2) = tail := by
        rw [List.drop_succ_cons, ← List.singleton_append, ← List.append_assoc]
        exact List.drop_left' (by simp)
      rw [hdrop]
      rcases List.infix_cons_iff.1 hwithin with hprefix | hwithin
      · exact absurd (List.cons_prefix_cons.1 hprefix).1 (by decide)
      · exact infix_tail_of_infix (not_mem_of_isNameOf (by decide) (by decide) hof) hwithin
  | case4 c rest hnone ih =>
    rw [piecesAfter, hnone]
    rcases List.infix_cons_iff.1 h with hprefix | hwithin
    · rw [hfront hprefix] at hnone
      cases hnone
    · exact List.mem_cons_of_mem _ (ih hwithin)

/-- A token of a name in a text is a placeholder of the text, wherever it stands. -/
theorem mem_names_of_infix_token {name text : String} (hname : isName name = true)
    (h : (token name).toList <:+: text.toList) : name ∈ names text :=
  mem_names_iff.2 (token_mem_piecesAfter hname h)

/-! ### Replacing the tokens by themselves -/

/-- What follows a text that stands behind other characters on one side and in front on the other:
those other characters, in some order. -/
theorem exists_perm_of_append_eq {behind cs rest others : List Char}
    (h : behind ++ cs ++ rest = cs ++ others) : ∃ left, left.Perm behind ∧ left ++ rest = others := by
  have hprefix : cs <+: behind ++ cs := by
    refine List.prefix_of_prefix_length_le (List.prefix_append cs others) ?_ ?_
    · rw [← h]
      exact List.prefix_append _ rest
    · rw [List.length_append]
      omega
  obtain ⟨left, hleft⟩ := hprefix
  rw [← hleft, List.append_assoc] at h
  refine ⟨left, ?_, List.append_cancel_left h⟩
  have hperm : (cs ++ left).Perm (cs ++ behind) := hleft ▸ List.perm_append_comm
  exact (List.perm_append_left_iff cs).1 hperm

theorem Bracketless.append {cs cs' : List Char} (h : Bracketless cs) (h' : Bracketless cs') :
    Bracketless (cs ++ cs') := fun c hc hmem =>
  (List.mem_append.1 hmem).elim (h c hc) (h' c hc)

theorem Bracketless.subset {cs cs' : List Char} (h : Bracketless cs) (hsub : cs' ⊆ cs) :
    Bracketless cs' := fun c hc hmem => h c hc (hsub hmem)

/-- What replaces some placeholder of a text has the token of that very placeholder in it, behind
characters that are no brackets. -/
def BringsItself (moves : String → Prop) (chars : Piece → List Char) (parts : List Piece) : Prop :=
  ∃ name, .token name ∈ parts ∧ moves name ∧
    ∃ ahead, Bracketless ahead ∧ ahead ++ (token name).toList <+: chars (.token name)

theorem BringsItself.cons {moves : String → Prop} {chars : Piece → List Char} {parts : List Piece}
    (h : BringsItself moves chars parts) (piece : Piece) :
    BringsItself moves chars (piece :: parts) := by
  obtain ⟨name, hmem, hfound⟩ := h
  exact ⟨name, List.mem_cons_of_mem piece hmem, hfound⟩

/-- Where the pieces of a text are replaced and the text comes out as it was, some placeholder that
is replaced brings itself. The induction is on the pieces; `behind` are the characters of the pieces
in front that nothing has taken the place of yet. -/
theorem bringsItself_of_eq {moves : String → Prop} {chars : Piece → List Char}
    (hstays : ∀ piece, (∀ name, piece = .token name → ¬ moves name) → chars piece = piece.chars)
    {parts : List Piece} (hnames : ∀ name, .token name ∈ parts → isName name = true)
    {behind : List Char} (hbehind : Bracketless behind)
    (hmoves : behind ≠ [] ∨ ∃ name, .token name ∈ parts ∧ moves name)
    (heq : behind ++ parts.flatMap Piece.chars = parts.flatMap chars) :
    BringsItself moves chars parts := by
  induction parts generalizing behind with
  | nil =>
    rcases hmoves with hne | ⟨name, hmem, -⟩
    · exact absurd (by simpa using heq) hne
    · exact absurd hmem List.not_mem_nil
  | cons piece parts ih =>
    have hrest : ∀ name, .token name ∈ parts → isName name = true :=
      fun name hmem => hnames name (List.mem_cons_of_mem piece hmem)
    rw [List.flatMap_cons, List.flatMap_cons, ← List.append_assoc] at heq
    by_cases hpiece : ∃ name, piece = .token name ∧ moves name
    · obtain ⟨name, rfl, hname⟩ := hpiece
      have hself (h : behind ++ (token name).toList <+: chars (.token name)) :
          BringsItself moves chars (.token name :: parts) :=
        ⟨name, List.mem_cons_self, hname, behind, hbehind, h⟩
      -- Either the replacement reaches beyond the token, or something of the token is left over.
      rcases List.append_eq_append_iff.1 heq with ⟨beyond, hbeyond, -⟩ | ⟨left, hleft, hparts⟩
      · exact hself ⟨beyond, hbeyond.symm⟩
      · by_cases hnil : left = []
        · rw [hnil, List.append_nil] at hleft
          exact hself (hleft ▸ List.prefix_rfl)
        · have hboth := hbehind.append (bracketless_token (hnames name List.mem_cons_self))
          have hsub : left ⊆ behind ++ (token name).toList := by
            change left ⊆ behind ++ Piece.chars (.token name)
            rw [hleft]
            exact List.subset_append_right _ left
          exact (ih hrest (hboth.subset hsub) (.inl hnil) hparts.symm).cons _
    · rw [hstays piece fun name heq hname => hpiece ⟨name, heq, hname⟩] at heq
      obtain ⟨left, hperm, hparts⟩ := exists_perm_of_append_eq heq
      refine (ih hrest (hbehind.subset hperm.subset) ?_ hparts).cons piece
      rcases hmoves with hne | ⟨name, hmem, hname⟩
      · refine .inl fun hnil => hne ?_
        rw [hnil] at hperm
        exact hperm.nil_eq.symm
      · rcases List.mem_cons.1 hmem with hmem | hmem
        · exact absurd ⟨name, hmem.symm, hname⟩ hpiece
        · exact .inr ⟨name, hmem, hname⟩

/-! ### One string -/

variable {ε : Type} {value : String → Except ε (Option Json)}

/-- The characters that take the place of a piece. -/
def replacement (value : String → Except ε (Option Json)) : Piece → List Char
  | .char c => [c]
  | .token name =>
    match value name with
    | .ok (some json) => json.plainText.toList
    | _ => (token name).toList

theorem replacement_of_valueless {piece : Piece}
    (h : ∀ name, piece = .token name → ¬ ∃ json, value name = .ok (some json)) :
    replacement value piece = piece.chars := by
  cases piece with
  | char c => rfl
  | token name =>
    rw [replacement]
    split
    · next json hvalue => exact absurd ⟨json, hvalue⟩ (h name rfl)
    · rfl

/-- If a text begins with a token, perhaps behind characters that are no brackets, then it is no
text of a value other than a string. -/
theorem exists_str_of_token_prefix {name : String} (hname : isName name = true) {ahead : List Char}
    (hahead : Bracketless ahead) {json : Json}
    (h : ahead ++ (token name).toList <+: json.plainText.toList) : ∃ text, json = .str text := by
  rcases json.plainText_cases with hstr | hdollar | ⟨c, rest, htext, hc⟩
  · exact hstr
  · refine absurd (h.subset (List.mem_append_right ahead ?_)) hdollar
    rw [toList_token]
    exact List.mem_cons_self
  · rw [htext] at h
    have hne : ahead ++ (token name).toList ≠ [] := by
      rw [toList_token]
      exact List.append_ne_nil_of_right_ne_nil _ (List.cons_ne_nil _ _)
    obtain ⟨first, tail, hfirst⟩ := List.exists_cons_of_ne_nil hne
    rw [hfirst] at h
    obtain ⟨rfl, -⟩ := List.cons_prefix_cons.1 h
    have hmem : first ∈ ahead ++ (token name).toList := hfirst ▸ List.mem_cons_self
    rcases List.mem_append.1 hmem with hmem | hmem
    · exact absurd hmem (hahead first hc)
    · exact absurd hmem (bracketless_token hname first hc)

theorem toList_join_of_mapM {parts : List Piece} {texts : List String}
    (h : parts.mapM (pieceText value) = .ok texts) :
    (String.join texts).toList = parts.flatMap (replacement value) := by
  induction parts generalizing texts with
  | nil => cases h; rfl
  | cons piece parts ih =>
    rw [List.mapM_cons] at h
    obtain ⟨text, htext, h⟩ := exists_of_bind_eq_ok h
    obtain ⟨rest, hrest, h⟩ := exists_of_bind_eq_ok h
    cases h
    have hpiece : text.toList = replacement value piece := by
      cases piece with
      | char c => cases htext; simp [replacement]
      | token name =>
        rw [pieceText] at htext
        rw [replacement]
        cases hvalue : value name with
        | error e => rw [hvalue] at htext; cases htext
        | ok found =>
          rw [hvalue] at htext
          cases found <;> (cases htext; rfl)
    rw [String.join_cons, String.toList_append, ih hrest, hpiece, List.flatMap_cons]

/-- The text of what becomes of a text: what takes the place of its pieces. -/
theorem toList_plainText_of_substitute {text : String} {json : Json}
    (hvalued : ∀ name ∈ names text, ∃ json, value name = .ok (some json))
    (h : substitute value text = .ok json) :
    json.plainText.toList = (pieces text).flatMap (replacement value) := by
  rw [substitute] at h
  split at h
  · next only hpieces =>
    obtain ⟨found, hfound⟩ := hvalued only (mem_names_iff.2 (by rw [hpieces]; exact List.mem_cons_self))
    rw [hfound] at h
    cases h
    simp [hpieces, replacement, hfound]
  · obtain ⟨texts, htexts, rfl⟩ := exists_of_map_eq_ok h
    exact toList_join_of_mapM htexts

/-- If a string stays as it is although a placeholder of it has a value, then the value of one of
its placeholders is a string that has this placeholder itself. -/
theorem exists_self_of_substitute_eq {text : String} (h : substitute value text = .ok (.str text))
    {name : String} (hname : name ∈ names text) {json : Json} (hvalue : value name = .ok (some json)) :
    ∃ self ∈ names text, ∃ other, value self = .ok (some (.str other)) ∧ self ∈ names other := by
  rw [substitute] at h
  split at h
  · next only hpieces =>
    obtain rfl : name = only := by simpa [hpieces] using mem_names_iff.1 hname
    rw [hvalue] at h
    cases h
    exact ⟨name, hname, text, hvalue, hname⟩
  · cases htexts : (pieces text).mapM (pieceText value) with
    | error e => rw [htexts] at h; cases h
    | ok texts =>
      rw [htexts] at h
      have hjoin : String.join texts = text := by cases h; rfl
      have heq := toList_join_of_mapM htexts
      rw [hjoin, ← flatMap_pieces] at heq
      have hnames : ∀ name, .token name ∈ pieces text → isName name = true := fun name hmem =>
        isName_of_mem_names (mem_names_iff.2 hmem)
      obtain ⟨self, hself, ⟨found, hfound⟩, ahead, hahead, hprefix⟩ :=
        bringsItself_of_eq (fun _ => replacement_of_valueless) hnames
          (fun _ _ => List.not_mem_nil) (.inr ⟨name, mem_names_iff.1 hname, json, hvalue⟩) heq
      rw [replacement, hfound] at hprefix
      obtain ⟨other, rfl⟩ := exists_str_of_token_prefix (hnames self hself) hahead hprefix
      have hwithin : (token self).toList <:+: other.toList :=
        (List.suffix_append ahead _).isInfix.trans hprefix.isInfix
      exact ⟨self, mem_names_iff.2 hself, other, hfound,
        mem_names_of_infix_token (hnames self hself) hwithin⟩

end Placeholder

/-! ### Whole values -/

namespace Json

open Placeholder (substitute)

variable {ε : Type} {value : String → Except ε (Option Json)}

/-- If a value stays as it is although a placeholder of it has a value, then the value of one of its
placeholders is a string that has this placeholder itself. -/
theorem exists_self_of_traverse_eq {target : Json}
    (h : target.traverse (substitute value) = .ok target) {name : String}
    (hname : name ∈ target.placeholders) {json : Json} (hvalue : value name = .ok (some json)) :
    ∃ self ∈ target.placeholders, ∃ text,
      value self = .ok (some (.str text)) ∧ self ∈ Placeholder.names text := by
  induction target using Json.induct with
  | null | bool | int | float => exact absurd hname List.not_mem_nil
  | str text => exact Placeholder.exists_self_of_substitute_eq h hname hvalue
  | arr items ih =>
    rw [placeholders_arr] at hname ⊢
    obtain ⟨item, hitem, hname⟩ := List.mem_flatMap.1 hname
    rw [traverse_arr] at h
    have hitems : items.mapM (traverse (substitute value)) = .ok items :=
      eq_ok_of_map_eq_ok (fun _ _ => Json.arr.inj) h
    obtain ⟨self, hself, hfound⟩ := ih item hitem (eq_ok_of_mapM_eq_self hitems hitem) hname
    exact ⟨self, List.mem_flatMap.2 ⟨item, hitem, hself⟩, hfound⟩
  | obj members ih =>
    rw [placeholders_obj] at hname ⊢
    obtain ⟨member, hmember, hname⟩ := List.mem_flatMap.1 hname
    rw [traverse_obj] at h
    have hmembers : members.mapM (traverseMember (substitute value)) = .ok members :=
      eq_ok_of_map_eq_ok (fun _ _ => Json.obj.inj) h
    have hone : member.2.traverse (substitute value) = .ok member.2 :=
      eq_ok_of_map_eq_ok (fun _ _ heq => (Prod.mk.inj heq).2) (eq_ok_of_mapM_eq_self hmembers hmember)
    obtain ⟨self, hself, hfound⟩ := ih member hmember hone hname
    exact ⟨self, List.mem_flatMap.2 ⟨member, hmember, hself⟩, hfound⟩

end Json

end Rehearsal
