import Rehearsal.Proofs.Infix
import Rehearsal.Proofs.Json.PlainText
import Rehearsal.Proofs.Placeholder.Fixed

/-!
# Tokens in the text of a value

The text that a value has inside a larger text shows its strings and the names of its members, each
in quotes and with some characters escaped, between characters that no token has. So a token stands
in that text if and only if it stands in one of the strings or in one of the names
(`Json.infix_plainText_iff`): none arises from the punctuation or from an escape.
-/

namespace Rehearsal

namespace Placeholder

/-- The tokens in a text are those of its placeholders. -/
theorem infix_token_iff {name text : String} (hname : isName name = true) :
    (token name).toList <:+: text.toList ↔ name ∈ names text := by
  refine ⟨mem_names_of_infix_token hname, fun h => ?_⟩
  rw [← flatMap_pieces text]
  refine (infix_flatMap_iff (by simp [toList_token])).2 (.inl ⟨_, mem_names_iff.1 h, ?_⟩)
  exact List.infix_rfl

end Placeholder

namespace Json

/-- A string stands in a value, at any depth; names of members do not count. -/
inductive HasString (text : String) : Json → Prop
  | self : HasString text (.str text)
  | item {items : List Json} {item : Json} (hmem : item ∈ items) (h : HasString text item) :
      HasString text (.arr items)
  | member {members : List (String × Json)} {member : String × Json} (hmem : member ∈ members)
      (h : HasString text member.2) : HasString text (.obj members)

/-- A value has a member of a name, at any depth. -/
inductive HasMember (name : String) : Json → Prop
  | self {members : List (String × Json)} {value : Json} (hmem : (name, value) ∈ members) :
      HasMember name (.obj members)
  | item {items : List Json} {item : Json} (hmem : item ∈ items) (h : HasMember name item) :
      HasMember name (.arr items)
  | member {members : List (String × Json)} {member : String × Json} (hmem : member ∈ members)
      (h : HasMember name member.2) : HasMember name (.obj members)

variable {text name : String}

theorem hasString_arr {items : List Json} :
    (arr items).HasString text ↔ ∃ item ∈ items, item.HasString text := by
  constructor
  · rintro ⟨⟩
    exact ⟨_, ‹_›, ‹_›⟩
  · rintro ⟨item, hmem, h⟩
    exact .item hmem h

theorem hasString_obj {members : List (String × Json)} :
    (obj members).HasString text ↔ ∃ member ∈ members, member.2.HasString text := by
  constructor
  · rintro ⟨⟩
    exact ⟨_, ‹_›, ‹_›⟩
  · rintro ⟨member, hmem, h⟩
    exact .member hmem h

theorem hasMember_arr {items : List Json} :
    (arr items).HasMember name ↔ ∃ item ∈ items, item.HasMember name := by
  constructor
  · rintro ⟨⟩
    exact ⟨_, ‹_›, ‹_›⟩
  · rintro ⟨item, hmem, h⟩
    exact .item hmem h

theorem hasMember_obj {members : List (String × Json)} :
    (obj members).HasMember name ↔ ∃ member ∈ members, name = member.1 ∨ member.2.HasMember name := by
  constructor
  · intro h
    cases h with
    | self hmem => exact ⟨_, hmem, .inl rfl⟩
    | member hmem h => exact ⟨_, hmem, .inr h⟩
  · rintro ⟨member, hmem, rfl | h⟩
    · exact .self hmem
    · exact .member hmem h

/-- The placeholders of a value are those of its strings. -/
theorem mem_placeholders_iff {value : Json} :
    name ∈ value.placeholders ↔ ∃ text, value.HasString text ∧ name ∈ Placeholder.names text := by
  induction value using Json.induct with
  | null | bool | int | float => exact iff_of_false List.not_mem_nil fun ⟨_, h, _⟩ => nomatch h
  | str text =>
    constructor
    · exact fun h => ⟨text, .self, h⟩
    · rintro ⟨_, ⟨⟩, hname⟩
      exact hname
  | arr items ih =>
    simp only [placeholders_arr, List.mem_flatMap, hasString_arr]
    constructor
    · rintro ⟨item, hmem, hname⟩
      obtain ⟨text, h, hname⟩ := (ih item hmem).1 hname
      exact ⟨text, ⟨item, hmem, h⟩, hname⟩
    · rintro ⟨text, ⟨item, hmem, h⟩, hname⟩
      exact ⟨item, hmem, (ih item hmem).2 ⟨text, h, hname⟩⟩
  | obj members ih =>
    simp only [placeholders_obj, List.mem_flatMap, hasString_obj]
    constructor
    · rintro ⟨member, hmem, hname⟩
      obtain ⟨text, h, hname⟩ := (ih member hmem).1 hname
      exact ⟨text, ⟨member, hmem, h⟩, hname⟩
    · rintro ⟨text, ⟨member, hmem, h⟩, hname⟩
      exact ⟨member, hmem, (ih member hmem).2 ⟨text, h, hname⟩⟩

/-! ### Quotes -/

/-- A character that a written value shows as it is and that does not belong to its punctuation. -/
def isVerbatim (c : Char) : Bool :=
  !(c.toNat < 0x20) && !(['"', '\\', '[', ']', '{', '}', ',', ':'].contains c)

theorem escapeChar_of_isVerbatim {c : Char} (h : isVerbatim c = true) : escapeChar c = [c] := by
  have hne (d : Char) (hd : isVerbatim d = false) : (c == d) = false := by
    refine beq_false_of_ne ?_
    rintro rfl
    rw [hd] at h
    cases h
  have hcontrol : ¬ c.toNat < 0x20 := by
    rw [isVerbatim, Bool.and_eq_true] at h
    simpa using h.1
  rw [escapeChar, hne '"' (by decide), hne '\\' (by decide), hne '\x08' (by decide),
    hne '\x0c' (by decide), hne '\n' (by decide), hne '\r' (by decide), hne '\t' (by decide),
    if_neg hcontrol]
  rfl

theorem dollar_ne_hexDigit : ∀ n < 16, '$' ≠ hexDigit n := by decide

/-- A character is written as it is, or as a backslash and characters that are no `$`. -/
theorem escapeChar_cases (c : Char) :
    escapeChar c = [c] ∨ ∃ rest, escapeChar c = '\\' :: rest ∧ '$' ∉ rest := by
  unfold escapeChar
  iterate 7
    split
    · exact .inr ⟨_, rfl, by decide⟩
  split
  · next hcontrol =>
    have hhigh := dollar_ne_hexDigit (c.toNat / 16) (by omega)
    have hlow := dollar_ne_hexDigit (c.toNat % 16) (by omega)
    exact .inr ⟨_, rfl, by simp [hhigh, hlow]⟩
  · exact .inl rfl

theorem prefix_of_prefix_escaped {w cs : List Char} (hw : ∀ c ∈ w, isVerbatim c = true)
    (h : w <+: cs.flatMap escapeChar) : w <+: cs := by
  induction w generalizing cs with
  | nil => exact List.nil_prefix
  | cons d w ih =>
    cases cs with
    | nil => exact h
    | cons c cs =>
      rw [List.flatMap_cons] at h
      rcases escapeChar_cases c with heq | ⟨rest, heq, -⟩
      · rw [heq, List.singleton_append, List.cons_prefix_cons] at h
        obtain ⟨rfl, h⟩ := h
        exact List.cons_prefix_cons.2
          ⟨rfl, ih (fun c hc => hw c (List.mem_cons_of_mem d hc)) h⟩
      · rw [heq, List.cons_append, List.cons_prefix_cons] at h
        exact absurd (hw d List.mem_cons_self) (h.1 ▸ by decide)

/-- Escaping brings no text about that begins with `$` and needs no escape itself. -/
theorem infix_escaped_iff {w cs : List Char} (hw : ∀ c ∈ '$' :: w, isVerbatim c = true) :
    '$' :: w <:+: cs.flatMap escapeChar ↔ '$' :: w <:+: cs := by
  constructor
  · intro h
    induction cs with
    | nil => exact h
    | cons c cs ih =>
      rw [List.flatMap_cons] at h
      rcases escapeChar_cases c with heq | ⟨rest, heq, hrest⟩
      · rw [heq, List.singleton_append, List.infix_cons_iff] at h
        rcases h with h | h
        · have hprefix : '$' :: w <+: c :: cs :=
            prefix_of_prefix_escaped hw (by rwa [List.flatMap_cons, heq])
          exact hprefix.isInfix
        · exact List.infix_cons (ih h)
      · -- The text begins behind the escape, since no escape has a `$`.
        rw [heq] at h
        exact List.infix_cons (ih (infix_of_infix_append (by simp [hrest]) h))
  · rintro ⟨before, behind, rfl⟩
    have hself : ('$' :: w).flatMap escapeChar = '$' :: w := by
      have hcongr : ('$' :: w).flatMap escapeChar = ('$' :: w).flatMap fun c => [c] :=
        List.flatMap_congr fun c hc => escapeChar_of_isVerbatim (hw c hc)
      rw [hcongr, List.flatMap_singleton']
    rw [List.flatMap_append, List.flatMap_append, hself]
    exact ⟨_, _, rfl⟩

/-! ### Written values -/

/-- A member as it is written. -/
def compactMember (member : String × Json) : String := quote member.1 ++ ":" ++ member.2.compact

theorem compactItems_eq_map (items : List Json) : compactItems items = items.map compact := by
  induction items with
  | nil => rfl
  | cons item items ih => rw [compactItems, ih, List.map_cons]

theorem compactMembers_eq_map (members : List (String × Json)) :
    compactMembers members = members.map compactMember := by
  induction members with
  | nil => rfl
  | cons member members ih => rw [compactMembers, ih, List.map_cons, compactMember]

section Written

variable {w : List Char} (hw : ∀ c ∈ '$' :: w, isVerbatim c = true)

include hw

theorem not_mem_of_not_isVerbatim {c : Char} (hc : isVerbatim c = false) : c ∉ '$' :: w := by
  intro hmem
  rw [hw c hmem] at hc
  cases hc

theorem infix_quote_iff {text : String} :
    '$' :: w <:+: (quote text).toList ↔ '$' :: w <:+: text.toList := by
  have hquote : '"' ∉ '$' :: w := not_mem_of_not_isVerbatim hw (by decide)
  have hchars : (quote text).toList = '"' :: (text.toList.flatMap escapeChar ++ ['"']) := by
    simp [quote]
  rw [hchars, infix_cons_iff_of_not_mem (List.cons_ne_nil _ _) hquote,
    infix_append_cons_iff (List.cons_ne_nil _ _) hquote, infix_escaped_iff hw]
  exact or_iff_left fun hnil => List.cons_ne_nil _ _ (List.infix_nil.1 hnil)

theorem infix_compactMember_iff {member : String × Json} :
    '$' :: w <:+: (compactMember member).toList ↔
      '$' :: w <:+: member.1.toList ∨ '$' :: w <:+: member.2.compact.toList := by
  rw [compactMember, String.toList_append, String.toList_append, List.append_assoc,
    show ":".toList = [':'] from rfl, List.singleton_append,
    infix_append_cons_iff (List.cons_ne_nil _ _) (not_mem_of_not_isVerbatim hw (by decide)),
    infix_quote_iff hw]

/-- A text in a list of written parts stands in one of them. -/
theorem infix_listed_iff {opening closing : Char} (hopening : isVerbatim opening = false)
    (hclosing : isVerbatim closing = false) {texts : List String} :
    '$' :: w <:+: opening :: ((",".intercalate texts).toList ++ [closing]) ↔
      ∃ text ∈ texts, '$' :: w <:+: text.toList := by
  have hne := List.cons_ne_nil '$' w
  have hcomma : ',' ∉ '$' :: w := not_mem_of_not_isVerbatim hw (by decide)
  rw [infix_cons_iff_of_not_mem hne (not_mem_of_not_isVerbatim hw hopening),
    infix_append_cons_iff hne (not_mem_of_not_isVerbatim hw hclosing),
    or_iff_left fun hnil => hne (List.infix_nil.1 hnil), String.toList_intercalate,
    show ",".toList = [','] from rfl, infix_intercalate_iff hne hcomma]
  simp

omit hw in
theorem not_infix_of_dollar_not_mem {cs : List Char} (h : '$' ∉ cs) : ¬ '$' :: w <:+: cs :=
  fun hwithin => h (hwithin.subset List.mem_cons_self)

omit hw in
/-- A value without parts that is no string has neither strings nor members, and no `$` in its
text. -/
theorem infix_compact_iff_of_dollar_not_mem {value : Json} (hdollar : '$' ∉ value.compact.toList)
    (hstring : ∀ text, ¬ value.HasString text) (hmember : ∀ name, ¬ value.HasMember name) :
    '$' :: w <:+: value.compact.toList ↔
      (∃ text, value.HasString text ∧ '$' :: w <:+: text.toList) ∨
        ∃ name, value.HasMember name ∧ '$' :: w <:+: name.toList := by
  refine iff_of_false (not_infix_of_dollar_not_mem hdollar) ?_
  rintro (⟨text, h, -⟩ | ⟨name, h, -⟩)
  · exact hstring text h
  · exact hmember name h

/-- A text that begins with `$` and needs no escape stands in a written value if and only if it
stands in a string of the value or in the name of a member. -/
theorem infix_compact_iff (value : Json) :
    '$' :: w <:+: value.compact.toList ↔
      (∃ text, value.HasString text ∧ '$' :: w <:+: text.toList) ∨
        ∃ name, value.HasMember name ∧ '$' :: w <:+: name.toList := by
  induction value using Json.induct with
  | null => exact infix_compact_iff_of_dollar_not_mem (by decide) nofun nofun
  | bool b => exact infix_compact_iff_of_dollar_not_mem (by cases b <;> decide) nofun nofun
  | int n =>
    exact infix_compact_iff_of_dollar_not_mem (dollar_not_mem (all_isNumeric_toString n)) nofun nofun
  | float x =>
    exact infix_compact_iff_of_dollar_not_mem (dollar_not_mem x.all_isNumeric_toText) nofun nofun
  | str text =>
    rw [compact, scalarText, infix_quote_iff hw]
    constructor
    · exact fun h => .inl ⟨text, .self, h⟩
    · rintro (⟨_, ⟨⟩, h⟩ | ⟨_, ⟨⟩, -⟩)
      exact h
  | arr items ih =>
    have hchars : (compact (.arr items)).toList =
        '[' :: ((",".intercalate (items.map compact)).toList ++ [']']) := by
      simp [compact, compactItems_eq_map]
    rw [hchars, infix_listed_iff hw (by decide) (by decide)]
    simp only [List.mem_map, exists_exists_and_eq_and]
    constructor
    · rintro ⟨item, hmem, hitem⟩
      rcases (ih item hmem).1 hitem with ⟨text, h, htext⟩ | ⟨name, h, hname⟩
      · exact .inl ⟨text, .item hmem h, htext⟩
      · exact .inr ⟨name, .item hmem h, hname⟩
    · rintro (⟨text, h, htext⟩ | ⟨name, h, hname⟩)
      · obtain ⟨item, hmem, h⟩ := hasString_arr.1 h
        exact ⟨item, hmem, (ih item hmem).2 (.inl ⟨text, h, htext⟩)⟩
      · obtain ⟨item, hmem, h⟩ := hasMember_arr.1 h
        exact ⟨item, hmem, (ih item hmem).2 (.inr ⟨name, h, hname⟩)⟩
  | obj members ih =>
    have hchars : (compact (.obj members)).toList =
        '{' :: ((",".intercalate (members.map compactMember)).toList ++ ['}']) := by
      simp [compact, compactMembers_eq_map, openBrace, closeBrace]
    rw [hchars, infix_listed_iff hw (by decide) (by decide)]
    simp only [List.mem_map, exists_exists_and_eq_and]
    constructor
    · rintro ⟨member, hmem, hmember⟩
      rcases (infix_compactMember_iff hw).1 hmember with hname | hvalue
      · exact .inr ⟨member.1, .self hmem, hname⟩
      · rcases (ih member hmem).1 hvalue with ⟨text, h, htext⟩ | ⟨name, h, hname⟩
        · exact .inl ⟨text, .member hmem h, htext⟩
        · exact .inr ⟨name, .member hmem h, hname⟩
    · rintro (⟨text, h, htext⟩ | ⟨name, h, hname⟩)
      · obtain ⟨member, hmem, h⟩ := hasString_obj.1 h
        refine ⟨member, hmem, (infix_compactMember_iff hw).2 (.inr ?_)⟩
        exact (ih member hmem).2 (.inl ⟨text, h, htext⟩)
      · obtain ⟨member, hmem, rfl | h⟩ := hasMember_obj.1 h
        · exact ⟨member, hmem, (infix_compactMember_iff hw).2 (.inl hname)⟩
        · refine ⟨member, hmem, (infix_compactMember_iff hw).2 (.inr ?_)⟩
          exact (ih member hmem).2 (.inr ⟨name, h, hname⟩)

end Written

/-! ### Tokens -/

theorem isVerbatim_of_isNameStart_or {c : Char}
    (h : (Placeholder.isNameStart c || Placeholder.isNameRest c) = true) : isVerbatim c = true := by
  rw [isVerbatim, Bool.and_eq_true, Bool.not_eq_true', Bool.not_eq_true', decide_eq_false_iff_not]
  constructor
  · intro hcontrol
    have hall : ∀ n < 0x20, (Placeholder.isNameStart (Char.ofNat n) ||
        Placeholder.isNameRest (Char.ofNat n)) = false := by decide
    rw [← Char.ofNat_toNat c, hall _ hcontrol] at h
    cases h
  · by_contra hmem
    rw [Bool.not_eq_false, List.contains_iff_mem] at hmem
    have hnone : ['"', '\\', '[', ']', '{', '}', ',', ':'].all (fun c =>
        !(Placeholder.isNameStart c || Placeholder.isNameRest c)) = true := by decide
    have hc := List.all_eq_true.1 hnone c hmem
    rw [h] at hc
    cases hc

theorem isVerbatim_of_mem_token (hname : Placeholder.isName name = true) :
    ∀ c ∈ '$' :: '(' :: (name.toList ++ [')']), isVerbatim c = true := by
  intro c hc
  rw [List.mem_cons, List.mem_cons, List.mem_append, List.mem_singleton] at hc
  rcases hc with rfl | rfl | hc | rfl
  · decide
  · decide
  · refine isVerbatim_of_isNameStart_or ?_
    by_contra h
    rw [Bool.not_eq_true, Bool.or_eq_false_iff] at h
    exact Placeholder.not_mem_of_isNameOf h.1 h.2 hname hc
  · decide

/-- A token stands in the text of a value if and only if it is a placeholder of the value or of the
name of a member. -/
theorem infix_plainText_iff (hname : Placeholder.isName name = true) {value : Json} :
    (Placeholder.token name).toList <:+: value.plainText.toList ↔
      name ∈ value.placeholders ∨
        ∃ member, value.HasMember member ∧ name ∈ Placeholder.names member := by
  have hcompact : (Placeholder.token name).toList <:+: value.compact.toList ↔
      name ∈ value.placeholders ∨
        ∃ member, value.HasMember member ∧ name ∈ Placeholder.names member := by
    rw [Placeholder.toList_token, infix_compact_iff (isVerbatim_of_mem_token hname),
      ← Placeholder.toList_token, mem_placeholders_iff]
    simp only [Placeholder.infix_token_iff hname]
  cases value with
  | null =>
    refine iff_of_false (fun h => ?_) ?_
    · rw [Placeholder.toList_token] at h
      exact absurd (List.eq_nil_of_infix_nil h) (List.cons_ne_nil _ _)
    · rintro (h | ⟨member, h, -⟩)
      · exact List.not_mem_nil h
      · cases h
  | str text =>
    refine (Placeholder.infix_token_iff hname).trans (or_iff_left ?_).symm
    rintro ⟨member, h, -⟩
    cases h
  | bool | int | float | arr | obj => exact hcompact

end Json

end Rehearsal
