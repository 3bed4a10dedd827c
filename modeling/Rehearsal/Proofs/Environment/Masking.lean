import Mathlib
import Rehearsal.Environment.Secrets

/-!
# What masking leaves of a text

`Environment.mask` covers the secret values one after the other, the longest first. Secret values
may overlap and contain each other, and a value covered later stands in a text that was rewritten
before. What carries the argument is that a text without a star never arises from a rewriting: an
occurrence of it in the result would have to avoid the stars of every cover, so it was there
before (`Masking.infix_of_infix_coverAfter`). Hence a value that is covered once stays covered,
whatever is covered after it (`Environment.not_occurs_mask`).
-/

namespace Rehearsal

/-- One text is a part of another. -/
def Occurs (part text : String) : Prop := part.toList <:+: text.toList

namespace Occurs

variable {part text : String}

theorem refl (text : String) : Occurs text text := List.infix_refl _

theorem append_left (h : Occurs part text) (before : String) : Occurs part (before ++ text) := by
  rw [Occurs, String.toList_append]
  exact h.trans (List.suffix_append _ _).isInfix

theorem append_right (h : Occurs part text) (behind : String) : Occurs part (text ++ behind) := by
  rw [Occurs, String.toList_append]
  exact h.trans (List.prefix_append _ _).isInfix

end Occurs

/-- One text is a part of another, with the same character in front of it and behind it. -/
def SetOff (mark : Char) (part text : String) : Prop :=
  mark :: (part.toList ++ [mark]) <:+: text.toList

theorem SetOff.occurs {mark : Char} {part text : String} (h : SetOff mark part text) :
    Occurs part text :=
  ((List.prefix_append part.toList [mark]).isInfix.trans (List.suffix_cons mark _).isInfix).trans h

namespace Masking

variable {w secret : List Char}

/-! ### One value -/

theorem not_prefix_star (hne : w ≠ []) (hw : '*' ∉ w) (rest : List Char) : ¬ w <+: '*' :: rest := by
  intro h
  cases w with
  | nil => exact hne rfl
  | cons c w =>
    obtain ⟨rfl, -⟩ := List.cons_prefix_cons.1 h
    exact hw List.mem_cons_self

/-- A text without a star in what follows a cover begins behind it. -/
theorem infix_of_infix_cover (hne : w ≠ []) (hw : '*' ∉ w) {rest : List Char}
    (h : w <:+: cover ++ rest) : w <:+: rest := by
  have hstar := not_prefix_star hne hw
  change w <:+: '*' :: '*' :: '*' :: rest at h
  have h₂ := (List.infix_cons_iff.1 h).resolve_left (hstar _)
  have h₁ := (List.infix_cons_iff.1 h₂).resolve_left (hstar _)
  exact (List.infix_cons_iff.1 h₁).resolve_left (hstar _)

/-- What a text begins with after covering, up to the first star, it began with before. -/
theorem prefix_of_prefix_coverAfter (hw : '*' ∉ w) {skip : Nat} {cs : List Char}
    (h : w <+: coverAfter secret skip cs) : w <+: cs.drop skip := by
  induction skip, cs using coverAfter.induct secret generalizing w with
  | case1 skip => simpa [coverAfter] using h
  | case2 skip c rest ih => simpa using ih hw h
  | case3 c rest hsecret ih =>
    rw [coverAfter, if_pos hsecret] at h
    by_cases hne : w = []
    · rw [hne]; exact List.nil_prefix
    · exact absurd h (not_prefix_star hne hw _)
  | case4 c rest hsecret ih =>
    rw [coverAfter, if_neg hsecret] at h
    cases w with
    | nil => exact List.nil_prefix
    | cons d w =>
      obtain ⟨rfl, hrest⟩ := List.cons_prefix_cons.1 h
      rw [List.mem_cons, not_or] at hw
      exact List.cons_prefix_cons.2 ⟨rfl, by simpa using ih hw.2 hrest⟩

/-- Covering a value brings no text about that has no star: it was there before. -/
theorem infix_of_infix_coverAfter (hne : w ≠ []) (hw : '*' ∉ w) {skip : Nat} {cs : List Char}
    (h : w <:+: coverAfter secret skip cs) : w <:+: cs.drop skip := by
  induction skip, cs using coverAfter.induct secret with
  | case1 skip => simpa [coverAfter] using h
  | case2 skip c rest ih => simpa using ih h
  | case3 c rest hsecret ih =>
    rw [coverAfter, if_pos hsecret] at h
    have hrest : w <:+: rest.drop (secret.length - 1) := ih (infix_of_infix_cover hne hw h)
    exact List.infix_cons (hrest.trans (List.drop_suffix _ _).isInfix)
  | case4 c rest hsecret ih =>
    have hcover : coverAfter secret 0 (c :: rest) = c :: coverAfter secret 0 rest := by
      rw [coverAfter, if_neg hsecret]
    rw [hcover] at h
    rcases List.infix_cons_iff.1 h with hprefix | hwithin
    · rw [← hcover] at hprefix
      exact (prefix_of_prefix_coverAfter hw hprefix).isInfix
    · exact List.infix_cons (by simpa using ih hwithin)

/-- A value without a star is gone once it is covered. -/
theorem not_infix_coverAfter (hne : secret ≠ []) (hsecret : '*' ∉ secret) (skip : Nat)
    (cs : List Char) : ¬ secret <:+: coverAfter secret skip cs := by
  intro h
  induction skip, cs using coverAfter.induct secret with
  | case1 skip => exact hne (by simpa [coverAfter] using h)
  | case2 skip c rest ih => exact ih h
  | case3 c rest hprefix ih =>
    rw [coverAfter, if_pos hprefix] at h
    exact ih (infix_of_infix_cover hne hsecret h)
  | case4 c rest hprefix ih =>
    have hcover : coverAfter secret 0 (c :: rest) = c :: coverAfter secret 0 rest := by
      rw [coverAfter, if_neg hprefix]
    rw [hcover] at h
    rcases List.infix_cons_iff.1 h with hbefore | hwithin
    · rw [← hcover] at hbefore
      exact hprefix (List.isPrefixOf_iff_prefix.2 (prefix_of_prefix_coverAfter hsecret hbefore))
    · exact ih hwithin

theorem coverAfter_of_not_infix {cs : List Char} (h : ¬ secret <:+: cs) :
    coverAfter secret 0 cs = cs := by
  induction cs with
  | nil => rfl
  | cons c rest ih =>
    rw [List.infix_cons_iff, not_or] at h
    rw [coverAfter, if_neg (by simpa using h.1), ih h.2]

theorem prefix_append_cons_iff {mark : Char} (hmark : mark ∉ secret) (xs ys : List Char) :
    secret <+: xs ++ mark :: ys ↔ secret <+: xs := by
  refine ⟨fun h => ?_, fun h => h.trans (List.prefix_append xs _)⟩
  have hmarked : xs ++ [mark] <+: xs ++ mark :: ys := ⟨ys, by simp⟩
  rcases Nat.lt_or_ge xs.length secret.length with hlong | hshort
  · -- A longer prefix takes the character in.
    have hin : xs ++ [mark] <+: secret :=
      List.prefix_of_prefix_length_le hmarked h (by rw [List.length_append]; exact hlong)
    exact absurd (hin.subset (List.mem_append_right xs (List.mem_singleton_self mark))) hmark
  · exact List.prefix_of_prefix_length_le h (List.prefix_append xs _) hshort

/-- A character that is not in a value parts the text that is covered. -/
theorem coverAfter_append_cons {mark : Char} (hne : secret ≠ []) (hmark : mark ∉ secret)
    {skip : Nat} {xs : List Char} (hskip : skip ≤ xs.length) (ys : List Char) :
    coverAfter secret skip (xs ++ mark :: ys) =
      coverAfter secret skip xs ++ mark :: coverAfter secret 0 ys := by
  induction skip, xs using coverAfter.induct secret with
  | case1 skip =>
    obtain rfl : skip = 0 := Nat.le_zero.1 hskip
    have hprefix : ¬ secret <+: mark :: ys := fun h =>
      hne (List.prefix_nil.1 ((prefix_append_cons_iff hmark [] ys).1 h))
    simp only [List.nil_append, coverAfter]
    rw [if_neg (by simpa using hprefix)]
  | case2 skip c rest ih =>
    rw [List.cons_append, coverAfter, coverAfter, ih (Nat.le_of_succ_le_succ hskip)]
  | case3 c rest hprefix ih =>
    have hsecret := List.isPrefixOf_iff_prefix.1 hprefix
    have hlength := hsecret.length_le
    have hlong : secret <+: c :: (rest ++ mark :: ys) :=
      (prefix_append_cons_iff hmark (c :: rest) ys).2 hsecret
    rw [List.length_cons] at hlength
    rw [List.cons_append, coverAfter, if_pos (List.isPrefixOf_iff_prefix.2 hlong), ih (by omega),
      coverAfter, if_pos hprefix, List.append_assoc]
  | case4 c rest hprefix ih =>
    have hlong : ¬ secret <+: c :: (rest ++ mark :: ys) := fun h =>
      hprefix (List.isPrefixOf_iff_prefix.2 ((prefix_append_cons_iff hmark (c :: rest) ys).1 h))
    rw [List.cons_append, coverAfter, if_neg (by simpa using hlong), ih (Nat.zero_le _), coverAfter,
      if_neg hprefix, List.cons_append]

/-! ### One value after the other -/

theorem toList_ne_nil {text : String} (h : text ≠ "") : text.toList ≠ [] := by
  intro hnil
  exact h (String.toList_inj.1 hnil)

theorem occurs_of_occurs_coverAll {part secret text : String} (hne : part ≠ "")
    (hpart : '*' ∉ part.toList) (h : Occurs part (coverAll text secret)) : Occurs part text := by
  rw [Occurs, coverAll, String.toList_ofList] at h
  exact infix_of_infix_coverAfter (toList_ne_nil hne) hpart h

theorem not_occurs_coverAll {secret : String} (hne : secret ≠ "") (hsecret : '*' ∉ secret.toList)
    (text : String) : ¬ Occurs secret (coverAll text secret) := by
  rw [Occurs, coverAll, String.toList_ofList]
  exact not_infix_coverAfter (toList_ne_nil hne) hsecret 0 text.toList

theorem coverAll_of_not_occurs {secret text : String} (h : ¬ Occurs secret text) :
    coverAll text secret = text := by
  rw [coverAll, coverAfter_of_not_infix h, String.ofList_toList]

theorem occurs_of_occurs_foldl {part : String} (hne : part ≠ "") (hpart : '*' ∉ part.toList)
    {secrets : List String} {text : String} (h : Occurs part (secrets.foldl coverAll text)) :
    Occurs part text := by
  induction secrets generalizing text with
  | nil => exact h
  | cons secret rest ih =>
    rw [List.foldl_cons] at h
    exact occurs_of_occurs_coverAll hne hpart (ih h)

/-- Covering the values that follow does not bring a covered one back. -/
theorem not_occurs_foldl {secret : String} (hne : secret ≠ "") (hsecret : '*' ∉ secret.toList)
    {secrets : List String} (hmem : secret ∈ secrets) (text : String) :
    ¬ Occurs secret (secrets.foldl coverAll text) := by
  induction secrets generalizing text with
  | nil => exact absurd hmem List.not_mem_nil
  | cons first rest ih =>
    rw [List.foldl_cons]
    rcases List.mem_cons.1 hmem with rfl | hrest
    · intro h
      exact not_occurs_coverAll hne hsecret text (occurs_of_occurs_foldl hne hsecret h)
    · exact ih hrest (coverAll text first)

theorem foldl_of_not_occurs {secrets : List String} {text : String}
    (h : ∀ secret ∈ secrets, ¬ Occurs secret text) : secrets.foldl coverAll text = text := by
  induction secrets with
  | nil => rfl
  | cons first rest ih =>
    rw [List.foldl_cons, coverAll_of_not_occurs (h first List.mem_cons_self)]
    exact ih fun secret hmem => h secret (List.mem_cons_of_mem first hmem)

/-- What is set off by a character that a value does not have is left as it is, unless the value
occurs in it. -/
theorem setOff_coverAll {mark : Char} {part secret text : String} (hne : secret ≠ "")
    (hmark : mark ∉ secret.toList) (hpart : ¬ Occurs secret part) (h : SetOff mark part text) :
    SetOff mark part (coverAll text secret) := by
  obtain ⟨before, behind, htext⟩ := h
  have hsplit : text.toList = before ++ mark :: (part.toList ++ mark :: behind) := by
    rw [← htext]
    simp
  have hsecret := toList_ne_nil hne
  rw [SetOff, coverAll, String.toList_ofList, hsplit,
    coverAfter_append_cons hsecret hmark (Nat.zero_le _),
    coverAfter_append_cons hsecret hmark (Nat.zero_le _), coverAfter_of_not_infix hpart]
  exact ⟨coverAfter secret.toList 0 before, coverAfter secret.toList 0 behind, by simp⟩

theorem setOff_foldl {mark : Char} {part : String} {secrets : List String} {text : String}
    (hsecrets : ∀ secret ∈ secrets, secret ≠ "" ∧ mark ∉ secret.toList ∧ ¬ Occurs secret part)
    (h : SetOff mark part text) : SetOff mark part (secrets.foldl coverAll text) := by
  induction secrets generalizing text with
  | nil => exact h
  | cons first rest ih =>
    obtain ⟨hne, hmark, hpart⟩ := hsecrets first List.mem_cons_self
    rw [List.foldl_cons]
    exact ih (fun secret hmem => hsecrets secret (List.mem_cons_of_mem first hmem))
      (setOff_coverAll hne hmark hpart h)

/-! ### The list of values -/

theorem mem_insertByLength {a text : String} {texts : List String} :
    a ∈ insertByLength text texts ↔ a = text ∨ a ∈ texts := by
  induction texts with
  | nil => simp [insertByLength]
  | cons first rest ih =>
    rw [insertByLength]
    split
    · simp
    · rw [List.mem_cons, ih, List.mem_cons]
      tauto

theorem mem_foldl_insertByLength {a : String} {texts sorted : List String} :
    a ∈ texts.foldl (fun sorted text => insertByLength text sorted) sorted ↔
      a ∈ texts ∨ a ∈ sorted := by
  induction texts generalizing sorted with
  | nil => simp
  | cons first rest ih =>
    rw [List.foldl_cons, ih, mem_insertByLength, List.mem_cons]
    tauto

theorem mem_longestFirst {a : String} {texts : List String} :
    a ∈ longestFirst texts ↔ a ∈ texts := by
  rw [longestFirst, mem_foldl_insertByLength]
  simp

theorem mem_dropRepeats {a : String} {texts : List String} :
    a ∈ dropRepeats texts ↔ a ∈ texts := by
  fun_induction dropRepeats texts with
  | case1 first rest ih => rw [ih]; simp
  | case2 first second rest hne ih => rw [List.mem_cons, ih, List.mem_cons (b := first)]
  | case3 texts => rfl

end Masking

namespace Environment

variable {env : Environment} {secret text : String}

/-- A text is a secret value if it is not empty and some secret name has it once everything is
resolved that can be. -/
def SecretValue (env : Environment) (secret : String) : Prop :=
  secret ≠ "" ∧ ∃ name value, env.isSecret name = true ∧ env.value? name = some value ∧
    secret = (env.resolveDeferred value).plainText

theorem mem_secretValues_iff : secret ∈ env.secretValues ↔ env.SecretValue secret := by
  rw [secretValues, Masking.mem_dropRepeats, Masking.mem_longestFirst, List.mem_filter,
    List.mem_filterMap, SecretValue]
  constructor
  · rintro ⟨⟨name, hname, hshown⟩, hne⟩
    obtain ⟨value, hvalue, rfl⟩ := Option.map_eq_some_iff.1 hshown
    exact ⟨by simpa using hne, name, value, (List.mem_filter.1 hname).2, hvalue, rfl⟩
  · rintro ⟨hne, name, value, hsecret, hvalue, rfl⟩
    have hname : name ∈ env.names.filter env.isSecret :=
      List.mem_filter.2 ⟨mem_names_of_value? hvalue, hsecret⟩
    exact ⟨⟨name, hname, by rw [shownText, hvalue]; rfl⟩, by simpa using hne⟩

/-- A secret value without a star does not occur in a masked text, whatever the other secret
values are. -/
theorem not_occurs_mask (h : env.SecretValue secret) (hstar : '*' ∉ secret.toList)
    (text : String) : ¬ Occurs secret (env.mask text) :=
  Masking.not_occurs_foldl h.1 hstar (mem_secretValues_iff.2 h) text

theorem mask_of_not_occurs (h : ∀ secret, env.SecretValue secret → ¬ Occurs secret text) :
    env.mask text = text :=
  Masking.foldl_of_not_occurs fun secret hmem => h secret (mem_secretValues_iff.1 hmem)

/-- A text that contains a secret value does not occur in a masked text either. -/
theorem not_occurs_mask_of_occurs {part : String} (hstar : '*' ∉ part.toList)
    (h : env.SecretValue secret) (hpart : Occurs secret part) (text : String) :
    ¬ Occurs part (env.mask text) := fun hmask =>
  not_occurs_mask h (fun hmem => hstar (hpart.subset hmem)) text (hpart.trans hmask)

/-- What contains no secret value stays, where a character sets it off that no secret value has. -/
theorem setOff_mask {mark : Char} {part : String}
    (hsecrets : ∀ secret, env.SecretValue secret → mark ∉ secret.toList ∧ ¬ Occurs secret part)
    (h : SetOff mark part text) : SetOff mark part (env.mask text) :=
  Masking.setOff_foldl (fun secret hmem =>
    have hsecret := mem_secretValues_iff.1 hmem
    ⟨hsecret.1, hsecrets secret hsecret⟩) h

/-- **Masking hides every secret value.** If none of the secret values of an environment has a
star in it, then none occurs in a masked text, masking once more changes nothing, and a text in
which none occurs is left as it is. -/
theorem mask_hides (env : Environment)
    (hstar : ∀ secret, env.SecretValue secret → '*' ∉ secret.toList) (text : String) :
    (∀ secret, env.SecretValue secret → ¬ Occurs secret (env.mask text)) ∧
    env.mask (env.mask text) = env.mask text ∧
    ((∀ secret, env.SecretValue secret → ¬ Occurs secret text) → env.mask text = text) := by
  have hnone : ∀ secret, env.SecretValue secret → ¬ Occurs secret (env.mask text) :=
    fun secret h => not_occurs_mask h (hstar secret h) text
  exact ⟨hnone, mask_of_not_occurs hnone, mask_of_not_occurs⟩

/-- Two secrets of which one is a part of the other. -/
def nested : Environment :=
  { inner := (({} : Layer).set "long" (.secureString "abab")).set "short" (.secureString "ab") }

theorem mask_hides_nested :
    (∀ secret, nested.SecretValue secret → '*' ∉ secret.toList) ∧
    nested.mask "xababab" = "x******" ∧
    (∀ secret, nested.SecretValue secret → ¬ Occurs secret (nested.mask "xababab")) ∧
    nested.mask (nested.mask "xababab") = nested.mask "xababab" := by
  have hvalues : nested.secretValues = ["abab", "ab"] := by cbv
  have hstar : ∀ secret, nested.SecretValue secret → '*' ∉ secret.toList := by
    intro secret h
    rw [← mem_secretValues_iff, hvalues] at h
    fin_cases h <;> decide
  have hmask : nested.mask "xababab" = "x******" := by
    rw [mask, hvalues]
    decide
  obtain ⟨hnone, hagain, -⟩ := mask_hides nested hstar "xababab"
  exact ⟨hstar, hmask, hnone, hagain⟩

end Environment

end Rehearsal
