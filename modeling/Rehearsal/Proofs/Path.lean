import Mathlib.Data.List.Infix
import Mathlib.Data.String.Basic
import Rehearsal.Document

/-!
# Spellings of a path

A file has many spellings: slashes may be repeated, `.` segments may stand anywhere, and `..` takes a
segment in front of it away. Files are kept, resolved and compared by the normal form of a path. The
normal form is reached in one pass and recognised by its segments alone: there is no empty one and
no `.`, and `..` stands only at the front of a path that does not start at the root
(`Path.canonical_normalText`, `Path.normalText_eq_self_iff`). Whatever is done with two paths, a look
from a directory or a look-up among kept files, depends on their normal forms only
(`Path.resolve_normalText`, `Files.read_inMemory_storeAll`).

The folding is a machine with a stack of segments. Two facts carry everything: a stack holds its `..`
segments at the bottom (`Path.Normal`, `Path.push_normal`), and a relative path may be folded on its
own before it is pushed on a stack (`Path.foldl_push_fold`).
-/

namespace Rehearsal

/-! ## Texts that are cut at their slashes -/

section Slashes

variable {text part : String} {parts : List String}

theorem splitOnAux_slash (text : String) (start i : String.Pos.Raw) (found : List String) :
    text.splitOnAux "/" start i 0 found = text.splitAux (· == '/') start i found := by
  have hget : String.Pos.Raw.get "/" 0 = '/' := by decide
  have hend : String.Pos.Raw.atEnd "/" (String.Pos.Raw.next "/" 0) = true := by decide
  induction start, i, found using String.splitAux.induct text (· == '/') with
  | case1 start i found hstop => rw [String.splitOnAux, String.splitAux, if_pos hstop, dif_pos hstop]
  | case2 start i found hstop hlt hc next ih =>
    have hc : String.Pos.Raw.get text i = '/' := by simpa using hc
    have hoff : (String.Pos.Raw.next text i).unoffsetBy (String.Pos.Raw.next "/" 0) = i := by
      simp [String.Pos.Raw.ext_iff, String.Pos.Raw.next, hc, hget]
    rw [String.splitOnAux, String.splitAux, if_neg hstop, dif_neg hstop]
    simp [hc, hget, hend, hoff, ih, next]
  | case3 start i found hstop hlt hc ih =>
    have hc : String.Pos.Raw.get text i ≠ '/' := by simpa using hc
    have hoff : i.unoffsetBy 0 = i := by simp
    rw [String.splitOnAux, String.splitAux, if_neg hstop, dif_neg hstop]
    simp [hc, hget, ih, hoff]

/-- A text is cut at its slashes as the list of its characters is. -/
theorem splitOn_slash (text : String) :
    text.splitOn "/" = (text.toList.splitOn '/').map String.ofList := by
  rw [List.splitOn_eq_splitOnP, ← String.splitToList_of_valid]
  exact splitOnAux_slash text 0 0 []

theorem not_mem_of_mem_splitOn {α : Type} [DecidableEq α] {a : α} {xs : List α} :
    ∀ l ∈ xs.splitOn a, a ∉ l := by
  induction xs with
  | nil => simp
  | cons x xs ih =>
    obtain ⟨first, rest, hsplit⟩ := List.exists_cons_of_ne_nil (List.splitOn_ne_nil a xs)
    rw [List.splitOn_cons_eq_if_modifyHead, hsplit]
    rw [hsplit] at ih
    by_cases hx : x = a
    · simpa [hx] using ih
    · simpa [hx, Ne.symm hx] using ih

theorem slash_not_mem_of_mem_splitOn (h : part ∈ text.splitOn "/") : '/' ∉ part.toList := by
  rw [splitOn_slash, List.mem_map] at h
  obtain ⟨chars, hmem, rfl⟩ := h
  simpa using not_mem_of_mem_splitOn chars hmem

theorem intercalate_splitOn_slash (text : String) : "/".intercalate (text.splitOn "/") = text := by
  rw [← String.toList_inj, String.toList_intercalate, splitOn_slash]
  simp [Function.comp_def, List.intercalate_splitOn]

theorem splitOn_intercalate_slash (hne : parts ≠ []) (h : ∀ part ∈ parts, '/' ∉ part.toList) :
    ("/".intercalate parts).splitOn "/" = parts := by
  rw [splitOn_slash, String.toList_intercalate]
  show ((['/'].intercalate (parts.map String.toList)).splitOn '/').map String.ofList = parts
  rw [List.splitOn_intercalate '/' (by simpa using h) (by simpa using hne)]
  simp [Function.comp_def]

theorem splitOn_slash_append (text : String) :
    ("/" ++ text).splitOn "/" = "" :: text.splitOn "/" := by
  rw [splitOn_slash, splitOn_slash]
  simp [List.splitOn_cons_eq_if_modifyHead]

@[simp] theorem splitOn_slash_empty : "".splitOn "/" = [""] := by simp [splitOn_slash]

end Slashes

namespace Path

variable {path : Path} {text part : String}

/-! ## The segments of a written path -/

/-- The segments of a written path: what stands between its slashes, where the slash of the root
closes none. -/
def segments (text : String) : List String :=
  if text.startsWith "/" then (text.splitOn "/").tail else text.splitOn "/"

theorem exists_eq_of_startsWith (h : text.startsWith "/") : ∃ rest, text = "/" ++ rest := by
  obtain ⟨rest, hrest⟩ := String.startsWith_string_iff.1 h
  exact ⟨String.ofList rest, by rw [← String.toList_inj]; simp [← hrest]⟩

@[simp] theorem startsWith_slash_append (text : String) : ("/" ++ text).startsWith "/" := by
  simp [String.startsWith_string_iff]

@[simp] theorem segments_slash_append (text : String) : segments ("/" ++ text) = text.splitOn "/" := by
  rw [segments, if_pos (startsWith_slash_append text), splitOn_slash_append, List.tail_cons]

/-- A written path is its root and its segments. -/
theorem toText_segments (text : String) : toText ⟨text.startsWith "/", segments text⟩ = text := by
  by_cases h : text.startsWith "/"
  · obtain ⟨rest, rfl⟩ := exists_eq_of_startsWith h
    simp [toText, intercalate_splitOn_slash]
  · simp [toText, segments, h, intercalate_splitOn_slash]

theorem parse_eq (text : String) :
    parse text = ⟨text.startsWith "/", (segments text).filter counts⟩ := by
  by_cases h : text.startsWith "/"
  · obtain ⟨rest, rfl⟩ := exists_eq_of_startsWith h
    simp [parse, splitOn_slash_append, counts]
  · simp [parse, segments, h]

theorem counts_iff : counts part ↔ part ≠ "" ∧ part ≠ "." := by simp [counts]

/-- A path whose parts can be told apart in its written form. -/
def Written (path : Path) : Prop := ∀ part ∈ path.parts, counts part ∧ '/' ∉ part.toList

theorem written_parse (text : String) : (parse text).Written := by
  intro part hmem
  obtain ⟨hmem, hcounts⟩ := List.mem_filter.1 hmem
  exact ⟨hcounts, slash_not_mem_of_mem_splitOn hmem⟩

theorem Written.startsWith_toText (h : path.Written) : path.toText.startsWith "/" = path.absolute := by
  obtain ⟨absolute, parts⟩ := path
  cases absolute with
  | true => exact startsWith_slash_append _
  | false =>
    rw [Bool.eq_false_iff, ne_eq, String.startsWith_string_iff, toText, if_neg Bool.false_ne_true]
    -- The first character is one of the first part, which is not empty and has no slash.
    rintro ⟨rest, hrest⟩
    cases parts with
    | nil => simp at hrest
    | cons first parts =>
      obtain ⟨hcounts, hslash⟩ := h first List.mem_cons_self
      obtain ⟨c, chars, hchars⟩ : ∃ c chars, first.toList = c :: chars :=
        List.exists_cons_of_ne_nil (by simpa using (counts_iff.1 hcounts).1)
      have hc : '/' = c := by
        cases parts <;>
          simpa [String.toList_intercalate, hchars, List.intercalate_cons_cons] using
            congrArg List.head? hrest
      exact hslash (by rw [hchars, hc]; exact List.mem_cons_self)

theorem Written.segments_toText (h : path.Written) (hne : path.parts ≠ []) :
    segments path.toText = path.parts := by
  have hslash : ∀ part ∈ path.parts, '/' ∉ part.toList := fun part hmem => (h part hmem).2
  have hcut := splitOn_intercalate_slash hne hslash
  cases habsolute : path.absolute with
  | true => simp [toText, habsolute, hcut]
  | false =>
    rw [segments, h.startsWith_toText]
    simp [toText, habsolute, hcut]

/-! ## Stacks of segments -/

section Stack

variable {absolute : Bool} {reversed rest parts : List String} {last : String}

theorem push_of_ne (h : part ≠ "..") : push absolute reversed part = part :: reversed := if_neg h

theorem push_parent_of_ne (h : last ≠ "..") : push absolute (last :: rest) ".." = rest := by
  simp [push, h]

theorem push_parent_replicate (up : Nat) :
    push false (List.replicate up "..") ".." = List.replicate (up + 1) ".." := by
  cases up <;> simp [push, List.replicate_succ]

theorem foldl_push_of_not_mem (h : ".." ∉ parts) :
    parts.foldl (push absolute) reversed = parts.reverse ++ reversed := by
  induction parts generalizing reversed with
  | nil => rfl
  | cons part parts ih =>
    rw [List.mem_cons, not_or] at h
    rw [List.foldl_cons, push_of_ne (Ne.symm h.1), ih h.2]
    simp

theorem foldl_push_replicate (up : Nat) :
    (List.replicate up "..").foldl (push false) [] = List.replicate up ".." := by
  induction up with
  | zero => rfl
  | succ up ih =>
    rw [List.replicate_succ', List.foldl_append, ih, ← List.replicate_succ']
    exact push_parent_replicate up

/-- A path in normal form: only leading parts of a relative path are `..`. -/
def Normal (path : Path) : Prop :=
  ∃ up rest, path.parts = List.replicate up ".." ++ rest ∧ ".." ∉ rest ∧ (path.absolute → up = 0)

/-- A stack keeps its `..` segments at the bottom, and has none above the root. -/
theorem push_normal (h : Normal ⟨absolute, reversed.reverse⟩) (part : String) :
    Normal ⟨absolute, (push absolute reversed part).reverse⟩ := by
  obtain ⟨up, rest, heq, hrest, hup⟩ := h
  obtain rfl : reversed = rest.reverse ++ List.replicate up ".." := by
    simpa using congrArg List.reverse heq
  by_cases hpart : part = ".."
  · subst hpart
    -- There is nothing but `..` segments on the stack, or the last other segment is taken away.
    obtain rfl | ⟨rest, last, rfl⟩ := List.eq_nil_or_concat rest
    · by_cases habsolute : absolute
      · obtain rfl := hup habsolute
        exact ⟨0, [], by simp [push, habsolute]⟩
      · obtain rfl : absolute = false := by simpa using habsolute
        refine ⟨up + 1, [], ?_, by simp, by simp⟩
        simpa using congrArg List.reverse (push_parent_replicate up)
    · rw [List.concat_eq_append, List.mem_append, not_or, List.mem_singleton] at hrest
      refine ⟨up, rest, ?_, hrest.1, hup⟩
      simp [push_parent_of_ne (Ne.symm hrest.2)]
  · refine ⟨up, rest ++ [part], by simp [push_of_ne hpart], ?_, hup⟩
    simp [hrest, Ne.symm hpart]

theorem foldl_push_normal (h : Normal ⟨absolute, reversed.reverse⟩) (parts : List String) :
    Normal ⟨absolute, (parts.foldl (push absolute) reversed).reverse⟩ := by
  induction parts generalizing reversed with
  | nil => exact h
  | cons part parts ih => exact ih (push_normal h part)

/-- A relative path may be folded on its own before its parts are pushed. -/
theorem foldl_push_fold (absolute : Bool) (reversed parts : List String) :
    (parts.foldl (push false) []).reverse.foldl (push absolute) reversed =
      parts.foldl (push absolute) reversed := by
  -- From the right: what the last part does to the folded stack it also does to the other one.
  induction parts using List.reverseRecOn with
  | nil => rfl
  | append_singleton parts part ih =>
    rw [List.foldl_append, List.foldl_append, ← ih]
    generalize parts.foldl (push false) [] = folded
    show (push false folded part).reverse.foldl (push absolute) reversed =
      push absolute (folded.reverse.foldl (push absolute) reversed) part
    by_cases hpart : part = ".."
    · subst hpart
      cases folded with
      | nil => rfl
      | cons last folded =>
        by_cases hlast : last = ".."
        · simp [push, hlast]
        · simp [push_parent_of_ne hlast, push_of_ne hlast]
    · simp [push_of_ne hpart]

end Stack

theorem normal_normalize (path : Path) : path.normalize.Normal :=
  foldl_push_normal ⟨0, [], by simp⟩ path.parts

theorem Normal.normalize_eq (h : path.Normal) : path.normalize = path := by
  obtain ⟨up, rest, hparts, hrest, hup⟩ := h
  obtain ⟨absolute, parts⟩ := path
  have hfront : (List.replicate up "..").foldl (push absolute) [] = List.replicate up ".." := by
    cases absolute with
    | true => simp [hup rfl]
    | false => exact foldl_push_replicate up
  simp only at hparts
  simp [normalize, hparts, hfront, foldl_push_of_not_mem hrest]

theorem mem_push {absolute : Bool} {reversed : List String} {other : String}
    (h : other ∈ push absolute reversed part) : other = part ∨ other ∈ reversed := by
  unfold push at h
  split at h <;> grind

theorem mem_foldl_push {absolute : Bool} {parts reversed : List String}
    (h : part ∈ parts.foldl (push absolute) reversed) : part ∈ parts ∨ part ∈ reversed := by
  induction parts generalizing reversed with
  | nil => exact .inr h
  | cons first parts ih =>
    rcases ih h with h | h
    · exact .inl (List.mem_cons_of_mem first h)
    · rcases mem_push h with rfl | h
      · exact .inl List.mem_cons_self
      · exact .inr h

theorem Written.normalize (h : path.Written) : path.normalize.Written := by
  intro part hmem
  rcases mem_foldl_push (List.mem_reverse.1 hmem) with hmem | hmem
  · exact h part hmem
  · cases hmem

theorem Written.parse_toText (h : path.Written) : parse path.toText = path := by
  rw [parse_eq, h.startsWith_toText]
  by_cases hne : path.parts = []
  · obtain ⟨absolute, parts⟩ := path
    subst hne
    have hsegments : segments (toText ⟨absolute, []⟩) = [""] := by
      cases absolute with
      | true => exact (segments_slash_append "").trans splitOn_slash_empty
      | false => exact splitOn_slash_empty
    rw [hsegments]
    rfl
  · rw [h.segments_toText hne, List.filter_eq_self.2 fun part hmem => (h part hmem).1]

/-! ## The normal form of a written path -/

/-- A written path in normal form, as its segments show it. -/
def Canonical (text : String) : Prop :=
  text = "" ∨ text = "/" ∨ ∃ up rest, segments text = List.replicate up ".." ++ rest ∧
    (text.startsWith "/" → up = 0) ∧ ∀ part ∈ rest, part ≠ "" ∧ part ≠ "." ∧ part ≠ ".."

theorem normalText_toText (hwritten : path.Written) (hnormal : path.Normal) :
    normalText path.toText = path.toText := by
  rw [normalText, hwritten.parse_toText, hnormal.normalize_eq]

theorem parse_normalText (text : String) : parse (normalText text) = (parse text).normalize :=
  (written_parse text).normalize.parse_toText

theorem startsWith_normalText (text : String) :
    (normalText text).startsWith "/" = text.startsWith "/" :=
  congrArg absolute (parse_normalText text)

theorem canonical_normalText (text : String) : Canonical (normalText text) := by
  obtain ⟨up, rest, hparts, hrest, hup⟩ := normal_normalize (parse text)
  have hwritten := (written_parse text).normalize
  by_cases hne : (parse text).normalize.parts = []
  · by_cases h : (parse text).normalize.absolute
    · exact .inr (.inl (by simp [normalText, toText, hne, h]))
    · exact .inl (by simp [normalText, toText, hne, h])
  · refine .inr (.inr ⟨up, rest, (hwritten.segments_toText hne).trans hparts, ?_, ?_⟩)
    · intro h
      exact hup (hwritten.startsWith_toText ▸ h)
    · intro part hmem
      have hcounts := counts_iff.1 (hwritten part (by simp [hparts, hmem])).1
      exact ⟨hcounts.1, hcounts.2, fun h => hrest (h ▸ hmem)⟩

theorem Canonical.normalText_eq (h : Canonical text) : normalText text = text := by
  rcases h with rfl | rfl | ⟨up, rest, hsegments, hup, hrest⟩
  · exact @normalText_toText ⟨false, []⟩ (by simp [Written]) ⟨0, [], by simp⟩
  · exact @normalText_toText ⟨true, []⟩ (by simp [Written]) ⟨0, [], by simp⟩
  · have hcounts : (segments text).filter counts = segments text := by
      refine List.filter_eq_self.2 fun part hmem => ?_
      rw [hsegments, List.mem_append] at hmem
      rcases hmem with hmem | hmem
      · rw [List.eq_of_mem_replicate hmem]; decide
      · exact counts_iff.2 ⟨(hrest part hmem).1, (hrest part hmem).2.1⟩
    have hnormal : (parse text).Normal := by
      rw [parse_eq, hcounts]
      exact ⟨up, rest, hsegments, fun hmem => (hrest ".." hmem).2.2 rfl, hup⟩
    rw [normalText, hnormal.normalize_eq, parse_eq, hcounts, toText_segments]

/-- The normal form is recognised by its segments. -/
theorem normalText_eq_self_iff : normalText text = text ↔ Canonical text :=
  ⟨fun h => h ▸ canonical_normalText text, Canonical.normalText_eq⟩

theorem normalText_normalText (text : String) : normalText (normalText text) = normalText text :=
  (canonical_normalText text).normalText_eq

/-! ## What is done with normal forms -/

theorem normalize_join (directory entry : Path) :
    (directory.normalize.join entry.normalize).normalize = (directory.join entry).normalize := by
  obtain ⟨rooted, parts⟩ := directory
  obtain ⟨absolute, entries⟩ := entry
  cases absolute with
  | true => exact (normal_normalize ⟨true, entries⟩).normalize_eq
  | false =>
    have hfold : (parts.foldl (push rooted) []).reverse.foldl (push rooted) [] =
        parts.foldl (push rooted) [] := by
      simpa [normalize] using (normal_normalize ⟨rooted, parts⟩).normalize_eq
    simp only [join, normalize, List.foldl_append, hfold, foldl_push_fold, Bool.false_eq_true,
      if_false]

theorem resolve_normalize (directory : Option Path) (path : Path) :
    resolve (directory.map normalize) path.normalize = resolve directory path := by
  cases directory with
  | none => exact (normal_normalize path).normalize_eq
  | some directory => exact normalize_join directory path

theorem resolve_normalText (directory : Option String) (text : String) :
    resolve ((directory.map normalText).map parse) (parse (normalText text)) =
      resolve (directory.map parse) (parse text) := by
  rw [parse_normalText, ← resolve_normalize (directory.map parse), Option.map_map, Option.map_map]
  exact congrArg (resolve · _) (congrArg (directory.map ·) (funext parse_normalText))

end Path

/-! ## Files that are kept by the normal forms of their paths -/

namespace Files

/-- The texts that were put under paths, one after the other. -/
def storeAll (insertions : List (String × String)) : Dict String :=
  insertions.foldl (fun texts insertion => store texts insertion.1 insertion.2) ∅

/-- A path finds what was put last under a path of the same normal form, and nothing else. -/
theorem read_inMemory_storeAll (insertions : List (String × String)) (path : String) :
    (inMemory (storeAll insertions)).read path =
      (insertions.filter fun insertion =>
        Path.normalText insertion.1 = Path.normalText path).getLast?.elim (.error .missing)
        fun insertion => .ok insertion.2 := by
  induction insertions using List.reverseRecOn with
  | nil => rfl
  | append_singleton insertions insertion ih =>
    have hstore : storeAll (insertions ++ [insertion]) =
        store (storeAll insertions) insertion.1 insertion.2 := by
      simp [storeAll]
    rw [hstore, List.filter_append]
    by_cases h : Path.normalText insertion.1 = Path.normalText path
    · simp [inMemory, store, h, Dict.get?_insert]
    · rw [List.filter_singleton, decide_eq_false h, cond_false, List.append_nil, ← ih]
      simp [inMemory, store, Dict.get?_insert, Ne.symm h]

end Files

/-- **The normal form of a path.** It is in normal form already, as its segments show, and only texts
that are have themselves as their normal form; it starts at the root if the path does. A look from a
directory and a look-up among kept files give the same for all spellings of a path, and the file that
was kept last under one of them is found. -/
theorem Path.normal_form_laws (text : String) (directory : Option String)
    (insertions : List (String × String)) :
    normalText (normalText text) = normalText text ∧
    Canonical (normalText text) ∧
    (normalText text = text ↔ Canonical text) ∧
    (normalText text).startsWith "/" = text.startsWith "/" ∧
    resolve ((directory.map normalText).map parse) (parse (normalText text)) =
      resolve (directory.map parse) (parse text) ∧
    (Files.inMemory (Files.storeAll insertions)).read text =
      (insertions.filter fun insertion =>
        normalText insertion.1 = normalText text).getLast?.elim (.error .missing)
        fun insertion => .ok insertion.2 :=
  ⟨normalText_normalText text, canonical_normalText text, normalText_eq_self_iff,
    startsWith_normalText text, resolve_normalText directory text,
    Files.read_inMemory_storeAll insertions text⟩

end Rehearsal
