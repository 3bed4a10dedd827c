import Mathlib
import Rehearsal.Proofs.Placeholder.Fixed
import Rehearsal.Request

/-!
# Paths of operations as templates

The path of an operation is text with names in braces (`PathTemplate.pieces`). A request has the
path with a placeholder in place of every such name, and whatever that text is, it is cut into
placeholders by the rules of placeholders. Where every name is one that a placeholder can have, the
cuts are those of the path itself, unless the text between the names has a placeholder of its own:
then the text of the request has fewer characters outside of placeholders
(`PathTemplate.pieces_toPlaceholders`).
-/

namespace Rehearsal

namespace PathTemplate

open Placeholder (Piece isName isNameOf)

/-- The pieces of what follows the next `skip` characters of a path: characters that stand for
themselves, and names in braces. -/
def piecesAfter : (skip : Nat) → List Char → List Piece
  | _, [] => []
  | skip + 1, _ :: rest => piecesAfter skip rest
  | 0, c :: rest =>
    match nameAt? (c :: rest) with
    | some name => .token (String.ofList name) :: piecesAfter (name.length + 1) rest
    | none => .char c :: piecesAfter 0 rest

/-- Cuts a path into the names in braces and the characters between them. -/
def pieces (path : String) : List Piece := piecesAfter 0 path.toList

/-- The names in braces of a path. -/
def parameterNames (path : String) : List String := (pieces path).flatMap Piece.names

/-- What takes the place of a piece if a text stands for every name. -/
def filled (text : String → String) : Piece → List Char
  | .char c => [c]
  | .token name => (text name).toList

/-- The path with a text in place of every name in braces. -/
def fill (text : String → String) (path : String) : String :=
  String.ofList ((pieces path).flatMap (filled text))

/-- A piece of a path as it is written there. -/
def braced : Piece → List Char
  | .char c => [c]
  | .token name => '{' :: (name.toList ++ ['}'])

theorem mem_parameterNames_iff {path name : String} :
    name ∈ parameterNames path ↔ .token name ∈ pieces path := by
  rw [parameterNames, List.mem_flatMap]
  constructor
  · rintro ⟨piece, hmem, hname⟩
    cases piece with
    | char c => cases hname
    | token other => rwa [List.mem_singleton.1 hname]
  · exact fun hmem => ⟨.token name, hmem, List.mem_singleton_self name⟩

theorem exists_of_nameAt? {cs name : List Char} (h : nameAt? cs = some name) :
    ∃ rest, cs = '{' :: (name ++ '}' :: rest) := by
  unfold nameAt? at h
  split at h
  · next rest =>
    dsimp only at h
    split at h
    · next hname =>
      cases h
      rw [Bool.and_eq_true, beq_iff_eq, List.head?_eq_some_iff] at hname
      obtain ⟨-, tail, htail⟩ := hname
      exact ⟨tail, by rw [← htail, List.takeWhile_append_dropWhile]⟩
    · cases h
  · cases h

theorem flatMap_braced_piecesAfter (skip : Nat) (cs : List Char) :
    (piecesAfter skip cs).flatMap braced = cs.drop skip := by
  fun_induction piecesAfter skip cs with
  | case1 skip => simp
  | case2 skip c rest ih => simpa using ih
  | case3 c rest name hname ih =>
    obtain ⟨tail, htail⟩ := exists_of_nameAt? hname
    obtain ⟨rfl, rfl⟩ := List.cons.inj htail
    have hdrop : (name ++ '}' :: tail).drop (name.length + 1) = tail := by
      rw [← List.singleton_append, ← List.append_assoc]
      exact List.drop_left' (by simp)
    rw [List.flatMap_cons, ih, hdrop, braced, String.toList_ofList]
    simp
  | case4 c rest hname ih => simpa [braced] using ih

/-- Put together again, the pieces of a path are the path. -/
theorem flatMap_braced (path : String) : (pieces path).flatMap braced = path.toList :=
  flatMap_braced_piecesAfter 0 path.toList

theorem placeholdersAfter_eq (skip : Nat) (cs : List Char) :
    placeholdersAfter skip cs = (piecesAfter skip cs).flatMap Piece.chars := by
  fun_induction piecesAfter skip cs with
  | case1 skip => rw [placeholdersAfter]; rfl
  | case2 skip c rest ih => rw [placeholdersAfter, ih]
  | case3 c rest name hname ih =>
    rw [placeholdersAfter, hname]
    simp [ih, Piece.chars, Placeholder.toList_token]
  | case4 c rest hname ih =>
    rw [placeholdersAfter, hname]
    simp [ih, Piece.chars]

/-- The path with placeholders has the placeholder of every name in the place of the name. -/
theorem toList_toPlaceholders (path : String) :
    (toPlaceholders path).toList = (pieces path).flatMap Piece.chars := by
  rw [toPlaceholders, String.toList_ofList, placeholdersAfter_eq, pieces]

/-! ### Placeholders between the names -/

/-- How the pieces of a path are written: a character stands for itself, and what is written for a
name begins with none of the characters that a placeholder has behind its `$`. -/
structure Writes (write : Piece → List Char) : Prop where
  char : ∀ c, write (.char c) = [c]
  token : ∀ name, (∃ rest, write (.token name) = '$' :: '(' :: rest) ∨
    ∃ rest, write (.token name) = '{' :: rest

theorem writes_chars : Writes Piece.chars where
  char _ := rfl
  token name := .inl ⟨_, Placeholder.toList_token name⟩

theorem writes_braced : Writes braced where
  char _ := rfl
  token _ := .inr ⟨_, rfl⟩

theorem Writes.flatMap_map_char {write : Piece → List Char} (hwrite : Writes write) (run : List Char)
    (rest : List Piece) : (run.map Piece.char ++ rest).flatMap write = run ++ rest.flatMap write := by
  induction run with
  | nil => rfl
  | cons c run ih =>
    rw [List.map_cons, List.cons_append, List.flatMap_cons, ih, hwrite.char]
    rfl

/-- What ends with `)`, without brackets before that, is written in characters alone. -/
theorem Writes.eq_of_append {write : Piece → List Char} (hwrite : Writes write) {run tail : List Char}
    (hparen : '(' ∉ run) (hbrace : '{' ∉ run) {parts : List Piece}
    (h : parts.flatMap write = run ++ ')' :: tail) :
    ∃ rest, parts = (run ++ [')']).map .char ++ rest ∧ rest.flatMap write = tail := by
  induction run generalizing parts with
  | nil =>
    cases parts with
    | nil => cases h
    | cons piece rest =>
      rw [List.flatMap_cons, List.nil_append] at h
      cases piece with
      | char c =>
        rw [hwrite.char, List.singleton_append] at h
        obtain ⟨rfl, htail⟩ := List.cons.inj h
        exact ⟨rest, rfl, htail⟩
      | token name =>
        rcases hwrite.token name with ⟨_, heq⟩ | ⟨_, heq⟩ <;>
          · rw [heq] at h
            exact absurd (List.cons.inj h).1 (by decide)
  | cons c run ih =>
    rw [List.mem_cons, not_or] at hparen hbrace
    cases parts with
    | nil => cases h
    | cons piece rest =>
      rw [List.flatMap_cons, List.cons_append] at h
      cases piece with
      | char d =>
        rw [hwrite.char, List.singleton_append] at h
        obtain ⟨rfl, hnext⟩ := List.cons.inj h
        obtain ⟨rest', rfl, htail⟩ := ih hparen.2 hbrace.2 hnext
        exact ⟨rest', rfl, htail⟩
      | token name =>
        rcases hwrite.token name with ⟨_, heq⟩ | ⟨_, heq⟩
        · -- The bracket behind the `$` would be in the run, or be what ends it.
          rw [heq] at h
          have hnext := (List.cons.inj h).2
          cases run with
          | nil => exact absurd (List.cons.inj hnext).1 (by decide)
          | cons d run => exact absurd ((List.cons.inj hnext).1 ▸ List.mem_cons_self) hparen.2
        · rw [heq] at h
          exact absurd (List.cons.inj h).1 hbrace.1

/-- A placeholder that begins with a character of a path is made of characters alone, however the
names are written. -/
theorem Writes.nameAt?_eq_some_iff {write : Piece → List Char} (hwrite : Writes write) {c : Char}
    {parts : List Piece} {name : List Char} :
    Placeholder.nameAt? (c :: parts.flatMap write) = some name ↔
      isNameOf name = true ∧ c = '$' ∧
        ∃ rest, parts = ('(' :: (name ++ [')'])).map .char ++ rest := by
  rw [Placeholder.nameAt?_eq_some_iff]
  refine and_congr_right fun hname => ?_
  constructor
  · rintro ⟨tail, h⟩
    obtain ⟨rfl, hrest⟩ := List.cons.inj h
    refine ⟨rfl, ?_⟩
    cases parts with
    | nil => cases hrest
    | cons piece parts =>
      rw [List.flatMap_cons] at hrest
      cases piece with
      | char d =>
        rw [hwrite.char, List.singleton_append] at hrest
        obtain ⟨rfl, hname'⟩ := List.cons.inj hrest
        have hparen : '(' ∉ name := Placeholder.not_mem_of_isNameOf (by decide) (by decide) hname
        have hbrace : '{' ∉ name := Placeholder.not_mem_of_isNameOf (by decide) (by decide) hname
        obtain ⟨rest, rfl, -⟩ := hwrite.eq_of_append hparen hbrace hname'
        exact ⟨rest, rfl⟩
      | token other =>
        rcases hwrite.token other with ⟨_, heq⟩ | ⟨_, heq⟩ <;>
          · rw [heq] at hrest
            exact absurd (List.cons.inj hrest).1 (by decide)
  · rintro ⟨rfl, rest, rfl⟩
    refine ⟨rest.flatMap write, ?_⟩
    rw [hwrite.flatMap_map_char]
    simp

theorem nameAt?_eq_none {c : Char} {cs : List Char} (h : cs.head? ≠ some '(') :
    Placeholder.nameAt? (c :: cs) = none := by
  by_contra hsome
  obtain ⟨name, hname⟩ := Option.ne_none_iff_exists'.1 hsome
  obtain ⟨-, rest, heq⟩ := Placeholder.nameAt?_eq_some_iff.1 hname
  rw [(List.cons.inj heq).2] at h
  exact h rfl

/-- No placeholder begins among characters without `(` in front of a `}`. -/
theorem placeholderPieces_append {run tail : List Char} (hparen : '(' ∉ run) :
    Placeholder.piecesAfter 0 (run ++ '}' :: tail) =
      (run ++ ['}']).map .char ++ Placeholder.piecesAfter 0 tail := by
  induction run with
  | nil =>
    have hnone : Placeholder.nameAt? ('}' :: tail) = none := by
      by_contra hsome
      obtain ⟨name, hname⟩ := Option.ne_none_iff_exists'.1 hsome
      obtain ⟨-, rest, heq⟩ := Placeholder.nameAt?_eq_some_iff.1 hname
      exact absurd (List.cons.inj heq).1 (by decide)
    rw [List.nil_append, Placeholder.piecesAfter, hnone]
    rfl
  | cons c run ih =>
    rw [List.mem_cons, not_or] at hparen
    have hnone : Placeholder.nameAt? (c :: (run ++ '}' :: tail)) = none := by
      refine nameAt?_eq_none fun hhead => ?_
      cases run with
      | nil => exact absurd (Option.some.inj hhead) (by decide)
      | cons d run => exact hparen.2 (Option.some.inj hhead ▸ List.mem_cons_self)
    rw [List.cons_append, Placeholder.piecesAfter, hnone]
    simp [ih hparen.2]

theorem placeholderPieces_drop (run tail : List Char) :
    Placeholder.piecesAfter run.length (run ++ tail) = Placeholder.piecesAfter 0 tail := by
  induction run with
  | nil => rfl
  | cons c run ih => exact ih

/-- The number of characters outside of names. -/
def charCount (parts : List Piece) : Nat := parts.countP fun piece => piece.names.isEmpty

@[simp] theorem charCount_char (c : Char) (parts : List Piece) :
    charCount (.char c :: parts) = charCount parts + 1 := by
  simp [charCount, Piece.names]

@[simp] theorem charCount_token (name : String) (parts : List Piece) :
    charCount (.token name :: parts) = charCount parts := by
  simp [charCount, Piece.names]

@[simp] theorem charCount_append (parts others : List Piece) :
    charCount (parts ++ others) = charCount parts + charCount others :=
  List.countP_append

@[simp] theorem charCount_map_char (cs : List Char) : charCount (cs.map .char) = cs.length := by
  induction cs with
  | nil => rfl
  | cons c cs ih => simp [ih]

/-- The token of a name in front of a text is read as a placeholder. -/
theorem placeholderPieces_token {name : List Char} (hname : isNameOf name = true) (tail : List Char) :
    Placeholder.piecesAfter 0 ('$' :: '(' :: (name ++ ')' :: tail)) =
      .token (String.ofList name) :: Placeholder.piecesAfter 0 tail := by
  have hat : Placeholder.nameAt? ('$' :: '(' :: (name ++ ')' :: tail)) = some name :=
    Placeholder.nameAt?_eq_some_iff.2 ⟨hname, tail, rfl⟩
  have hrun : (name ++ ')' :: tail) = (name ++ [')']) ++ tail := by simp
  rw [Placeholder.piecesAfter, hat]
  dsimp only
  rw [hrun, Placeholder.piecesAfter]
  have hlength : name.length + 1 = (name ++ [')']).length := by simp
  rw [hlength, placeholderPieces_drop]

section Cut

variable {name : String} (hname : isName name = true) (rest : List Piece)

include hname

theorem placeholderPieces_chars_token :
    Placeholder.piecesAfter 0 ((Piece.token name :: rest).flatMap Piece.chars) =
      .token name :: Placeholder.piecesAfter 0 (rest.flatMap Piece.chars) := by
  have hcut := placeholderPieces_token hname (rest.flatMap Piece.chars)
  rw [String.ofList_toList] at hcut
  rw [← hcut]
  simp [Piece.chars, Placeholder.toList_token]

/-- Nothing in a name in braces is read as a placeholder. -/
theorem placeholderPieces_braced_token :
    Placeholder.piecesAfter 0 ((Piece.token name :: rest).flatMap braced) =
      ('{' :: name.toList ++ ['}']).map .char ++ Placeholder.piecesAfter 0 (rest.flatMap braced) := by
  have hparen : '(' ∉ '{' :: name.toList := by
    rw [List.mem_cons, not_or]
    exact ⟨by decide, Placeholder.not_mem_of_isNameOf (by decide) (by decide) hname⟩
  rw [← placeholderPieces_append hparen]
  simp [braced]

end Cut

theorem Writes.placeholderPieces_char {write : Piece → List Char} (hwrite : Writes write) {c : Char}
    {rest : List Piece} (hnone : Placeholder.nameAt? (c :: rest.flatMap write) = none) :
    Placeholder.piecesAfter 0 ((Piece.char c :: rest).flatMap write) =
      .char c :: Placeholder.piecesAfter 0 (rest.flatMap write) := by
  rw [List.flatMap_cons, hwrite.char, List.singleton_append, Placeholder.piecesAfter, hnone]

/-- Whether a placeholder begins with a character of a path does not depend on how names are
written. -/
theorem nameAt?_chars_eq (c : Char) (rest : List Piece) :
    Placeholder.nameAt? (c :: rest.flatMap Piece.chars) =
      Placeholder.nameAt? (c :: rest.flatMap braced) :=
  Option.ext fun _ =>
    writes_chars.nameAt?_eq_some_iff.trans writes_braced.nameAt?_eq_some_iff.symm

/-- Written as placeholders, the pieces of a path are cut as they are, unless the text between the
names has a placeholder: then fewer characters are outside of placeholders. -/
theorem placeholderPieces_eq_or (parts : List Piece)
    (hnames : ∀ name, .token name ∈ parts → isName name = true) :
    ((∀ name, .token name ∉ Placeholder.piecesAfter 0 (parts.flatMap braced)) ∧
      Placeholder.piecesAfter 0 (parts.flatMap Piece.chars) = parts) ∨
    ((∃ name, .token name ∈ Placeholder.piecesAfter 0 (parts.flatMap braced)) ∧
      charCount (Placeholder.piecesAfter 0 (parts.flatMap Piece.chars)) < charCount parts) := by
  -- A placeholder of the text takes up several pieces at once, so the induction is on their number.
  induction hlength : parts.length using Nat.strong_induction_on generalizing parts with
  | _ n ih =>
    subst hlength
    cases parts with
    | nil => exact .inl ⟨fun _ => List.not_mem_nil, rfl⟩
    | cons piece rest =>
      have hrest : ∀ name, .token name ∈ rest → isName name = true :=
        fun name hmem => hnames name (List.mem_cons_of_mem piece hmem)
      have hbelow := ih rest.length (by simp) rest hrest rfl
      cases piece with
      | token name =>
        have hname : isName name = true := hnames name List.mem_cons_self
        rw [placeholderPieces_braced_token hname, placeholderPieces_chars_token hname]
        simpa using hbelow
      | char c =>
        cases hat : Placeholder.nameAt? (c :: rest.flatMap braced) with
        | none =>
          rw [writes_braced.placeholderPieces_char hat,
            writes_chars.placeholderPieces_char ((nameAt?_chars_eq c rest).trans hat)]
          simpa using hbelow
        | some name =>
          obtain ⟨hname, rfl, tail, rfl⟩ := writes_braced.nameAt?_eq_some_iff.1 hat
          have htail : charCount (Placeholder.piecesAfter 0 (tail.flatMap Piece.chars)) ≤
              charCount tail := by
            rcases ih tail.length (by simp; omega) tail
              (fun name hmem => hrest name (List.mem_append_right _ hmem)) rfl with ⟨-, heq⟩ | ⟨-, hlt⟩
            · rw [heq]
            · exact hlt.le
          refine .inr ⟨⟨String.ofList name, ?_⟩, ?_⟩
          · rw [List.flatMap_cons, braced, List.singleton_append, Placeholder.piecesAfter, hat]
            exact List.mem_cons_self
          · rw [List.flatMap_cons, Piece.chars, List.singleton_append, writes_chars.flatMap_map_char,
              List.cons_append, List.append_assoc, List.singleton_append,
              placeholderPieces_token hname, charCount_token, charCount_char, charCount_append,
              charCount_map_char]
            omega

/-- The path of a request is cut where the path of the operation is, if each of the names is one
that a placeholder can have, and the path has no placeholder of its own. -/
theorem pieces_toPlaceholders {path : String}
    (hnames : ∀ name ∈ parameterNames path, isName name = true)
    (hown : Placeholder.names path = []) :
    Placeholder.pieces (toPlaceholders path) = pieces path := by
  rw [Placeholder.pieces, toList_toPlaceholders]
  rcases placeholderPieces_eq_or (pieces path)
    (fun name hmem => hnames name (mem_parameterNames_iff.2 hmem)) with ⟨-, heq⟩ | ⟨⟨name, hmem⟩, -⟩
  · exact heq
  · rw [flatMap_braced] at hmem
    have hname : name ∈ Placeholder.names path := Placeholder.mem_names_iff.2 hmem
    rw [hown] at hname
    cases hname

/-- If the path has a placeholder of its own, the path of the request has fewer characters outside
of placeholders. -/
theorem charCount_pieces_toPlaceholders_lt {path : String}
    (hnames : ∀ name ∈ parameterNames path, isName name = true)
    (hown : Placeholder.names path ≠ []) :
    charCount (Placeholder.pieces (toPlaceholders path)) < charCount (pieces path) := by
  rw [Placeholder.pieces, toList_toPlaceholders]
  rcases placeholderPieces_eq_or (pieces path)
    (fun name hmem => hnames name (mem_parameterNames_iff.2 hmem)) with ⟨hnone, -⟩ | ⟨-, hlt⟩
  · obtain ⟨name, hname⟩ := List.exists_mem_of_ne_nil _ hown
    rw [flatMap_braced] at hnone
    exact absurd (Placeholder.mem_names_iff.1 hname) (hnone name)
  · exact hlt

/-! ### Templates that are not filled -/

theorem length_flatMap_filled (text : String → String) (parts : List Piece) :
    (parts.flatMap (filled text)).length =
      charCount parts + ((parts.flatMap Piece.names).map fun name => (text name).length).sum := by
  induction parts with
  | nil => rfl
  | cons piece parts ih =>
    rw [List.flatMap_cons, List.flatMap_cons, List.length_append, ih, List.map_append,
      List.sum_append]
    cases piece with
    | char c => simp [filled, Piece.names]; omega
    | token name => simp [filled, Piece.names, String.length_toList]; omega

/-- The text that marks one name; all others have none. -/
def mark (name other : String) : String := if other = name then "a" else ""

theorem names_mark (name other : String) : Placeholder.names (mark name other) = [] := by
  unfold mark
  split <;> decide

theorem sum_length_mark (name : String) (others : List String) :
    (others.map fun other => (mark name other).length).sum = others.count name := by
  induction others with
  | nil => rfl
  | cons other others ih =>
    rw [List.map_cons, List.sum_cons, ih, List.count_cons, mark]
    by_cases heq : other = name
    · rw [if_pos heq, heq, beq_self_eq_true, if_pos rfl, Nat.add_comm]
      rfl
    · simp [heq]

/-- If the path of the request is filled as the path is, whatever stands for the names, then each
name in braces is one that a placeholder can have, and the path has no placeholder of its own. -/
theorem isName_of_forall_filled {path : String}
    (hall : ∀ text : String → String, (∀ name, Placeholder.names (text name) = []) →
      (Placeholder.pieces (toPlaceholders path)).flatMap (filled text) =
        (pieces path).flatMap (filled text)) :
    (∀ name ∈ parameterNames path, isName name = true) ∧ Placeholder.names path = [] := by
  -- Without any text the characters are counted, and with a mark the occurrences of a name.
  have hchars : charCount (Placeholder.pieces (toPlaceholders path)) = charCount (pieces path) := by
    have hempty := congrArg List.length (hall (fun _ => "") fun _ => rfl)
    rw [length_flatMap_filled, length_flatMap_filled] at hempty
    simpa using hempty
  have hnames : ∀ name ∈ parameterNames path, isName name = true := by
    intro name hmem
    have hmarked := congrArg List.length (hall (mark name) (names_mark name))
    rw [length_flatMap_filled, length_flatMap_filled, hchars, sum_length_mark, sum_length_mark,
      ← Placeholder.names_eq_flatMap, ← parameterNames] at hmarked
    have hpos : 0 < (Placeholder.names (toPlaceholders path)).count name := by
      rw [Nat.add_left_cancel hmarked]
      exact List.count_pos_iff.2 hmem
    exact Placeholder.isName_of_mem_names (List.count_pos_iff.1 hpos)
  refine ⟨hnames, ?_⟩
  by_contra hown
  exact (charCount_pieces_toPlaceholders_lt hnames hown).ne hchars

end PathTemplate

end Rehearsal
