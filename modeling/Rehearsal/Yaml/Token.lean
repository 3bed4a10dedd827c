import Rehearsal.Yaml.Scalar

/-!
# YAML tokens

The scanner turns indentation into explicit tokens: a block list or map opens where its first
entry stands and closes where a line starts further left. A map key is recognised only when the
colon behind it is met, so the scanner remembers where a key could have begun
(`PossibleKey`) and puts the key token there.

* `Cursor`: the text that is left, with its position;
* `Scanner.fetch`: reads the next token;
* `Token.scan`: reads all tokens of a text.
-/

namespace Rehearsal.Yaml

/-- The words of a YAML text. -/
inductive Token where
  /-- The line `---`. -/
  | documentStart
  /-- The line `...`. -/
  | documentEnd
  /-- The start of a block list. -/
  | blockList
  /-- The start of a block map. -/
  | blockMap
  /-- The end of a block list or map. -/
  | blockEnd
  /-- The bracket that opens a flow list. -/
  | flowList
  /-- The bracket that closes a flow list. -/
  | flowListEnd
  /-- The brace that opens a flow map. -/
  | flowMap
  /-- The brace that closes a flow map. -/
  | flowMapEnd
  /-- The dash of a block list entry. -/
  | entry
  /-- The comma of a flow list or map. -/
  | comma
  /-- The start of a key. -/
  | key
  /-- The colon in front of a value. -/
  | value
  /-- A scalar; a plain one has no quotes and is no block of text. -/
  | scalar (text : String) (plain : Bool)
deriving DecidableEq, Inhabited

/-- Whether a character ends a line, where every line feed, carriage return or next line character
was made a line feed before (`unifyBreaks`). -/
def isBreak (c : Char) : Bool := c == '\n' || c == '\u2028' || c == '\u2029'

/-- Whether a character is a blank or a line break. -/
def isBlank (c : Char) : Bool := c == ' ' || c == '\t' || isBreak c

/-- The text that is left and where it starts. -/
structure Cursor where
  /-- The characters that are left. -/
  rest : List Char
  /-- The line, from zero. -/
  line : Nat := 0
  /-- The column, from zero. -/
  column : Nat := 0
  /-- How many bytes were read. -/
  index : Nat := 0

namespace Cursor

/-- Steps over one character. -/
def next (c : Cursor) : Cursor :=
  match c.rest with
  | [] => c
  | x :: rest =>
    if isBreak x then ⟨rest, c.line + 1, 0, c.index + x.utf8Size⟩
    else ⟨rest, c.line, c.column + 1, c.index + x.utf8Size⟩

theorem length_next_lt {c : Cursor} {x : Char} {xs : List Char} (h : c.rest = x :: xs) :
    c.next.rest.length < c.rest.length := by
  simp only [next, h]
  split <;> simp

/-- Steps over `n` characters. -/
def skip (c : Cursor) : Nat → Cursor
  | 0 => c
  | n + 1 => c.next.skip n

/-- The character `n` places ahead. -/
def peek (c : Cursor) (n : Nat) : Option Char := c.rest[n]?

/-- Whether the text ends or a blank or line break stands `n` places ahead. -/
def blankOrEnd (c : Cursor) (n : Nat) : Bool := (c.peek n).all isBlank

/-- Whether the text ends or a line break stands here. -/
def breakOrEnd (c : Cursor) : Bool := (c.peek 0).all isBreak

/-- Steps over the characters that satisfy `p`; answers them too. -/
def takeWhile (c : Cursor) (p : Char → Bool) : List Char × Cursor :=
  match _h : c.rest with
  | [] => ([], c)
  | x :: _ =>
    if p x then
      let (taken, c) := c.next.takeWhile p
      (x :: taken, c)
    else ([], c)
termination_by c.rest.length
decreasing_by exact _h ▸ length_next_lt _h

/-- Whether a document marker stands at the start of this line. -/
def atMarker (c : Cursor) (mark : Char) : Bool :=
  c.column = 0 && c.peek 0 == some mark && c.peek 1 == some mark && c.peek 2 == some mark && c.blankOrEnd 3

/-- Whether either document marker stands here. -/
def atAnyMarker (c : Cursor) : Bool := c.atMarker '-' || c.atMarker '.'

end Cursor

/-- Where a key could have begun. -/
structure PossibleKey where
  /-- Whether nothing but a key may stand there. -/
  required : Bool
  /-- How many tokens came before it. -/
  before : Nat
  /-- Its line. -/
  line : Nat
  /-- Its column. -/
  column : Nat
  /-- How many bytes came before it. -/
  index : Nat

/-- The state of the scanner. -/
structure Scanner where
  /-- The text that is left. -/
  cursor : Cursor
  /-- The tokens so far. -/
  tokens : Array Token := #[]
  /-- The column of the innermost open block, or `-1`. -/
  indent : Int := -1
  /-- The columns of the open blocks around it, innermost first. -/
  outerIndents : List Int := []
  /-- How many flow lists and maps are open. -/
  flow : Nat := 0
  /-- Whether a key may begin here. -/
  keyAllowed : Bool := true
  /-- Where a key could have begun, for every open flow level, innermost first. -/
  keys : List (Option PossibleKey) := [none]

namespace Scanner

/-- Appends a token. -/
def emit (s : Scanner) (token : Token) : Scanner := { s with tokens := s.tokens.push token }

/-- The possible key of the innermost flow level. -/
def currentKey (s : Scanner) : Option PossibleKey := s.keys.head?.getD none

/-- Replaces the possible key of the innermost flow level. -/
def setKey (s : Scanner) (key : Option PossibleKey) : Scanner :=
  { s with keys := key :: s.keys.tail }

/-- Forgets the possible key; a required one must not be forgotten. -/
def dropKey (s : Scanner) : Option Scanner :=
  match s.currentKey with
  | some key => if key.required then none else some (s.setKey none)
  | none => some s

/-- Remembers that a key could begin here. -/
def saveKey (s : Scanner) : Option Scanner :=
  if s.keyAllowed then do
    let s ← s.dropKey
    return s.setKey <| some
      { required := s.flow = 0 && s.indent == s.cursor.column, before := s.tokens.size,
        line := s.cursor.line, column := s.cursor.column, index := s.cursor.index }
  else some s

/-- Forgets keys that began on an earlier line or more than 1024 bytes back. -/
def dropStaleKeys (s : Scanner) : Option Scanner := do
  let keys ← s.keys.mapM fun key =>
    match key with
    | none => some none
    | some key =>
      if key.line < s.cursor.line ∨ key.index + 1024 < s.cursor.index then
        if key.required then none else some none
      else some (some key)
  return { s with keys }

/-- Opens a block at a column if none is open there; `place` says where its token goes. -/
def openBlock (s : Scanner) (column : Nat) (place : Nat) (token : Token) : Scanner :=
  if s.flow = 0 ∧ s.indent < column then
    { s with
      outerIndents := s.indent :: s.outerIndents, indent := column,
      tokens := s.tokens.insertIdxIfInBounds place token }
  else s

/-- Closes the blocks that stand further right than a column. -/
def closeBlocks (s : Scanner) (column : Int) : Scanner :=
  if s.flow > 0 then s
  else
    let rec go (indent : Int) (tokens : Array Token) : List Int → Scanner
      | [] => { s with indent, tokens, outerIndents := [] }
      | outer :: rest =>
        if indent > column then go outer (tokens.push .blockEnd) rest
        else { s with indent, tokens, outerIndents := outer :: rest }
    go s.indent s.tokens s.outerIndents

/-- Steps over blanks, comments and line breaks; a line break outside flow lists and maps lets a
key begin. A byte order mark that begins a line is stepped over too, and takes its column. -/
def skipToToken (s : Scanner) : Nat → Scanner
  | 0 => s
  | fuel + 1 =>
    match s.cursor.peek 0 with
    | none => s
    | some x =>
      if x = '\uFEFF' ∧ s.cursor.column = 0 ∨ x = ' ' ∨ x = '\t' ∧ (s.flow > 0 ∨ !s.keyAllowed) then
        { s with cursor := s.cursor.next }.skipToToken fuel
      else if x = '#' then
        { s with cursor := (s.cursor.takeWhile (!isBreak ·)).2 }.skipToToken fuel
      else if isBreak x then
        { s with cursor := s.cursor.next, keyAllowed := s.keyAllowed || s.flow = 0 }.skipToToken fuel
      else s

/-- How a line break reads that others follow, where lines are joined: a line feed is a blank if it
stands alone and is dropped in front of others; the other line breaks stay. -/
def foldBreaks (first : Char) (others : List Char) : List Char :=
  if first ≠ '\n' then first :: others else if others.isEmpty then [' '] else others

/-- How a run of blanks and line breaks reads inside a scalar: blanks on one line stay, between
lines only the line breaks count. -/
def foldBlanks (blanks : List Char) : List Char :=
  match blanks.filter isBreak with
  | [] => blanks
  | first :: others => foldBreaks first others

/-- Whether a tab stands left of a column at the start of one of the lines that follow. -/
def tabIndents (c : Cursor) (column : Int) : Bool :=
  let (blanks, _) := c.takeWhile isBlank
  let rec go (afterBreak : Bool) (col : Nat) : List Char → Bool
    | [] => false
    | x :: rest =>
      if isBreak x then go true 0 rest
      else (x == '\t' && afterBreak && (col : Int) < column) || go afterBreak (col + 1) rest
  go false c.column blanks

/-- Whether a character closes or separates flow parts. -/
def isFlowMark (c : Char) : Bool := [',', '[', ']', '\x7b', '\x7d'].contains c

/-- The characters of a plain scalar up to the next blank or mark that ends it; fails on a colon
that a flow mark follows. -/
def plainRun (flow : Nat) (c : Cursor) : Nat → Option (List Char × Cursor)
  | 0 => some ([], c)
  | fuel + 1 =>
    match c.peek 0 with
    | none => some ([], c)
    | some x =>
      if isBlank x then some ([], c)
      else if x = ':' ∧ c.blankOrEnd 1 then some ([], c)
      else if x = ':' ∧ flow > 0 ∧ (c.peek 1).any isFlowMark then none
      else if flow > 0 ∧ isFlowMark x then some ([], c)
      else do
        let (run, c) ← plainRun flow c.next fuel
        return (x :: run, c)

/-- Reads a plain scalar over as many lines as belong to it; answers its text and whether a line
break follows it. -/
def plainScalar (flow : Nat) (indent : Int) (c : Cursor) (text : List Char) :
    Nat → Option (List Char × Bool × Cursor)
  | 0 => some (text, false, c)
  | fuel + 1 => do
    let (run, afterRun) ← plainRun flow c fuel
    let text := text ++ run
    let (blanks, afterBlanks) := afterRun.takeWhile isBlank
    if blanks.isEmpty then return (text, false, afterRun)
    if tabIndents afterRun indent then none
    let breaks := blanks.any isBreak
    let stops := (flow = 0 ∧ (afterBlanks.column : Int) < indent) ∨ afterBlanks.atAnyMarker ∨
      afterBlanks.peek 0 = some '#' ∨ afterBlanks.rest.isEmpty
    if stops then return (text, breaks, afterBlanks)
    let (ahead, _) ← plainRun flow afterBlanks fuel
    if ahead.isEmpty then return (text, breaks, afterBlanks)
    plainScalar flow indent afterBlanks (text ++ foldBlanks blanks) fuel

/-- The character of a one-letter escape in a double-quoted scalar. -/
def escapeLetter (c : Char) : Option Char :=
  match c with
  | '0' => some '\x00' | 'a' => some '\x07' | 'b' => some '\x08' | 't' => some '\t'
  | '\t' => some '\t' | 'n' => some '\n' | 'v' => some '\x0b' | 'f' => some '\x0c'
  | 'r' => some '\r' | 'e' => some '\x1b' | ' ' => some ' ' | '"' => some '"'
  | '/' => some '/' | '\\' => some '\\' | 'N' => some '\u0085' | '_' => some '\u00a0'
  | 'L' => some '\u2028' | 'P' => some '\u2029'
  | _ => none

/-- How many hexadecimal digits follow the letter of a numeric escape. -/
def escapeDigits (c : Char) : Option Nat :=
  match c with
  | 'x' => some 2 | 'u' => some 4 | 'U' => some 8
  | _ => none

/-- The value of hexadecimal digits. -/
def hexNumber? (cs : List Char) : Option Nat :=
  cs.foldlM (fun n c =>
    if c.isDigit then some (n * 16 + (c.toNat - 48))
    else if 'a' ≤ c ∧ c ≤ 'f' then some (n * 16 + (c.toNat - 87))
    else if 'A' ≤ c ∧ c ≤ 'F' then some (n * 16 + (c.toNat - 55))
    else none) 0

/-- Reads the rest of a quoted scalar. -/
def quotedScalar (quote : Char) (c : Cursor) (text : List Char) : Nat → Option (List Char × Cursor)
  | 0 => none
  | fuel + 1 =>
    if c.atAnyMarker then none
    else
      match c.peek 0 with
      | none => none
      | some x =>
        if x = quote then
          if quote = '\'' ∧ c.peek 1 = some '\'' then quotedScalar quote (c.skip 2) (text ++ ['\'']) fuel
          else some (text, c.next)
        else if quote = '"' ∧ x = '\\' then
          match c.peek 1 with
          | none => none
          | some y =>
            if isBreak y then
              let (blanks, after) := (c.skip 2).takeWhile isBlank
              quotedScalar quote after (text ++ blanks.filter isBreak) fuel
            else
              match escapeLetter y with
              | some z => quotedScalar quote (c.skip 2) (text ++ [z]) fuel
              | none => do
                let count ← escapeDigits y
                let digits := (c.rest.drop 2).take count
                if digits.length < count then none
                let n ← hexNumber? digits
                if (0xD800 ≤ n ∧ n < 0xE000) ∨ n > 0x10FFFF then none
                quotedScalar quote (c.skip (2 + count)) (text ++ [Char.ofNat n]) fuel
        else if isBlank x then
          let (blanks, after) := c.takeWhile isBlank
          quotedScalar quote after (text ++ foldBlanks blanks) fuel
        else quotedScalar quote c.next (text ++ [x]) fuel

/-- What happens to the line breaks at the end of a block of text. -/
inductive Chomp where
  /-- One is kept. -/
  | clip
  /-- None is kept. -/
  | strip
  /-- All are kept. -/
  | keep
deriving DecidableEq

/-- The marks behind `|` or `>`: what to do with the end, and the indentation, if given. -/
def blockHeader (c : Cursor) : Option (Chomp × Option Nat × Cursor) := do
  let chompOf (x : Option Char) : Option Chomp :=
    if x = some '-' then some .strip else if x = some '+' then some .keep else none
  let digitOf (x : Option Char) : Option Nat :=
    x.bind fun x => if x.isDigit then some (x.toNat - 48) else none
  let (chomp, digit, c) := match chompOf (c.peek 0), digitOf (c.peek 0) with
    | some chomp, _ =>
      match digitOf (c.peek 1) with
      | some digit => (chomp, some digit, c.skip 2)
      | none => (chomp, none, c.next)
    | none, some digit =>
      match chompOf (c.peek 1) with
      | some chomp => (chomp, some digit, c.skip 2)
      | none => (.clip, some digit, c.next)
    | none, none => (.clip, none, c)
  if digit = some 0 then none
  let c := (c.takeWhile fun x => x == ' ' || x == '\t').2
  let c := if c.peek 0 = some '#' then (c.takeWhile (!isBreak ·)).2 else c
  if c.breakOrEnd then some (chomp, digit, c.next) else none

/-- Steps over empty lines and the indentation of the next line. Without a known indentation the
widest one met counts. Answers the line breaks passed, the widest column and the rest. -/
def blockBreaks (indent : Option Nat) (c : Cursor) (breaks : List Char) (widest : Nat) :
    Nat → Option (List Char × Nat × Cursor)
  | 0 => some (breaks, widest, c)
  | fuel + 1 =>
    let short := indent.all (c.column < ·)
    match c.peek 0 with
    | none => some (breaks, widest, c)
    | some x =>
      if x = ' ' ∧ short then blockBreaks indent c.next breaks (max widest (c.column + 1)) fuel
      else if x = '\t' ∧ short then none
      else if isBreak x then blockBreaks indent c.next (breaks ++ [x]) widest fuel
      else some (breaks, widest, c)

/-- The line break at the end of a block's line, if there is one. -/
def lineEnd (c : Cursor) : List Char := c.rest.take 1

/-- How the line breaks between two lines of a block read: as they are, or joined (`foldBreaks`)
where text that does not begin with a blank stands on both sides. -/
def joinLines (folded : Bool) (lead after : List Char) : List Char :=
  match lead with
  | first :: _ => if folded then foldBreaks first after else lead ++ after
  | [] => after

/-- Reads the lines of a block of text at an indentation. `lead` is the line break in front of the
next line that is still to be written, `after` those of the empty lines that follow it, and
`blank` says whether the line before began with a blank. -/
def blockLines (literal : Bool) (indent : Nat) (c : Cursor) (text lead after : List Char)
    (blank : Bool) : Nat → Option (List Char × List Char × List Char × Cursor)
  | 0 => some (text, lead, after, c)
  | fuel + 1 => do
    if c.column ≠ indent ∨ c.rest.isEmpty then return (text, lead, after, c)
    let startsBlank := c.peek 0 = some ' ' || c.peek 0 = some '\t'
    let joined := joinLines (!literal && !blank && !startsBlank) lead after
    let (line, c) := c.takeWhile (!isBreak ·)
    let lead := lineEnd c
    let (after, _, c) ← blockBreaks (some indent) c.next [] 0 (c.rest.length + 1)
    blockLines literal indent c (text ++ joined ++ line) lead after startsBlank fuel

/-- Reads a block of text behind its `|` or `>`; `parent` is the column of the block around. -/
def blockScalar (literal : Bool) (parent : Int) (c : Cursor) : Option (List Char × Cursor) := do
  let fuel := c.rest.length + 1
  let (chomp, digit, c) ← blockHeader c
  let given := digit.map fun d => (if parent ≥ 0 then parent.toNat else 0) + d
  let (after, widest, c) ← blockBreaks given c [] 0 fuel
  let indent := given.getD (max widest (max (parent + 1).toNat 1))
  let (text, lead, after, c) ← blockLines literal indent c [] [] after false fuel
  let tail := (if chomp ≠ .strip then lead else []) ++ (if chomp = .keep then after else [])
  return (text ++ tail, c)

/-- Appends a token of `n` characters. -/
def emitSkip (s : Scanner) (token : Token) (n : Nat) : Scanner :=
  { s.emit token with cursor := s.cursor.skip n }

/-- Reads a document marker. -/
def fetchMarker (s : Scanner) (token : Token) : Option Scanner := do
  let s ← (s.closeBlocks (-1)).dropKey
  return { s.emitSkip token 3 with keyAllowed := false }

/-- Reads the bracket that opens a flow list or map. -/
def fetchFlowStart (s : Scanner) (token : Token) : Option Scanner := do
  let s ← s.saveKey
  return { s.emitSkip token 1 with keys := none :: s.keys, flow := s.flow + 1, keyAllowed := true }

/-- Reads the bracket that closes a flow list or map. -/
def fetchFlowEnd (s : Scanner) (token : Token) : Option Scanner := do
  let s ← s.dropKey
  let keys := if s.flow > 0 then s.keys.tail else s.keys
  return { s.emitSkip token 1 with keys, flow := s.flow - 1, keyAllowed := false }

/-- Reads the comma between flow parts. -/
def fetchComma (s : Scanner) : Option Scanner := do
  let s ← s.dropKey
  return { s.emitSkip .comma 1 with keyAllowed := true }

/-- Reads the dash of a block list entry. -/
def fetchEntry (s : Scanner) : Option Scanner := do
  if s.flow = 0 ∧ !s.keyAllowed then none
  let s ← (s.openBlock s.cursor.column s.tokens.size .blockList).dropKey
  return { s.emitSkip .entry 1 with keyAllowed := true }

/-- Reads the question mark of an explicit key. -/
def fetchKey (s : Scanner) : Option Scanner := do
  if s.flow = 0 ∧ !s.keyAllowed then none
  let s ← (s.openBlock s.cursor.column s.tokens.size .blockMap).dropKey
  return { s.emitSkip .key 1 with keyAllowed := s.flow = 0 }

/-- Reads the colon in front of a value; the key token goes where the key began. -/
def fetchValue (s : Scanner) : Option Scanner :=
  match s.currentKey with
  | some key =>
    let s := { s with tokens := s.tokens.insertIdxIfInBounds key.before .key }
    let s := (s.openBlock key.column key.before .blockMap).setKey none
    some { s.emitSkip .value 1 with keyAllowed := false }
  | none => do
    if s.flow = 0 ∧ !s.keyAllowed then none
    let s := s.openBlock s.cursor.column s.tokens.size .blockMap
    return { s.emitSkip .value 1 with keyAllowed := s.flow = 0 }

/-- Reads a block of text. -/
def fetchBlockScalar (s : Scanner) (literal : Bool) : Option Scanner := do
  let s ← s.dropKey
  let (text, cursor) ← blockScalar literal s.indent s.cursor.next
  return { s.emit (.scalar (String.ofList text) false) with cursor, keyAllowed := true }

/-- Reads a quoted scalar. -/
def fetchQuoted (s : Scanner) (quote : Char) : Option Scanner := do
  let s ← s.saveKey
  let (text, cursor) ← quotedScalar quote s.cursor.next [] (s.cursor.rest.length + 1)
  return { s.emit (.scalar (String.ofList text) false) with cursor, keyAllowed := false }

/-- Reads a plain scalar. -/
def fetchPlain (s : Scanner) : Option Scanner := do
  let s ← s.saveKey
  let (text, crossed, cursor) ←
    plainScalar s.flow (s.indent + 1) s.cursor [] (s.cursor.rest.length + 1)
  return { s.emit (.scalar (String.ofList text) true) with cursor, keyAllowed := crossed }

/-- Whether a plain scalar may begin here. -/
def startsPlain (s : Scanner) (x : Char) : Bool :=
  let dash := x == '-' && !s.cursor.blankOrEnd 1
  let colon := s.flow = 0 && (x == '?' || x == ':') && !s.cursor.blankOrEnd 1
  let marks := ['-', '?', ':', ',', '[', ']', '\x7b', '\x7d', '#', '&', '*', '!', '|', '>', '\'',
    '"', '%', '@', '\u0060']
  dash || colon || !(isBlank x || marks.contains x)

/-- Reads the next token; the answer says whether the text is at its end. -/
def fetch (s : Scanner) : Option (Scanner × Bool) := do
  let s ← (s.skipToToken (s.cursor.rest.length + 1)).dropStaleKeys
  match s.cursor.peek 0 with
  | none => return (← (s.closeBlocks (-1)).dropKey, true)
  | some x =>
    let s := s.closeBlocks s.cursor.column
    let go (r : Option Scanner) : Option (Scanner × Bool) := r.map (·, false)
    if s.cursor.column = 0 ∧ x = '%' then none
    else if s.cursor.atMarker '-' then go (s.fetchMarker .documentStart)
    else if s.cursor.atMarker '.' then go (s.fetchMarker .documentEnd)
    else if x = '[' then go (s.fetchFlowStart .flowList)
    else if x = '\x7b' then go (s.fetchFlowStart .flowMap)
    else if x = ']' then go (s.fetchFlowEnd .flowListEnd)
    else if x = '\x7d' then go (s.fetchFlowEnd .flowMapEnd)
    else if x = ',' then go s.fetchComma
    else if x = '-' ∧ s.cursor.blankOrEnd 1 then go s.fetchEntry
    else if x = '?' ∧ (s.flow > 0 ∨ s.cursor.blankOrEnd 1) then go s.fetchKey
    else if x = ':' ∧ (s.flow > 0 ∨ s.cursor.blankOrEnd 1) then go s.fetchValue
    else if x = '|' ∧ s.flow = 0 then go (s.fetchBlockScalar true)
    else if x = '>' ∧ s.flow = 0 then go (s.fetchBlockScalar false)
    else if x = '\'' ∨ x = '"' then go (s.fetchQuoted x)
    else if s.startsPlain x then go s.fetchPlain
    else none

/-- Reads tokens to the end of the text. -/
def run (s : Scanner) : Nat → Option (Array Token)
  | 0 => none
  | fuel + 1 => do
    let (s, finished) ← s.fetch
    if finished then return s.tokens else s.run fuel

end Scanner

/-- Whether a character may stand in a text at all. -/
def isPrintable (c : Char) : Bool :=
  c == '\t' || c == '\n' || c == '\r' || (0x20 ≤ c.toNat && c.toNat ≤ 0x7E) || c.toNat == 0x85 ||
    (0xA0 ≤ c.toNat && c.toNat != 0xFFFE && c.toNat != 0xFFFF)

/-- Makes every carriage return, with the line feed behind it, and every next line character a
line feed. -/
def unifyBreaks : List Char → List Char
  | '\r' :: '\n' :: rest => '\n' :: unifyBreaks rest
  | '\r' :: rest => '\n' :: unifyBreaks rest
  | '\u0085' :: rest => '\n' :: unifyBreaks rest
  | c :: rest => c :: unifyBreaks rest
  | [] => []

/-- The tokens of a text. -/
def Token.scan (text : String) : Option (List Token) :=
  let chars := text.toList
  if chars.all isPrintable then
    let scanner : Scanner := { cursor := { rest := unifyBreaks chars } }
    (scanner.run (chars.length + 2)).map (·.toList)
  else none

end Rehearsal.Yaml
