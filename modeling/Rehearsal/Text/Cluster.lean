import Rehearsal.Text.Emoji
import Rehearsal.Text.Invisible
import Rehearsal.Text.Wide

/-!
# Characters that share columns

Most characters take columns of their own (`charWidth`). Some take part in a sequence that is shown
as one: a carriage return with its line feed, emoji with selectors, modifiers and joiners, and the
ligatures of some scripts. A text is read from its end, because what stands behind a character says
whether it takes part in such a sequence.

* `Follower`: what stands behind a character, as far as it matters to it;
* `Follower.merge?`: the sequences;
* `Behind.extend`: the columns that one more character in front adds.
-/

namespace Rehearsal.Text

/-- How many columns a character takes that stands alone. -/
def charWidth (c : Char) : Nat :=
  if c.toNat ≤ 0xA0 then 1
  else if c = '\u17D8' then 3
  else if c = '\u17A4' then 2
  else if zeroWidth.contains c then 0
  else if wide.contains c then 2
  else 1

/-! ### Letters -/

/-- The Arabic letters of the joining group Alef. -/
def arabicAlef : CharSet :=
  [(0x622, 0x623), (0x625, 0x625), (0x627, 0x627), (0x671, 0x673), (0x675, 0x675), (0x773, 0x774),
   (0x870, 0x882)]

/-- The Arabic letters of the joining group Lam. -/
def arabicLam : CharSet :=
  [(0x644, 0x644), (0x6B5, 0x6B8), (0x76A, 0x76A), (0x8A6, 0x8A6), (0x8C7, 0x8C7)]

/-- The Khmer letters that take no column as the lower part of a stack. -/
def khmerStacked : CharSet :=
  [(0x1780, 0x1782), (0x1784, 0x1787), (0x1789, 0x178C), (0x178E, 0x1793), (0x1795, 0x1798),
   (0x179B, 0x179D), (0x17A0, 0x17A0), (0x17A2, 0x17A2), (0x17A7, 0x17A7), (0x17AB, 0x17AC),
   (0x17AF, 0x17AF)]

/-- The Tifinagh letters that form pairs. -/
def tifinaghConsonant : CharSet := [(0x2D31, 0x2D65), (0x2D6F, 0x2D6F)]

/-- The first halves of Lisu tone marks. -/
def lisuToneStart : CharSet := [(0xA4F8, 0xA4FB)]

/-- The second halves of Lisu tone marks. -/
def lisuToneEnd : CharSet := [(0xA4FC, 0xA4FD)]

/-- Invisible marks that may stand inside a ligature. -/
def ligatureTransparent : CharSet :=
  [(0x34F, 0x34F), (0x17B4, 0x17B5), (0x180B, 0x180D), (0x180F, 0x180F), (0x200D, 0x200D),
   (0xFE00, 0xFE0F), (0xE0100, 0xE01EF)]

/-- The zero width joiner. -/
def joiner : Char := '\u200D'

/-- What a ligature ends with, where invisible marks may stand between its letters. -/
inductive LigatureEnd where
  /-- The Hebrew letter lamed. -/
  | lamed
  /-- The Buginese letter ya. -/
  | ya
  /-- The Buginese vowel sign i with a joined ya behind it. -/
  | vowelAndYa
  /-- A Tifinagh consonant. -/
  | consonant
  /-- The Tifinagh joiner with a consonant behind it. -/
  | joinedConsonant
  /-- The second half of a Lisu tone mark. -/
  | tone
  /-- The Old Turkic letter orkhon i. -/
  | orkhon
  /-- A Khmer letter that can be stacked. -/
  | stacked
deriving DecidableEq

/-- What stands behind a character, as far as it matters to it. -/
inductive Follower where
  /-- Nothing that matters. -/
  | other
  /-- A line feed. -/
  | lineFeed
  /-- A modifier for the colour of the skin. -/
  | modifier
  /-- A regional indicator. -/
  | indicator
  /-- Several regional indicators. -/
  | indicators
  /-- An emoji. -/
  | emoji
  /-- A joiner with an emoji behind it. -/
  | joined
  /-- A keycap mark that is joined to an emoji. -/
  | joinedKeycap
  /-- A regional indicator that is joined to an emoji. -/
  | joinedIndicator
  /-- An even number of regional indicators that are joined to an emoji. -/
  | joinedEven
  /-- An odd number of regional indicators, more than one, that are joined to an emoji. -/
  | joinedOdd
  /-- The end of a tag, and the numbers of its letters and digits so far, joined to an emoji. -/
  | joinedTag (letters digits : Nat)
  /-- An Arabic alef. -/
  | alef
  /-- The end of a ligature, and whether a joiner stands in front of it. -/
  | ligature (last : LigatureEnd) (hasJoiner : Bool)
  /-- The Kirat Rai vowel sign e. -/
  | signE
  /-- The Kirat Rai vowel sign ai. -/
  | signAI
deriving DecidableEq

namespace LigatureEnd

/-- The columns that a letter in front of a ligature's end adds, if it takes part in it, and what
the two are to the character in front of them. -/
def merge? (last : LigatureEnd) (hasJoiner : Bool) (c : Char) : Option (Int × Follower) :=
  match last with
  | .lamed => if hasJoiner ∧ c = '\u05D0' then some (0, .other) else none
  | .ya => if hasJoiner ∧ c = '\u1A17' then some (0, .ligature .vowelAndYa true) else none
  | .vowelAndYa => if c = '\u1A15' then some (0, .other) else none
  | .consonant =>
    if c = '\u2D7F' then some (1, .ligature .joinedConsonant true)
    else if hasJoiner ∧ tifinaghConsonant.contains c then some (0, .other)
    else none
  | .joinedConsonant => if tifinaghConsonant.contains c then some (-1, .other) else none
  | .tone => if lisuToneStart.contains c then some (0, .other) else none
  | .orkhon => if hasJoiner ∧ c.toNat = 0x10C32 then some (0, .other) else none
  | .stacked => if c = '\u17D2' then some (-1, .other) else none

end LigatureEnd

namespace Follower

/-- What a character is to the one in front of it. -/
def ofChar (c : Char) : Follower :=
  if arabicAlef.contains c then .alef
  else if c = '\u05DC' then .ligature .lamed false
  else if c = '\u1A10' then .ligature .ya false
  else if tifinaghConsonant.contains c then .ligature .consonant false
  else if lisuToneEnd.contains c then .ligature .tone false
  else if c.toNat = 0x10C03 then .ligature .orkhon false
  else if khmerStacked.contains c then .ligature .stacked false
  else if c.toNat = 0x16D67 then .signE
  else if c.toNat = 0x16D68 then .signAI
  else if regionalIndicator.contains c then .indicator
  else if emojiModifier.contains c then .modifier
  else if emojiPresentation.contains c then .emoji
  else .other

/-- What a character in front of a joiner and an emoji does to the sequence. -/
def join? (c : Char) : Option (Int × Follower) :=
  if c = '\u20E3' then some (0, .joinedKeycap)
  else if regionalIndicator.contains c then some (1, .joinedIndicator)
  else if emojiModifier.contains c then some (0, .modifier)
  else if c.toNat = 0xE007F then some (0, .joinedTag 0 0)
  else if emojiPresentation.contains c then some (0, .emoji)
  else none

/-- What a character in front of a tag does to it: a tag that stands for a region has two letters or
three digits and then at least one letter more, at most four, and a black flag in front. -/
def tag? (letters digits : Nat) (c : Char) : Option (Int × Follower) :=
  if 0xE0061 ≤ c.toNat ∧ c.toNat ≤ 0xE007A ∧ letters < 6 ∧ digits = 0 then
    some (0, .joinedTag (letters + 1) 0)
  else if 0xE0030 ≤ c.toNat ∧ c.toNat ≤ 0xE0039 ∧ letters ≤ 4 ∧ digits < 3 then
    some (0, .joinedTag letters (digits + 1))
  else if c.toNat = 0x1F3F4 ∧ (digits = 3 ∨ digits = 0 ∧ 3 ≤ letters) then some (0, .emoji)
  else none

/-- The columns that a character adds which is shown together with what stands behind it, and what
the two are to the character in front of them. -/
def merge? (f : Follower) (c : Char) : Option (Int × Follower) :=
  match f with
  | .other | .lineFeed | .joinedKeycap => none
  | .modifier =>
    if emojiModifierBase.contains c then some (0, .emoji)
    else if c = joiner then some (0, .joined)
    else none
  | .indicator => if regionalIndicator.contains c then some (1, .indicators) else none
  | .indicators =>
    if regionalIndicator.contains c then some (1, .indicators)
    else if c = joiner then some (0, .joined)
    else none
  | .emoji => if c = joiner then some (0, .joined) else none
  | .joined => join? c
  | .joinedIndicator => if regionalIndicator.contains c then some (-1, .joinedEven) else none
  | .joinedEven =>
    if regionalIndicator.contains c then some (3, .joinedOdd)
    else if c = joiner then some (0, .joined)
    else none
  | .joinedOdd =>
    if regionalIndicator.contains c then some (-1, .joinedEven)
    else if c = joiner then some (0, .joined)
    else none
  | .joinedTag letters digits => tag? letters digits c
  | .alef =>
    if arabicLam.contains c then some (0, .other)
    else if joiningTransparent c then some (0, .alef)
    else none
  | .ligature last hasJoiner =>
    if c = joiner then some (0, .ligature last true)
    else if ligatureTransparent.contains c then some (0, .ligature last hasJoiner)
    else last.merge? hasJoiner c
  | .signE =>
    if c.toNat = 0x16D63 ∨ c.toNat = 0x16D69 then some (0, .other)
    else if c.toNat = 0x16D67 then some (0, .signAI)
    else if c.toNat = 0x16D68 then some (1, .signE)
    else none
  | .signAI => if c.toNat = 0x16D63 then some (0, .other) else none

/-- The columns that a character adds in front of what stands behind it. -/
def extend (f : Follower) (c : Char) : Int × Follower :=
  (f.merge? c).getD (charWidth c, ofChar c)

/-- Whether a variation selector in front of it leaves it what it is. -/
def keepsItself : Follower → Bool
  | .alef | .ligature _ _ => true
  | _ => false

/-- Whether it is joined to an emoji and waits for a character that is to be shown as emoji. -/
def awaitsEmoji : Follower → Bool
  | .joined | .joinedKeycap => true
  | _ => false

end Follower

/-- A variation selector says how the character in front of it is shown. -/
inductive Selector where
  /-- As text. -/
  | text
  /-- As emoji. -/
  | emoji
  /-- At the full width of an ideograph. -/
  | fullwidth
deriving DecidableEq

/-- The selector that a character is, if it is one. -/
def Selector.ofChar? (c : Char) : Option Selector :=
  if c = '\uFE0E' then some .text
  else if c = '\uFE0F' then some .emoji
  else if c = '\uFE01' then some .fullwidth
  else none

/-- The quotation marks that have a form of full width. -/
def quotationMark : CharSet := [(0x2018, 0x2019), (0x201C, 0x201D)]

/-- What stands behind a character, with a variation selector directly behind it. -/
structure Behind where
  /-- What stands behind the selector. -/
  follower : Follower := .other
  /-- The selector. -/
  selector : Option Selector := none

namespace Behind

/-- What is left behind a selector that is put in front. -/
def select (follower : Follower) (selector : Selector) : Behind :=
  { follower :=
      if follower.keepsItself || selector = .emoji && follower.awaitsEmoji then follower else .other
    selector := some selector }

/-- The columns that a character adds to which the selector behind it does not apply. -/
def extendPlain (follower : Follower) (c : Char) : Int × Behind :=
  if c = '\n' then (1, { follower := .lineFeed })
  else if c = '\r' ∧ follower = .lineFeed then (0, {})
  else if c.toNat ≤ 0xA0 then (1, {})
  else
    match Selector.ofChar? c with
    | some selector => (0, select follower selector)
    | none =>
      let (columns, follower) := follower.extend c
      (columns, { follower })

/-- The columns that a character adds in front of what stands behind it, and what they are together
to the character in front of them. -/
def extend (behind : Behind) (c : Char) : Int × Behind :=
  match behind.selector with
  | some .emoji =>
    if emojiVariation.contains c then
      (if behind.follower.awaitsEmoji then 0 else 2, { follower := .emoji })
    else extendPlain (if behind.follower.keepsItself then behind.follower else .other) c
  | some .text => if narrowAsText c then (1, {}) else extendPlain behind.follower c
  | some .fullwidth => if quotationMark.contains c then (2, {}) else extendPlain behind.follower c
  | none => extendPlain behind.follower c

end Behind

end Rehearsal.Text
