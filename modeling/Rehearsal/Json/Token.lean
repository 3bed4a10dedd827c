import Rehearsal.Json.Number

/-!
# JSON tokens

A text is cut into tokens by a machine that looks at one character at a time: `Lexer.step` says
what a character does, `Token.scan` runs the machine over a text.
-/

namespace Rehearsal.Json

/-- The words of a JSON text. -/
inductive Token where
  /-- The opening bracket of an array. -/
  | beginArray
  /-- The closing bracket of an array. -/
  | endArray
  /-- The opening brace of an object. -/
  | beginObject
  /-- The closing brace of an object. -/
  | endObject
  /-- The colon between a name and its value. -/
  | colon
  /-- The comma between items or members. -/
  | comma
  /-- A quoted string. -/
  | text (content : String)
  /-- A number or one of the three literals. -/
  | scalar (value : Json)
deriving Inhabited

/-- What the lexer is in the middle of. Collected characters are in reverse. -/
inductive Lexer where
  /-- Between tokens. -/
  | between
  /-- Inside a number or a literal. -/
  | bare (collected : List Char)
  /-- Inside a string. -/
  | text (collected : List Char)
  /-- After a backslash inside a string. -/
  | escape (collected : List Char)
  /-- Inside a `\u` escape of which `count` digits with the given value were read; `high` is the
  first half of a surrogate pair when this escape has to be the second. -/
  | unicode (collected : List Char) (high : Option Nat) (count value : Nat)
  /-- After the first half of a surrogate pair: the backslash of the second is due. -/
  | pairBackslash (collected : List Char) (high : Nat)
  /-- After the backslash of the second half: its `u` is due. -/
  | pairLetter (collected : List Char) (high : Nat)

namespace Lexer

/-- Whether a character may be part of a number or a literal. -/
def isBare (c : Char) : Bool := c.isAlphanum || c == '-' || c == '+' || c == '.'

/-- The value of a number or literal. -/
def bareToken (cs : List Char) : Option Token :=
  match cs with
  | ['n', 'u', 'l', 'l'] => some (.scalar .null)
  | ['t', 'r', 'u', 'e'] => some (.scalar (.bool true))
  | ['f', 'a', 'l', 's', 'e'] => some (.scalar (.bool false))
  | _ => (ofNumberText? cs).map .scalar

/-- What a character between tokens begins. -/
def start (c : Char) : Option (List Token × Lexer) :=
  if c == ' ' || c == '\t' || c == '\n' || c == '\r' then some ([], .between)
  else if c == '[' then some ([.beginArray], .between)
  else if c == ']' then some ([.endArray], .between)
  else if c == '{' then some ([.beginObject], .between)
  else if c == '}' then some ([.endObject], .between)
  else if c == ':' then some ([.colon], .between)
  else if c == ',' then some ([.comma], .between)
  else if c == '"' then some ([], .text [])
  else if isBare c then some ([], .bare [c])
  else none

/-- The character a one-letter escape stands for. -/
def unescape (c : Char) : Option Char :=
  if c == '"' || c == '\\' || c == '/' then some c
  else if c == 'b' then some '\x08'
  else if c == 'f' then some '\x0c'
  else if c == 'n' then some '\n'
  else if c == 'r' then some '\r'
  else if c == 't' then some '\t'
  else none

/-- The value of a hexadecimal digit of either case. -/
def hexValue (c : Char) : Option Nat :=
  if c.isDigit then some (c.toNat - '0'.toNat)
  else if 'a' ≤ c ∧ c ≤ 'f' then some (c.toNat - 'a'.toNat + 10)
  else if 'A' ≤ c ∧ c ≤ 'F' then some (c.toNat - 'A'.toNat + 10)
  else none

/-- What a completed four-digit escape means: a character, or the first half of a pair. -/
def closeUnicode (collected : List Char) (high : Option Nat) (unit : Nat) : Option Lexer :=
  let isHigh := 0xD800 ≤ unit ∧ unit < 0xDC00
  let isLow := 0xDC00 ≤ unit ∧ unit < 0xE000
  match high with
  | none =>
    if isHigh then some (.pairBackslash collected unit)
    else if isLow then none
    else some (.text (Char.ofNat unit :: collected))
  | some first =>
    if isLow then
      some (.text (Char.ofNat (0x10000 + (first - 0xD800) * 0x400 + (unit - 0xDC00)) :: collected))
    else none

/-- Takes one character; answers the tokens it completes. -/
def step : Lexer → Char → Option (List Token × Lexer)
  | .between, c => start c
  | .bare collected, c =>
    if isBare c then some ([], .bare (c :: collected))
    else do
      let token ← bareToken collected.reverse
      let (tokens, next) ← start c
      return (token :: tokens, next)
  | .text collected, c =>
    if c == '"' then some ([.text (String.ofList collected.reverse)], .between)
    else if c == '\\' then some ([], .escape collected)
    else if c.toNat < 0x20 then none
    else some ([], .text (c :: collected))
  | .escape collected, c =>
    if c == 'u' then some ([], .unicode collected none 0 0)
    else (unescape c).map fun c => ([], .text (c :: collected))
  | .unicode collected high count value, c => do
    let unit := value * 16 + (← hexValue c)
    if count < 3 then return ([], .unicode collected high (count + 1) unit)
    else return ([], ← closeUnicode collected high unit)
  | .pairBackslash collected high, c => if c == '\\' then some ([], .pairLetter collected high) else none
  | .pairLetter collected high, c => if c == 'u' then some ([], .unicode collected (some high) 0 0) else none

/-- The tokens that the end of the text completes. -/
def finish : Lexer → Option (List Token)
  | .between => some []
  | .bare collected => (bareToken collected.reverse).map ([·])
  | _ => none

end Lexer

/-- The tokens of a text, or `none` if it has a part that is no token. -/
def Token.scan (text : String) : Option (List Token) := do
  let (lexer, collected) ← text.toList.foldlM (fun (lexer, collected) c => do
    let (tokens, next) ← Lexer.step lexer c
    return (next, tokens.reverse ++ collected)) (Lexer.between, [])
  return collected.reverse ++ (← lexer.finish)

end Rehearsal.Json
