import Rehearsal.Json.Printer

/-!
# Placeholders

A placeholder is a token `$(name)` inside a string; the name begins with a letter, `_` or `$` and
goes on with letters, digits and `_`, all of them ASCII. A string is cut into placeholders and
the characters between them, from the left (`Placeholder.pieces`).

* `Placeholder.names`: the names in a string; `Json.placeholders`: those in a value;
* `Placeholder.substitute`: puts values in place of the placeholders of a string. A string that
  is nothing but one placeholder becomes the value itself, of whatever kind;
* `Json.traverse`: applies a function to every string of a value, names of members aside.
-/

namespace Rehearsal

namespace Placeholder

/-- Whether a name may begin with the character. -/
def isNameStart (c : Char) : Bool := c.isAlpha || c == '_' || c == '$'

/-- Whether a name may go on with the character. -/
def isNameRest (c : Char) : Bool := c.isAlphanum || c == '_'

/-- The name of the placeholder at the front, if one stands there. -/
def nameAt? : List Char → Option (List Char)
  | '$' :: '(' :: c :: rest =>
    if isNameStart c && (rest.dropWhile isNameRest).head? == some ')' then
      some (c :: rest.takeWhile isNameRest)
    else none
  | _ => none

/-- A placeholder or a character outside of any. -/
inductive Piece where
  /-- A character that stands for itself. -/
  | char (c : Char)
  /-- The placeholder of a name. -/
  | token (name : String)
deriving DecidableEq

/-- The pieces of what follows the next `skip` characters. -/
def piecesAfter : (skip : Nat) → List Char → List Piece
  | _, [] => []
  | skip + 1, _ :: rest => piecesAfter skip rest
  | 0, c :: rest =>
    match nameAt? (c :: rest) with
    | some name => .token (String.ofList name) :: piecesAfter (name.length + 2) rest
    | none => .char c :: piecesAfter 0 rest

/-- Cuts a string into its placeholders and the characters between them. -/
def pieces (text : String) : List Piece := piecesAfter 0 text.toList

/-- The token that stands for a name. -/
def token (name : String) : String := "$(" ++ name ++ ")"

/-- The names of the placeholders of a string, from left to right. -/
def names (text : String) : List String :=
  (pieces text).filterMap fun
    | .char _ => none
    | .token name => some name

variable {ε : Type}

/-- The text that takes the place of a piece; a placeholder without a value stays. -/
def pieceText (value : String → Except ε (Option Json)) : Piece → Except ε String
  | .char c => .ok c.toString
  | .token name => (value name).map fun
    | some json => json.plainText
    | none => token name

/-- Puts values in place of the placeholders of a string; the first failure wins. -/
def substitute (value : String → Except ε (Option Json)) (text : String) : Except ε Json :=
  match pieces text with
  | [.token name] => (value name).map fun json => json.getD (.str text)
  | parts => (parts.mapM (pieceText value)).map fun texts => .str (String.join texts)

end Placeholder

namespace Json

variable {ε : Type}

mutual

/-- Replaces every string of a value, in order; the first failure wins. -/
def traverse (f : String → Except ε Json) : Json → Except ε Json
  | .str text => f text
  | .arr items => (traverseItems f items).map .arr
  | .obj members => (traverseMembers f members).map .obj
  | json => .ok json
termination_by structural value => value

/-- Replaces every string of a list of values. -/
def traverseItems (f : String → Except ε Json) : List Json → Except ε (List Json)
  | [] => .ok []
  | item :: rest => do return (← traverse f item) :: (← traverseItems f rest)
termination_by structural items => items

/-- Replaces every string among the values of a list of members. -/
def traverseMembers (f : String → Except ε Json) :
    List (String × Json) → Except ε (List (String × Json))
  | [] => .ok []
  | (name, value) :: rest => do return (name, ← traverse f value) :: (← traverseMembers f rest)
termination_by structural members => members

end

mutual

/-- The names of the placeholders of a value, in order and with repetitions. -/
def placeholders : Json → List String
  | .str text => Placeholder.names text
  | .arr items => placeholdersOfItems items
  | .obj members => placeholdersOfMembers members
  | _ => []
termination_by structural value => value

/-- The names of the placeholders of a list of values. -/
def placeholdersOfItems : List Json → List String
  | [] => []
  | item :: rest => item.placeholders ++ placeholdersOfItems rest
termination_by structural items => items

/-- The names of the placeholders among the values of a list of members. -/
def placeholdersOfMembers : List (String × Json) → List String
  | [] => []
  | (_, value) :: rest => value.placeholders ++ placeholdersOfMembers rest
termination_by structural members => members

end

/-- Whether a value has a placeholder. -/
def hasPlaceholder (json : Json) : Bool := !json.placeholders.isEmpty

end Json

end Rehearsal
