import Rehearsal.Json.Basic

/-!
# JSON pointers

A pointer is the list of names and indices that lead to a part of a value. Its written form is
empty for the whole value and otherwise puts a slash in front of every step, with `~1` for a
slash and `~0` for a tilde inside a step.

* `Pointer.parse`: reads the written form;
* `Json.partAt?`: the part a pointer leads to;
* `Json.modifyAt?`: replaces that part.
-/

namespace Rehearsal

/-- The steps from a value to one of its parts. -/
abbrev Pointer := List String

namespace Pointer

/-- Replaces `~` and `digit` by `by_` wherever they stand together. -/
private def unescapePair (digit by_ : Char) : List Char → List Char
  | '~' :: c :: rest =>
    if c = digit then by_ :: unescapePair digit by_ rest else '~' :: unescapePair digit by_ (c :: rest)
  | c :: rest => c :: unescapePair digit by_ rest
  | [] => []

/-- A step as it is meant: `~1` is read before `~0`. -/
def unescape (step : String) : String :=
  String.ofList (unescapePair '0' '~' (unescapePair '1' '/' step.toList))

/-- Reads a written pointer; one that is not empty has to begin with a slash. -/
def parse (text : String) : Option Pointer :=
  match text.splitOn "/" with
  | [""] => some []
  | "" :: steps => some (steps.map unescape)
  | _ => none

/-- The array index a step denotes: digits without a superfluous zero. -/
def index? (step : String) : Option Nat :=
  let digits := step.toList
  if digits.isEmpty ∨ !digits.all Char.isDigit ∨ (digits.length > 1 ∧ digits.head? = some '0') then none
  else some (digits.foldl (fun n c => n * 10 + (c.toNat - '0'.toNat)) 0)

end Pointer

namespace Json

/-- The member or item a step leads to. -/
def step? (value : Json) (step : String) : Option Json :=
  match value with
  | .obj members => Assoc.get? step members
  | .arr items => Pointer.index? step >>= fun i => items[i]?
  | _ => none

/-- The part of a value that a pointer leads to. -/
def partAt? (value : Json) : Pointer → Option Json
  | [] => some value
  | step :: rest => value.step? step >>= fun part => part.partAt? rest

/-- Puts `part` where an existing step leads. -/
def replaceStep (value : Json) (step : String) (part : Json) : Json :=
  match value with
  | .obj members => .obj (Assoc.insert step part members)
  | .arr items =>
    match Pointer.index? step with
    | some i => .arr (items.set i part)
    | none => value
  | _ => value

/-- Applies `f` to the part that a pointer leads to and puts the result in its place. -/
def modifyAt? (value : Json) (pointer : Pointer) (f : Json → Option Json) : Option Json :=
  match pointer with
  | [] => f value
  | step :: rest => do
    let part ← value.step? step
    return value.replaceStep step (← part.modifyAt? rest f)

end Json

end Rehearsal
