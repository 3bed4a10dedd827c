import Rehearsal.Json.Number

/-!
# Plain YAML scalars

An unquoted scalar is null, a truth value, an integer, a floating-point number or, failing all
of these, a string.
-/

namespace Rehearsal.Yaml

open Json.NumberText (splitDigits natOfDigits readExponent)

/-- Takes an optional sign off; true for a minus sign. -/
def splitSign : List Char → Bool × List Char
  | '-' :: rest => (true, rest)
  | '+' :: rest => (false, rest)
  | cs => (false, cs)

/-- The value of a digit up to `f`, of either case. -/
def digitValue? (c : Char) : Option Nat :=
  if c.isDigit then some (c.toNat - '0'.toNat)
  else if 'a' ≤ c ∧ c ≤ 'f' then some (c.toNat - 'a'.toNat + 10)
  else if 'A' ≤ c ∧ c ≤ 'F' then some (c.toNat - 'A'.toNat + 10)
  else none

/-- The natural number that digits denote in a base; there has to be one digit at least. -/
def natInBase? (base : Nat) (digits : List Char) : Option Nat :=
  if digits.isEmpty then none
  else digits.foldlM (fun n c => do
    let digit ← digitValue? c
    if digit < base then return n * base + digit else none) 0

/-- The magnitude of an integer: decimal without a superfluous zero, or in the base that the mark
`0x`, `0o` or `0b` announces. -/
def magnitude? : List Char → Option Nat
  | '0' :: 'x' :: digits => natInBase? 16 digits
  | '0' :: 'o' :: digits => natInBase? 8 digits
  | '0' :: 'b' :: digits => natInBase? 2 digits
  | ['0'] => some 0
  | '0' :: _ => none
  | digits => natInBase? 10 digits

/-- An integer with an optional sign. The inner `none` stands for one that fits 128 bits but not
64, which no document may hold; a still larger one is no integer. -/
def integer? (cs : List Char) : Option (Option Json) := do
  let (negative, digits) := splitSign cs
  let n ← magnitude? digits
  if negative then
    if n ≤ Nat.pow 2 63 then some (some (.int (-n))) else if n ≤ Nat.pow 2 127 then some none else none
  else if n < Nat.pow 2 64 then some (some (.int n)) else if n < Nat.pow 2 128 then some none else none

/-- A floating-point number: an optional sign, digits with at most one point among them, and an
optional exponent. A number beyond the largest one is none. -/
def float? (cs : List Char) : Option Json :=
  let (negative, cs) := splitSign cs
  let (whole, cs) := splitDigits cs
  let (fraction, cs) := match cs with
    | '.' :: rest => splitDigits rest
    | _ => ([], cs)
  if whole.isEmpty ∧ fraction.isEmpty then none
  else
    let exponent := match cs with
      | [] => some 0
      | 'e' :: rest | 'E' :: rest => (readExponent rest).bind fun (e, rest) =>
        if rest.isEmpty then some e else none
      | _ => none
    exponent.bind fun e =>
      (Binary64.ofScientific negative (natOfDigits (whole ++ fraction)) (e - fraction.length)).map .float

/-- Whether the text is one of the spellings of a number that JSON does not have. -/
def isInfiniteOrNaN (text : String) : Bool :=
  [".inf", ".Inf", ".INF", "+.inf", "+.Inf", "+.INF", "-.inf", "-.Inf", "-.INF", ".nan", ".NaN",
    ".NAN"].contains text

/-- Digits with a superfluous zero in front are a string. -/
def isPaddedDigits (cs : List Char) : Bool :=
  let (_, digits) := splitSign cs
  digits.length > 1 && digits.head? == some '0' && digits.all Char.isDigit

/-- The value of a plain scalar; `none` for an integer that is too large. -/
def plainValue (text : String) : Option Json :=
  if text.isEmpty ∨ ["null", "Null", "NULL", "~"].contains text then some .null
  else if ["true", "True", "TRUE"].contains text then some (.bool true)
  else if ["false", "False", "FALSE"].contains text then some (.bool false)
  else if isInfiniteOrNaN text then some .null
  else
    match integer? text.toList with
    | some value => value
    | none =>
      if isPaddedDigits text.toList then some (.str text)
      else some ((float? text.toList).getD (.str text))

end Rehearsal.Yaml
