import Rehearsal.Json.Basic

/-!
# JSON numbers

The written form of a number is an optional minus sign, an integer part without superfluous
zeros, an optional fraction and an optional exponent. An integer literal that fits 64 bits is an
integer; every other number, and the literal `-0`, is a floating-point number.
-/

namespace Rehearsal.Json

/-- The parts of a written number. -/
structure NumberText where
  /-- Whether a minus sign stands in front. -/
  negative : Bool
  /-- The digits before the point. -/
  whole : List Char
  /-- The digits after the point, if there is a point. -/
  fraction : Option (List Char)
  /-- The exponent, if there is one. -/
  exponent : Option Int

namespace NumberText

/-- The value of a decimal digit. -/
def digitValue (c : Char) : Nat := c.toNat - '0'.toNat

/-- The natural number that a list of digits denotes. -/
def natOfDigits (ds : List Char) : Nat := ds.foldl (fun n c => n * 10 + digitValue c) 0

/-- The digits in front and what follows them. -/
def splitDigits (cs : List Char) : List Char × List Char :=
  (cs.takeWhile Char.isDigit, cs.dropWhile Char.isDigit)

/-- Reads an exponent: an optional sign and at least one digit. -/
def readExponent (cs : List Char) : Option (Int × List Char) :=
  let (negative, cs) := match cs with
    | '+' :: rest => (false, rest)
    | '-' :: rest => (true, rest)
    | _ => (false, cs)
  match splitDigits cs with
  | ([], _) => none
  | (ds, rest) => some (if negative then -(natOfDigits ds : Int) else natOfDigits ds, rest)

/-- Takes a whole written number apart. -/
def read (cs : List Char) : Option NumberText := do
  let (negative, cs) := match cs with
    | '-' :: rest => (true, rest)
    | _ => (false, cs)
  let (whole, cs) := splitDigits cs
  if whole.isEmpty ∨ (whole.length > 1 ∧ whole.head? = some '0') then none
  let (fraction, cs) ← match cs with
    | '.' :: rest =>
      match splitDigits rest with
      | ([], _) => none
      | (ds, rest) => some (some ds, rest)
    | _ => some (none, cs)
  let (exponent, cs) ← match cs with
    | 'e' :: rest | 'E' :: rest => (readExponent rest).map fun (e, rest) => (some e, rest)
    | _ => some (none, cs)
  if cs.isEmpty then some { negative, whole, fraction, exponent } else none

/-- The largest significand that is kept exactly. -/
def significandLimit : Nat := Nat.pow 2 64 - 1

/-- Reads the integer part: the digits kept in the significand, and how many were left out
because it would no longer fit 64 bits. -/
def wholeSignificand (ds : List Char) : Nat × Nat :=
  ds.foldl (fun (significand, dropped) c =>
    let next := significand * 10 + digitValue c
    if dropped = 0 ∧ next ≤ significandLimit then (next, 0) else (significand, dropped + 1)) (0, 0)

/-- Reads the fraction on top of a significand as long as it fits 64 bits; answers the
significand and how many digits it took. -/
def fractionSignificand (significand : Nat) : List Char → Nat → Nat × Nat
  | [], taken => (significand, taken)
  | c :: rest, taken =>
    let next := significand * 10 + digitValue c
    if next ≤ significandLimit then fractionSignificand next rest (taken + 1) else (significand, taken)

/-- The value of a written number; `none` if it is too large. -/
def value? (text : NumberText) : Option Json :=
  let (significand, dropped) := wholeSignificand text.whole
  let isInteger := text.fraction.isNone && text.exponent.isNone && dropped == 0
  if isInteger && !text.negative then some (.int significand)
  else if isInteger && 0 < significand && significand ≤ Nat.pow 2 63 then some (.int (-significand))
  else
    let (significand, taken) := fractionSignificand significand (text.fraction.getD []) 0
    let exponent := (dropped : Int) - taken + text.exponent.getD 0
    (Binary64.ofScaledSignificand text.negative significand exponent).map .float

end NumberText

/-- The value of a number as JSON writes it. -/
def ofNumberText? (cs : List Char) : Option Json :=
  NumberText.read cs >>= NumberText.value?

end Rehearsal.Json
