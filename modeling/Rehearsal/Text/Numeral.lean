/-!
# Numerals
-/

namespace Rehearsal.Text

/-- The number that a text names in decimal digits, of which a plus sign may stand in front, if it
is below a bound. -/
def numeralBelow? (bound : Nat) (text : String) : Option Nat :=
  let digits := match text.toList with
    | '+' :: rest => rest
    | chars => chars
  if digits.isEmpty || !digits.all Char.isDigit then none
  else
    let value := digits.foldl (fun n c => 10 * n + (c.toNat - '0'.toNat)) 0
    if value < bound then some value else none

end Rehearsal.Text
