/-!
# Sets of characters

A set of characters is given by ranges of code points, each with its first and its last.
-/

namespace Rehearsal.Text

/-- A set of characters. -/
abbrev CharSet := List (Nat × Nat)

namespace CharSet

/-- Whether a character is in a set. -/
def contains (set : CharSet) (c : Char) : Bool :=
  set.any fun (first, last) => first ≤ c.toNat && c.toNat ≤ last

end CharSet

end Rehearsal.Text
