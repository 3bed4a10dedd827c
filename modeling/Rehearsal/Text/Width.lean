import Rehearsal.Text.Cluster

/-!
# The width of texts

How many columns a text takes where every character has the same width, but East Asian wide
characters take two, combining and invisible characters none, and sequences that are shown as one
character what that takes.
-/

namespace Rehearsal.Text

/-- The columns of characters, and what they are to a character in front of them. -/
def columns (chars : List Char) : Int × Behind :=
  chars.foldr (fun c (sum, behind) =>
    let (added, behind) := behind.extend c
    (sum + added, behind)) (0, {})

/-- How many columns a text takes. -/
def width (text : String) : Nat := (columns text.toList).1.toNat

/-- The text with blanks behind it, up to a number of columns. -/
def padTo (columns : Nat) (text : String) : String :=
  text ++ String.ofList (List.replicate (columns - width text) ' ')

end Rehearsal.Text
