/-!
# Lines and blanks

* `Text.lines`: the lines of a text; a line ends in a line feed, of which a carriage return in
  front is a part;
* `Text.trim`: a text without the blanks around it.
-/

namespace Rehearsal.Text

/-- The characters of the lines of a text, where `line` holds the ones of the current line in
reverse. The last line needs no end, and there is none behind a last line feed. -/
def linesFrom (line : List Char) : List Char → List (List Char)
  | [] => if line.isEmpty then [] else [line.reverse]
  | '\n' :: rest =>
    let line := match line with
      | '\r' :: line => line
      | line => line
    line.reverse :: linesFrom [] rest
  | c :: rest => linesFrom (c :: line) rest

/-- The lines of a text. -/
def lines (text : String) : List String := (linesFrom [] text.toList).map String.ofList

/-- Whether a character has the property White_Space. -/
def isBlank (c : Char) : Bool :=
  let n := c.toNat
  (0x9 ≤ n && n ≤ 0xd) || n == 0x20 || n == 0x85 || n == 0xa0 || n == 0x1680 ||
    (0x2000 ≤ n && n ≤ 0x200a) || n == 0x2028 || n == 0x2029 || n == 0x202f || n == 0x205f ||
    n == 0x3000

/-- The text without blanks at either end. -/
def trim (text : String) : String :=
  let dropped := text.toList.dropWhile isBlank
  String.ofList (dropped.reverse.dropWhile isBlank).reverse

end Rehearsal.Text
