/-
  This file defines which characters count as blank, and the
  operations that cut blanks away.

  Key definitions include:
    * `Text.isBlank`
    * `Text.trimLeft`
    * `Text.trimRight`
    * `Text.trim`
    * `Text.squeeze`
-/

namespace Uncaught

namespace Text

------------------------------------------------------------
-- Blank Characters
------------------------------------------------------------

/-
  The blank characters of Unicode: the separators, and the
  control characters that move the writing position.
-/
def isBlank
    (c : Char) : Bool :=
  let n := c.toNat
  (0x09 ≤ n && n ≤ 0x0D)
    || (0x1C ≤ n && n ≤ 0x20)
    || n == 0x85
    || n == 0xA0
    || n == 0x1680
    || (0x2000 ≤ n && n ≤ 0x200A)
    || n == 0x2028
    || n == 0x2029
    || n == 0x202F
    || n == 0x205F
    || n == 0x3000

------------------------------------------------------------
-- Cutting Blanks
------------------------------------------------------------

/- Drop the blanks at the start of a text. -/
def trimLeft
    (cs : List Char) : List Char :=
  cs.dropWhile isBlank

/- Drop the blanks at the end of a text. -/
def trimRight
    (cs : List Char) : List Char :=
  (cs.reverse.dropWhile isBlank).reverse

/- Drop the blanks at both ends of a text. -/
def trim
    (s : String) : String :=
  String.ofList (trimRight (trimLeft s.toList))

/- Drop every blank of a text. -/
def squeeze
    (cs : List Char) : List Char :=
  cs.filter (fun c => !isBlank c)

end Text

end Uncaught
