import Uncaught.Text.Blank

/-
  This file defines the plain form of the text of a type: the
  text without type arguments and blanks.

  Key definitions include:
    * `Java.eraseInnermost`
    * `Java.eraseArguments`
    * `Java.plainType`
-/

namespace Uncaught

namespace Java

------------------------------------------------------------
-- Innermost Type Arguments
------------------------------------------------------------

/-
  Delete every pair of angle brackets without another angle
  bracket between them, and the text between them. The text
  since the last opening bracket is held back, last character
  first, until it is known whether it is deleted.
-/
def eraseFrom :
    Option (List Char) → List Char → List Char
  | none, [] => []
  | some held, [] => held.reverse
  | none, c :: cs =>
      if c == '<' then
        eraseFrom (some ['<']) cs
      else
        c :: eraseFrom none cs
  | some held, c :: cs =>
      if c == '>' then
        eraseFrom none cs
      else if c == '<' then
        held.reverse ++ eraseFrom (some ['<']) cs
      else
        eraseFrom (some (c :: held)) cs

/- Delete the innermost type arguments of a text. -/
def eraseInnermost
    (cs : List Char) : List Char :=
  eraseFrom none cs

------------------------------------------------------------
-- All Type Arguments
------------------------------------------------------------

/-
  Delete the innermost type arguments again and again, until
  there are none.
-/
def eraseArguments
    (cs : List Char) : List Char :=
  if _shorter : (eraseInnermost cs).length < cs.length then
    eraseArguments (eraseInnermost cs)
  else
    cs
termination_by cs.length

/- The text of a type without type arguments and blanks. -/
def plainType
    (s : String) : String :=
  String.ofList (Text.squeeze (eraseArguments s.toList))

end Java

end Uncaught
