/-
  This file defines how a text is cut at a separator, and how
  one text is looked for in another.

  Key definitions include:
    * `Text.cutFirst`
    * `Text.cutLast`
    * `Text.splitAll`
    * `Text.startsWith`
    * `Text.endsWith`
    * `Text.contains`
    * `Text.deleteAll`
-/

namespace Uncaught

namespace Text

------------------------------------------------------------
-- Separators
------------------------------------------------------------

/-
  The text before and the text after the first occurrence of
  a separator.
-/
def cutFirst
    (sep : Char)
    (s : String) : Option (String × String) :=
  match s.toList.span (· != sep) with
  | (_, []) => none
  | (before, _ :: after) =>
      some (String.ofList before, String.ofList after)

/-
  The text before and the text after the last occurrence of a
  separator.
-/
def cutLast
    (sep : Char)
    (s : String) : Option (String × String) :=
  match s.toList.reverse.span (· != sep) with
  | (_, []) => none
  | (after, _ :: before) =>
      some (String.ofList before.reverse,
        String.ofList after.reverse)

/- The parts between the separators of a character list. -/
def splitChars
    (sep : Char) : List Char → List (List Char)
  | [] => [[]]
  | c :: cs =>
      if c == sep then
        [] :: splitChars sep cs
      else
        match splitChars sep cs with
        | [] => [[c]]
        | part :: parts => (c :: part) :: parts

/- The parts between the separators of a text. -/
def splitAll
    (sep : Char)
    (s : String) : List String :=
  (splitChars sep s.toList).map String.ofList

------------------------------------------------------------
-- Occurrences
------------------------------------------------------------

/- Whether a text starts with `pat`. -/
def startsWith
    (s pat : String) : Bool :=
  pat.toList.isPrefixOf s.toList

/- Whether a text ends with `pat`. -/
def endsWith
    (s pat : String) : Bool :=
  pat.toList.isSuffixOf s.toList

/- Whether `pat` occurs in a character list. -/
def occursIn
    (pat : List Char) : List Char → Bool
  | [] => pat.isEmpty
  | c :: cs => pat.isPrefixOf (c :: cs) || occursIn pat cs

/- Whether `pat` occurs in a text. -/
def contains
    (s pat : String) : Bool :=
  occursIn pat.toList s.toList

/- Whether a character occurs in a text. -/
def hasChar
    (s : String)
    (c : Char) : Bool :=
  s.toList.contains c

/-
  Delete the occurrences of `pat`, found from left to right
  without overlap; `skip` characters still belong to the
  occurrence found last.
-/
def deleteFrom
    (pat : List Char)
    (skip : Nat) : List Char → List Char
  | [] => []
  | c :: cs =>
      if 0 < skip then
        deleteFrom pat (skip - 1) cs
      else if !pat.isEmpty && pat.isPrefixOf (c :: cs) then
        deleteFrom pat (pat.length - 1) cs
      else
        c :: deleteFrom pat 0 cs

/- Delete the occurrences of `pat` in a text. -/
def deleteAll
    (s pat : String) : String :=
  String.ofList (deleteFrom pat.toList 0 s.toList)

------------------------------------------------------------
-- Joining
------------------------------------------------------------

/- Texts one after the other, with `sep` between two of them. -/
def join
    (sep : String) : List String → String
  | [] => ""
  | [s] => s
  | s :: ss => s ++ sep ++ join sep ss

end Text

end Uncaught
