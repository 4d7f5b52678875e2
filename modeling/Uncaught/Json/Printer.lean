import Uncaught.Json.Basic
import Uncaught.Text.Quoted
import Uncaught.Json.Real

/-
  This file defines the written form of JSON values. The
  fields of an object are written in the order of their names.

  Key definitions include:
    * `Json.Printer.asciiChar`
    * `Json.Printer.plainChar`
    * `Json.toLine`
    * `Json.toAsciiLine`
    * `Json.toIndented`
-/

namespace Uncaught

namespace Json

namespace Printer

------------------------------------------------------------
-- Characters
------------------------------------------------------------

/- The escape of a code unit. -/
def unitEscape
    (n : Nat) : List Char :=
  '\\' :: 'u' :: Text.hex 4 n

/- The escape that a character has in every style. -/
def shortEscape?
    (c : Char) : Option (List Char) :=
  if c == '"' then
    some ['\\', '"']
  else if c == '\\' then
    some ['\\', '\\']
  else if c == '\n' then
    some ['\\', 'n']
  else if c == '\r' then
    some ['\\', 'r']
  else if c == '\t' then
    some ['\\', 't']
  else if c.toNat == 8 then
    some ['\\', 'b']
  else if c.toNat == 12 then
    some ['\\', 'f']
  else
    none

/-
  A character written with ASCII characters only; one above
  `U+FFFF` takes two code units.
-/
def asciiChar
    (c : Char) : List Char :=
  match shortEscape? c with
  | some cs => cs
  | none =>
      let n := c.toNat
      if 0x20 ≤ n && n ≤ 0x7E then
        [c]
      else if n < 0x10000 then
        unitEscape n
      else
        unitEscape (0xD800 + (n - 0x10000) / 1024)
          ++ unitEscape (0xDC00 + (n - 0x10000) % 1024)

/-
  A character written as it is, unless it is a quote, a
  backslash or a control character.
-/
def plainChar
    (c : Char) : List Char :=
  match shortEscape? c with
  | some cs => cs
  | none =>
      if c.toNat < 0x20 then unitEscape c.toNat else [c]

/- A text in quotes. -/
def quote
    (char : Char → List Char)
    (s : String) : List Char :=
  '"' :: s.toList.flatMap char ++ ['"']

/- An integer in decimal digits. -/
def decimal
    (n : Int) : List Char :=
  match n with
  | .ofNat n => Nat.toDigits 10 n
  | .negSucc n => '-' :: Nat.toDigits 10 (n + 1)

------------------------------------------------------------
-- Order Of Fields
------------------------------------------------------------

/- Fields in the order of their names. -/
def byName
    {α : Type}
    (fields : List (String × α)) : List (String × α) :=
  fields.mergeSort (fun a b => decide (a.1 ≤ b.1))

/- Pieces of text one after the other, `sep` between two. -/
def separated
    (sep : List Char) : List (List Char) → List Char
  | [] => []
  | [p] => p
  | p :: ps => p ++ sep ++ separated sep ps

------------------------------------------------------------
-- One Line
------------------------------------------------------------

mutual

/- A value on one line. -/
def line
    (char : Char → List Char) : Json → List Char
  | null => "null".toList
  | bool true => "true".toList
  | bool false => "false".toList
  | int n => decimal n
  | real x => x.text.toList
  | str s => quote char s
  | arr items =>
      '[' :: separated [',', ' '] (lines char items) ++ [']']
  | obj fields =>
      '\x7b' :: separated [',', ' ']
        ((byName (fieldLines char fields)).map (fun (k, v) =>
          quote char k ++ ':' :: ' ' :: v)) ++ ['\x7d']

/- The items of an array, each on one line. -/
def lines
    (char : Char → List Char) : List Json → List (List Char)
  | [] => []
  | item :: items => line char item :: lines char items

/- The values of the fields, each on one line. -/
def fieldLines
    (char : Char → List Char) :
    List (String × Json) → List (String × List Char)
  | [] => []
  | (k, v) :: fields =>
      (k, line char v) :: fieldLines char fields

end

------------------------------------------------------------
-- Indented
------------------------------------------------------------

/- A new line with `depth` steps of indentation. -/
def newLine
    (depth : Nat) : List Char :=
  '\n' :: List.replicate (2 * depth) ' '

/-
  Pieces on lines of their own between brackets; without any
  piece the brackets stand together.
-/
def boxed
    (depth : Nat)
    (opening closing : Char)
    (pieces : List (List Char)) : List Char :=
  if pieces.isEmpty then
    [opening, closing]
  else
    opening :: newLine (depth + 1)
      ++ separated (',' :: newLine (depth + 1)) pieces
      ++ newLine depth ++ [closing]

mutual

/- A value with each item and field on a line of its own. -/
def block
    (depth : Nat) : Json → List Char
  | null => "null".toList
  | bool true => "true".toList
  | bool false => "false".toList
  | int n => decimal n
  | real x => x.text.toList
  | str s => quote asciiChar s
  | arr items =>
      boxed depth '[' ']' (blocks (depth + 1) items)
  | obj fields =>
      boxed depth '\x7b' '\x7d'
        ((byName (fieldBlocks (depth + 1) fields)).map
          (fun (k, v) =>
            quote asciiChar k ++ ':' :: ' ' :: v))

/- The items of an array. -/
def blocks
    (depth : Nat) : List Json → List (List Char)
  | [] => []
  | item :: items => block depth item :: blocks depth items

/- The values of the fields of an object. -/
def fieldBlocks
    (depth : Nat) :
    List (String × Json) → List (String × List Char)
  | [] => []
  | (k, v) :: fields =>
      (k, block depth v) :: fieldBlocks depth fields

end

end Printer

------------------------------------------------------------
-- Written Forms
------------------------------------------------------------

/- A value on one line, characters as they are. -/
def toLine
    (v : Json) : String :=
  String.ofList (Printer.line Printer.plainChar v)

/- A value on one line, with ASCII characters only. -/
def toAsciiLine
    (v : Json) : String :=
  String.ofList (Printer.line Printer.asciiChar v)

/- A value over many lines, with ASCII characters only. -/
def toIndented
    (v : Json) : String :=
  String.ofList (Printer.block 0 v)

/- Values one after the other, each ended by a new line. -/
def toLines
    (vs : List Json) : String :=
  String.ofList (vs.flatMap (fun v =>
    Printer.line Printer.plainChar v ++ ['\n']))

end Json

end Uncaught
