import Uncaught.Text.Printable

/-
  This file defines the quoted form of a text, as messages
  show it.

  Key definitions include:
    * `Text.quoteMark`
    * `Text.quotedChar`
    * `Text.quoted`
-/

namespace Uncaught

namespace Text

------------------------------------------------------------
-- Hexadecimal Digits
------------------------------------------------------------

/- One lower case hexadecimal digit. -/
def hexDigit
    (n : Nat) : Char :=
  if n < 10 then
    Char.ofNat (48 + n)
  else
    Char.ofNat (87 + n)

/- The last `width` hexadecimal digits of a number. -/
def hex
    (width n : Nat) : List Char :=
  match width with
  | 0 => []
  | w + 1 => hex w (n / 16) ++ [hexDigit (n % 16)]

------------------------------------------------------------
-- Quoting
------------------------------------------------------------

/-
  The mark around a quoted text: a single quote, unless the
  text has a single quote and no double quote.
-/
def quoteMark
    (cs : List Char) : Char :=
  if cs.contains '\'' && !cs.contains '"' then '"' else '\''

/- One character of a quoted text. -/
def quotedChar
    (mark c : Char) : List Char :=
  if c == mark || c == '\\' then
    ['\\', c]
  else if c == '\n' then
    ['\\', 'n']
  else if c == '\r' then
    ['\\', 'r']
  else if c == '\t' then
    ['\\', 't']
  else if isPrintable c then
    [c]
  else if c.toNat < 0x100 then
    '\\' :: 'x' :: hex 2 c.toNat
  else if c.toNat < 0x10000 then
    '\\' :: 'u' :: hex 4 c.toNat
  else
    '\\' :: 'U' :: hex 8 c.toNat

/- The quoted form of a text. -/
def quoted
    (s : String) : String :=
  let cs := s.toList
  let mark := quoteMark cs
  String.ofList
    (mark :: cs.flatMap (quotedChar mark) ++ [mark])

end Text

end Uncaught
