import Uncaught.Json.Basic

/-
  This file defines how a text is read as a JSON value.

  Key definitions include:
    * `Json.Reader.string`
    * `Json.Reader.number`
    * `Json.Reader.value`
    * `Json.parse`
-/

namespace Uncaught

namespace Json

namespace Reader

/-
  A reader takes a value from the front of a text and gives
  it with the rest, or gives nothing.
-/
abbrev Reading (α : Type) :=
  List Char → Option (α × List Char)

------------------------------------------------------------
-- Blanks And Words
------------------------------------------------------------

/- The blanks between the parts of a JSON text. -/
def isSpace
    (c : Char) : Bool :=
  c == ' ' || c == '\t' || c == '\n' || c == '\r'

/- Skip the blanks. -/
def skip
    (cs : List Char) : List Char :=
  cs.dropWhile isSpace

/- Read the given word. -/
def word
    (w : String)
    (value : Json) : Reading Json :=
  fun cs =>
    if w.toList.isPrefixOf cs then
      some (value, cs.drop w.toList.length)
    else
      none

------------------------------------------------------------
-- Texts
------------------------------------------------------------

/- The value of a hexadecimal digit. -/
def hexValue?
    (c : Char) : Option Nat :=
  if '0' ≤ c && c ≤ '9' then
    some (c.toNat - 48)
  else if 'a' ≤ c && c ≤ 'f' then
    some (c.toNat - 87)
  else if 'A' ≤ c && c ≤ 'F' then
    some (c.toNat - 55)
  else
    none

/- Four hexadecimal digits. -/
def unit : Reading Nat
  | a :: b :: c :: d :: rest => do
      let a ← hexValue? a
      let b ← hexValue? b
      let c ← hexValue? c
      let d ← hexValue? d
      some (((a * 16 + b) * 16 + c) * 16 + d, rest)
  | _ => none

/- Whether a code unit opens a pair. -/
def isHigh
    (n : Nat) : Bool :=
  0xD800 ≤ n && n < 0xDC00

/- Whether a code unit closes a pair. -/
def isLow
    (n : Nat) : Bool :=
  0xDC00 ≤ n && n < 0xE000

/- The character of a single code unit. -/
def ofUnit
    (n : Nat) : Char :=
  if isHigh n || isLow n then
    Char.ofNat 0xFFFD
  else
    Char.ofNat n

/- The character that a short escape stands for. -/
def escape?
    (c : Char) : Option Char :=
  match c with
  | '"' => some '"'
  | '\\' => some '\\'
  | '/' => some '/'
  | 'b' => some (Char.ofNat 8)
  | 'f' => some (Char.ofNat 12)
  | 'n' => some '\n'
  | 'r' => some '\r'
  | 't' => some '\t'
  | _ => none

/-
  The escape after a backslash: one character, or four digits
  after `u`, where a high unit and a low unit after it make
  one character.
-/
def escape : Reading Char
  | 'u' :: cs => do
      let (n, rest) ← unit cs
      if isHigh n then
        match rest with
        | '\\' :: 'u' :: cs' =>
            match unit cs' with
            | some (m, rest') =>
                if isLow m then
                  some (Char.ofNat
                    (0x10000 + (n - 0xD800) * 1024
                      + (m - 0xDC00)), rest')
                else
                  some (ofUnit n, rest)
            | none => some (ofUnit n, rest)
        | _ => some (ofUnit n, rest)
      else
        some (ofUnit n, rest)
  | c :: cs => (escape? c).map (·, cs)
  | [] => none

/-
  The characters of a text up to its closing quote. Control
  characters have to be escaped. The bound is on the number
  of characters.
-/
def chars : Nat → Reading (List Char)
  | 0, _ => none
  | _ + 1, [] => none
  | _ + 1, '"' :: rest => some ([], rest)
  | n + 1, '\\' :: cs => do
      let (c, rest) ← escape cs
      let (tail, rest) ← chars n rest
      some (c :: tail, rest)
  | n + 1, c :: cs =>
      if c.toNat < 0x20 then
        none
      else do
        let (tail, rest) ← chars n cs
        some (c :: tail, rest)

/- A text after its opening quote. -/
def string : Reading String :=
  fun cs => do
    let (text, rest) ← chars (cs.length + 1) cs
    some (String.ofList text, rest)

------------------------------------------------------------
-- Numbers
------------------------------------------------------------

/- The value of a row of decimal digits. -/
def ofDigits
    (ds : List Char) : Nat :=
  ds.foldl (fun n d => n * 10 + (d.toNat - 48)) 0

/- A row of decimal digits, at least one. -/
def digits : Reading (List Char) :=
  fun cs =>
    match cs.takeWhile Char.isDigit with
    | [] => none
    | ds => some (ds, cs.drop ds.length)

/- The digits before the point: a zero stands alone. -/
def whole : Reading Nat
  | '0' :: rest => some (0, rest)
  | cs => do
      let (ds, rest) ← digits cs
      some (ofDigits ds, rest)

/- The digits after the point, if there are any. -/
def fraction? : Reading (List Char)
  | '.' :: cs => digits cs
  | _ => none

/- The power of ten, if there is one. -/
def power? : Reading Int
  | e :: cs =>
      if e == 'e' || e == 'E' then
        match cs with
        | '-' :: rest => do
            let (ds, rest) ← digits rest
            some (-(ofDigits ds : Int), rest)
        | '+' :: rest => do
            let (ds, rest) ← digits rest
            some ((ofDigits ds : Int), rest)
        | rest => do
            let (ds, rest) ← digits rest
            some ((ofDigits ds : Int), rest)
      else
        none
  | [] => none

/-
  A number without its sign: an integer, unless it has a
  fraction or a power of ten.
-/
def number
    (negative : Bool) : Reading Json :=
  fun cs => do
    let (n, rest) ← whole cs
    let (ds, rest, hasFraction) :=
      match fraction? rest with
      | some (ds, rest) => (ds, rest, true)
      | none => ([], rest, false)
    let (e, rest, hasPower) :=
      match power? rest with
      | some (e, rest) => (e, rest, true)
      | none => (0, rest, false)
    if hasFraction || hasPower then
      some (.real (.decimal negative
        (n * Nat.pow 10 ds.length + ofDigits ds)
        (e - ds.length)), rest)
    else
      some (.int (if negative then -(n : Int) else n), rest)

------------------------------------------------------------
-- Values
------------------------------------------------------------

mutual

/- A value; the bound is on the nesting and the length. -/
def value : Nat → Reading Json
  | 0, _ => none
  | fuel + 1, cs =>
      match cs with
      | '"' :: rest => do
          let (s, rest) ← string rest
          some (.str s, rest)
      | '[' :: rest =>
          match skip rest with
          | ']' :: rest => some (.arr [], rest)
          | rest => do
              let (items, rest) ← elements fuel rest
              some (.arr items, rest)
      | '\x7b' :: rest =>
          match skip rest with
          | '\x7d' :: rest => some (.obj [], rest)
          | rest => do
              let (fields, rest) ← members fuel rest
              some (.obj (fields.foldl
                (fun acc kv => put kv.1 kv.2 acc) []), rest)
      | 'n' :: _ => word "null" .null cs
      | 't' :: _ => word "true" (.bool true) cs
      | 'f' :: _ => word "false" (.bool false) cs
      | 'N' :: _ => word "NaN" (.real .nan) cs
      | 'I' :: _ =>
          word "Infinity" (.real (.infinity false)) cs
      | '-' :: 'I' :: _ =>
          word "-Infinity" (.real (.infinity true)) cs
      | '-' :: rest => number true rest
      | _ => number false cs

/- The items of an array, through its closing bracket. -/
def elements : Nat → Reading (List Json)
  | 0, _ => none
  | fuel + 1, cs => do
      let (item, rest) ← value fuel cs
      match skip rest with
      | ',' :: rest => do
          let (items, rest) ← elements fuel (skip rest)
          some (item :: items, rest)
      | ']' :: rest => some ([item], rest)
      | _ => none

/- The fields of an object, through its closing brace. -/
def members : Nat → Reading (List (String × Json))
  | 0, _ => none
  | fuel + 1, cs => do
      let '"' :: rest := cs | none
      let (key, rest) ← string rest
      let ':' :: rest := skip rest | none
      let (item, rest) ← value fuel (skip rest)
      match skip rest with
      | ',' :: rest => do
          let (fields, rest) ← members fuel (skip rest)
          some ((key, item) :: fields, rest)
      | '\x7d' :: rest => some ([(key, item)], rest)
      | _ => none

end

end Reader

------------------------------------------------------------
-- Whole Texts
------------------------------------------------------------

/-
  Read a text as one JSON value with blanks around it. Of two
  fields with one name the later one counts.
-/
def parse
    (text : String) : Option Json :=
  let cs := text.toList
  match Reader.value (2 * cs.length + 1) (Reader.skip cs) with
  | some (v, rest) =>
      if (Reader.skip rest).isEmpty then some v else none
  | none => none

end Json

end Uncaught
