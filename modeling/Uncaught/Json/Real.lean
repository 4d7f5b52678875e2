import Uncaught.Json.Basic

/-
  This file defines the value of a decimal fraction as a
  double, the fewest digits that read back as that double,
  and the text made of them.

  Key definitions include:
    * `Double`
    * `Double.nearest`
    * `Double.shortest`
    * `Double.text`
    * `Numeral.double`
    * `Numeral.text`
    * `Numeral.isOne`
-/

namespace Uncaught

------------------------------------------------------------
-- Doubles
------------------------------------------------------------

/-
  The size of a double: zero, `mantissa * 2 ^ power` with at
  most 53 bits and a power of at least `-1074`, or a size
  beyond all of those.
-/
inductive Double where
  | zero
  | finite (mantissa : Nat) (power : Int)
  | infinite
  deriving DecidableEq, Repr

namespace Double

/-
  A quotient rounded to the nearest number; of two nearest
  ones the even one.
-/
def roundDiv
    (num den : Nat) : Nat :=
  let n := num / den
  let r := num % den
  if den < 2 * r || (2 * r == den && n % 2 == 1) then
    n + 1
  else
    n

/- The fraction `num / (den * 2 ^ q)` without negative powers. -/
def scale
    (num den : Nat)
    (q : Int) : Nat × Nat :=
  match q with
  | .ofNat k => (num, den * Nat.pow 2 k)
  | .negSucc k => (num * Nat.pow 2 (k + 1), den)

/- The double nearest to a positive fraction. -/
def nearest
    (num den : Nat) : Double :=
  let k : Int := (num.log2 : Int) - den.log2
  let q := max (k - 52) (-1074)
  let (a, b) := scale num den q
  let q := if a / b < Nat.pow 2 52 && -1074 < q then q - 1 else q
  let (a, b) := scale num den q
  let m := roundDiv a b
  let (m, q) := if m == Nat.pow 2 53 then
      (Nat.pow 2 52, q + 1)
    else
      (m, q)
  if m == 0 then
    zero
  else if 971 < q then
    infinite
  else
    finite m q

/- The double of `digits * 10 ^ exponent`. -/
def ofDecimal
    (digits : Nat)
    (exponent : Int) : Double :=
  let size := (Nat.toDigits 10 digits).length + exponent
  if digits == 0 || size < -330 then
    zero
  else if 310 < size then
    infinite
  else
    match exponent with
    | .ofNat k => nearest (digits * Nat.pow 10 k) 1
    | .negSucc k => nearest digits (Nat.pow 10 (k + 1))

------------------------------------------------------------
-- Fewest Digits
------------------------------------------------------------

/-
  The place of the point before which a positive fraction has
  its first digit: the least `e` with `num / den < 10 ^ e`.
-/
def pointOf
    (num den : Nat) : Int :=
  if den ≤ num then
    (Nat.toDigits 10 (num / den)).length
  else
    let l := (Nat.toDigits 10 (den / num)).length
    if den ≤ num * Nat.pow 10 (l - 1) then
      2 - (l : Int)
    else
      1 - (l : Int)

/-
  The point of the grid of multiples of `10 ^ t` that reads
  back as the double, if there is one: of two the nearer, of
  two equally near the even one. All sizes are in quarters of
  the last binary place; `low` and `high` bound the numbers
  that round to the double, and `ends` tells whether they do
  so themselves.
-/
def onGrid
    (value low high : Nat)
    (ends : Bool)
    (q t : Int) : Option Nat :=
  -- a size `s` stands for `s * a / b`
  let (a, b) := scale 1 1 (2 - q)
  let (step, den) : Nat × Nat :=
    match t with
    | .ofNat k => (Nat.pow 10 k, 1)
    | .negSucc k => (1, Nat.pow 10 (k + 1))
  -- both sides times `b * den` are whole numbers
  let unit := a * den
  let point (n : Nat) : Nat := n * step * b
  let inside (n : Nat) : Bool :=
    if ends then
      low * unit ≤ point n && point n ≤ high * unit
    else
      low * unit < point n && point n < high * unit
  let n := value * unit / (step * b)
  let down := value * unit - point n
  let up := point (n + 1) - value * unit
  match inside n, inside (n + 1) with
  | true, true =>
      if down < up || (down == up && n % 2 == 0) then
        some n
      else
        some (n + 1)
  | true, false => some n
  | false, true => some (n + 1)
  | false, false => none

/-
  The fewest decimal digits that read back as a finite double,
  with the place of the point before them.
-/
def shortest
    (mantissa : Nat)
    (power : Int) : List Char × Int :=
  let value := 4 * mantissa
  let low :=
    if mantissa == Nat.pow 2 52 && -1074 < power then
      value - 1
    else
      value - 2
  let high := value + 2
  let ends := mantissa % 2 == 0
  let (num, den) := scale mantissa 1 (-power)
  let point := pointOf num den
  let found := (List.range 17).findSome? (fun n =>
    (onGrid value low high ends power
      (point - (n + 1 : Nat))).map (·, n + 1))
  match found with
  | some (n, width) =>
      let digits := Nat.toDigits 10 n
      let kept :=
        (digits.reverse.dropWhile (· == '0')).reverse
      (kept, point + (digits.length : Int) - width)
  | none => (Nat.toDigits 10 mantissa, power)

/-
  The text of a finite double: positional while the point
  stands from three places before the digits to sixteen after
  their first, with a power of ten otherwise.
-/
def text
    (mantissa : Nat)
    (power : Int) : List Char :=
  let (digits, point) := shortest mantissa power
  let n : Int := digits.length
  if -4 < point && point ≤ 16 then
    if point ≤ 0 then
      '0' :: '.' :: List.replicate (-point).toNat '0' ++ digits
    else if n ≤ point then
      digits ++ List.replicate (point - n).toNat '0'
        ++ ['.', '0']
    else
      digits.take point.toNat ++ '.' :: digits.drop point.toNat
  else
    let e := point - 1
    let shown := Nat.toDigits 10 e.natAbs
    let shown := if shown.length < 2 then '0' :: shown else shown
    let lead :=
      match digits with
      | d :: [] => [d]
      | d :: ds => d :: '.' :: ds
      | [] => []
    lead ++ 'e' :: (if e < 0 then '-' else '+') :: shown

end Double

------------------------------------------------------------
-- Numerals
------------------------------------------------------------

namespace Numeral

/- A sign in front of a text. -/
def signed
    (negative : Bool)
    (cs : List Char) : String :=
  String.ofList (if negative then '-' :: cs else cs)

/-
  The text of a numeral, given the texts of the two values
  that are no fraction.
-/
def textWith
    (infinity nan : String) : Numeral → String
  | .decimal negative digits exponent =>
      match Double.ofDecimal digits exponent with
      | .zero => signed negative ['0', '.', '0']
      | .finite m q => signed negative (Double.text m q)
      | .infinite => signed negative infinity.toList
  | .infinity negative => signed negative infinity.toList
  | .nan => nan

/- The text of a numeral in a JSON text. -/
def text : Numeral → String :=
  textWith "Infinity" "NaN"

/- The text of a numeral in a message. -/
def shown : Numeral → String :=
  textWith "inf" "nan"

/- Whether a numeral is the number one. -/
def isOne : Numeral → Bool
  | .decimal false digits exponent =>
      Double.ofDecimal digits exponent
        == .finite (Nat.pow 2 52) (-52)
  | _ => false

end Numeral

end Uncaught
