/-
  This file defines JSON values.

  Key definitions include:
    * `Numeral`
    * `Json`
    * `Json.put`
    * `Json.get?`
    * `Json.isTruthy`
-/

namespace Uncaught

------------------------------------------------------------
-- Numbers
------------------------------------------------------------

/-
  A number that is not written as an integer: a decimal
  fraction `digits * 10 ^ exponent` with its sign, or one of
  the values that no fraction denotes.
-/
inductive Numeral where
  | decimal (negative : Bool) (digits : Nat) (exponent : Int)
  | infinity (negative : Bool)
  | nan
  deriving DecidableEq, Repr

------------------------------------------------------------
-- Values
------------------------------------------------------------

/-
  A JSON value; the fields of an object keep their order.
-/
inductive Json where
  | null
  | bool (b : Bool)
  | int (n : Int)
  | real (x : Numeral)
  | str (s : String)
  | arr (items : List Json)
  | obj (fields : List (String × Json))
  deriving Repr

namespace Json

/- A text, or null if there is none. -/
def ofOption : Option String → Json
  | none => null
  | some s => str s

/- An array of texts. -/
def strings
    (names : List String) : Json :=
  arr (names.map str)

/-
  Set a field: a field that is there keeps its place, a new
  one comes last.
-/
def put
    (key : String)
    (value : Json) :
    List (String × Json) → List (String × Json)
  | [] => [(key, value)]
  | (k, v) :: rest =>
      if k == key then
        (k, value) :: rest
      else
        (k, v) :: put key value rest

/- The value of a field, if the value is an object that has it. -/
def get? : Json → String → Option Json
  | obj fields, key => fields.lookup key
  | _, _ => none

/-
  Whether a value counts as true: all but null, false, the
  zeros and the empty texts, arrays and objects.
-/
def isTruthy : Json → Bool
  | null => false
  | bool b => b
  | int n => n != 0
  | real (.decimal _ digits _) => digits != 0
  | real _ => true
  | str s => !s.isEmpty
  | arr items => !items.isEmpty
  | obj fields => !fields.isEmpty

end Json

end Uncaught
