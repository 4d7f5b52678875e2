import Uncaught.Json.Basic

/-
  This file defines how records are read from JSON values.

  Key definitions include:
    * `Json.ReadError`
    * `Json.field`
    * `Json.field?`
    * `Json.items`
    * `Json.name`
    * `Json.names`
-/

namespace Uncaught

namespace Json

------------------------------------------------------------
-- Errors
------------------------------------------------------------

/-
  Why a value is no record of the kind that is read: a key is
  missing, the value is no object, or some value in it is of
  another type.
-/
inductive ReadError where
  | missing (key : String)
  | notObject
  | wrongType
  deriving DecidableEq, Repr

/- The outcome of reading. -/
abbrev Read (α : Type) :=
  Except ReadError α

------------------------------------------------------------
-- Fields
------------------------------------------------------------

/- The value of a field that has to be there. -/
def field
    (v : Json)
    (key : String) : Read Json :=
  match v with
  | obj fields =>
      match fields.lookup key with
      | some value => .ok value
      | none => .error (.missing key)
  | _ => .error .wrongType

/- The value of a field that may be missing. -/
def field?
    (v : Json)
    (key : String) : Read (Option Json) :=
  match v with
  | obj fields => .ok (fields.lookup key)
  | _ => .error .notObject

/- What is read of a field, if the field is there. -/
def slot
    {α : Type}
    (v : Json)
    (key : String)
    (read : Json → Read α) : Read (Option α) := do
  match ← v.field? key with
  | some value => some <$> read value
  | none => return none

------------------------------------------------------------
-- Values
------------------------------------------------------------

/-
  The items of a value: of an array its items, of a text its
  characters, of an object its keys.
-/
def items : Json → Read (List Json)
  | arr items => .ok items
  | str s => .ok (s.toList.map (fun c => str (String.singleton c)))
  | obj fields => .ok (fields.map (fun kv => str kv.1))
  | _ => .error .wrongType

/-
  A text. Names are texts throughout: a record with anything
  else in the place of a name is refused where it is read, even
  if nothing that is done with it later needs a text.
-/
def name : Json → Read String
  | str s => .ok s
  | _ => .error .wrongType

/- A text, or none for null. -/
def name? : Json → Read (Option String)
  | str s => .ok (some s)
  | null => .ok none
  | _ => .error .wrongType

/- Texts. -/
def names
    (v : Json) : Read (List String) := do
  (← v.items).mapM name

/- An integer. -/
def integer : Json → Read Int
  | int n => .ok n
  | bool b => .ok (if b then 1 else 0)
  | _ => .error .wrongType

/- A truth value, which any value has. -/
def truth
    (v : Json) : Read Bool :=
  .ok v.isTruthy

/- Items, each read the same way. -/
def list
    {α : Type}
    (read : Json → Read α)
    (v : Json) : Read (List α) := do
  (← v.items).mapM read

end Json

end Uncaught
