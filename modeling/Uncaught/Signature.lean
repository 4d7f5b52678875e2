import Uncaught.Text.Cut
import Uncaught.Json.Field

/-
  This file defines method signatures, their order, and their
  written forms.

  Key definitions include:
    * `Signature`
    * `Signature.order`
    * `Signature.le`
    * `Signature.sort`
    * `Signature.sameDispatch`
    * `Signature.text`
    * `Signature.toJson`
    * `Signature.ofJson`
-/

namespace Uncaught

------------------------------------------------------------
-- Signatures
------------------------------------------------------------

/-
  A method: the class it belongs to, its name, the types of its
  parameters, its package, and the exceptions it declares.
-/
structure Signature where
  owner : String
  name : String
  params : List String := []
  package : Option String := none
  throws : List String := []
  deriving DecidableEq, Repr, Inhabited

namespace Signature

/- The name of the methods that make objects. -/
def constructorName : String :=
  "<init>"

------------------------------------------------------------
-- Order
------------------------------------------------------------

/- The package of a method, empty if there is none. -/
def packageText
    (s : Signature) : String :=
  s.package.getD ""

/-
  The order of signatures: by class, name, parameter types,
  package and declared exceptions. A missing package and an
  empty one are not told apart.
-/
def order : Signature → Signature → Ordering :=
  compareLex (compareOn owner) <|
    compareLex (compareOn name) <|
      compareLex (compareOn params) <|
        compareLex (compareOn packageText) <|
          compareOn throws

/- Whether a signature comes before another or with it. -/
def le
    (a b : Signature) : Bool :=
  (order a b).isLE

/-
  Signatures in order; ones that are not told apart keep their
  places.
-/
def sort
    (sigs : List Signature) : List Signature :=
  sigs.mergeSort le

/- Things in the order of their signatures. -/
def sortOn
    {α : Type}
    (key : α → Signature)
    (items : List α) : List α :=
  items.mergeSort (fun a b => le (key a) (key b))

------------------------------------------------------------
-- Dispatch
------------------------------------------------------------

/-
  Whether a method can stand for another at run time, as far as
  names and parameter types tell.
-/
def sameDispatch
    (a b : Signature) : Bool :=
  a.name == b.name && a.params == b.params

------------------------------------------------------------
-- Written Forms
------------------------------------------------------------

/- The text of a signature: class, name and parameter types. -/
def text
    (s : Signature) : String :=
  s.owner ++ "#" ++ s.name
    ++ "(" ++ Text.join "," s.params ++ ")"

/- A signature as a JSON value. -/
def toJson
    (s : Signature) : Json :=
  .obj [
    ("class", .str s.owner),
    ("name", .str s.name),
    ("params", .strings s.params),
    ("package", .ofOption s.package),
    ("throws", .strings s.throws)]

/- Read a signature, of which class and name are needed. -/
def ofJson
    (v : Json) : Json.Read Signature := do
  let owner ← (← v.field "class").name
  let name ← (← v.field "name").name
  let params ← v.slot "params" Json.names
  let package ← v.slot "package" Json.name?
  let throws ← v.slot "throws" Json.names
  return {
    owner
    name
    params := params.getD []
    package := package.join
    throws := throws.getD [] }

end Signature

end Uncaught
