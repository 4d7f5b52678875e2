import Uncaught.Data.Sorted
import Uncaught.Data.Table
import Uncaught.Signature

/-
  This file defines what is known of the body of a method.

  Key definitions include:
    * `MethodFacts`
    * `MethodFacts.addCall`
    * `MethodFacts.addThrow`
    * `MethodFacts.isBare`
    * `MethodFacts.toJson`
    * `MethodFacts.ofJson`
-/

namespace Uncaught

------------------------------------------------------------
-- Facts
------------------------------------------------------------

/-
  The methods that a body calls, the exceptions that it throws,
  and for a called method the types caught around its calls.
-/
structure MethodFacts where
  signature : Signature
  calls : List Signature := []
  thrown : List String := []
  handlers : Table Signature (List String) := .empty
  deriving DecidableEq

namespace MethodFacts

/- The union of two lists without repetitions. -/
def union
    (names more : List String) : List String :=
  more.foldl (fun acc n => acc.insert n) names

/-
  Add a call with the types caught around it. Types caught
  around several calls of one method are taken together.
-/
def addCall
    (f : MethodFacts)
    (callee : Signature)
    (caught : List String) : MethodFacts :=
  { f with
    calls := f.calls.insert callee
    handlers :=
      if caught.isEmpty then
        f.handlers
      else
        f.handlers.insert callee
          (union ((f.handlers.get? callee).getD []) caught) }

/- Add a thrown exception. -/
def addThrow
    (f : MethodFacts)
    (exc : String) : MethodFacts :=
  { f with thrown := f.thrown.insert exc }

/- Whether nothing is known of a body. -/
def isBare
    (f : MethodFacts) : Bool :=
  f.calls.isEmpty && f.thrown.isEmpty && f.handlers.isEmpty

/-
  The exceptions that leave a method: the declared ones and the
  ones thrown in its body, in order.
-/
def exceptions
    (f : MethodFacts) : List String :=
  nameSet (f.signature.throws ++ f.thrown)

------------------------------------------------------------
-- Written Forms
------------------------------------------------------------

/-
  Facts as a JSON value, everything in order. The calls stand
  for a set, so that their own order is not given; it decides
  between calls that the order of signatures does not tell
  apart.
-/
def toJson
    (f : MethodFacts) : Json :=
  .obj [
    ("signature", f.signature.toJson),
    ("callings", .arr ((Signature.sort f.calls).map
      Signature.toJson)),
    ("throws_in_body", .strings (sortNames f.thrown)),
    ("handlers", .arr ((Signature.sortOn Prod.fst
      f.handlers.entries).map fun (callee, caught) =>
        .obj [
          ("callee", callee.toJson),
          ("catches", .strings (sortNames caught))]))]

/- Read the types caught around the calls of a method. -/
def handlerOfJson
    (v : Json) : Json.Read (Signature × List String) := do
  let caught ← (← v.field "catches").names
  let callee ← Signature.ofJson (← v.field "callee")
  return (callee, caught.eraseDups)

/-
  Read facts, of which the signature is needed. Of two handlers
  for one method the later one counts.
-/
def ofJson
    (v : Json) : Json.Read MethodFacts := do
  let signature ← Signature.ofJson (← v.field "signature")
  let calls ← v.slot "callings" (Json.list Signature.ofJson)
  let thrown ← v.slot "throws_in_body" Json.names
  let handlers ← v.slot "handlers" (Json.list handlerOfJson)
  return {
    signature
    calls := (calls.getD []).eraseDups
    thrown := (thrown.getD []).eraseDups
    handlers := .ofList (handlers.getD []) }

end MethodFacts

end Uncaught
