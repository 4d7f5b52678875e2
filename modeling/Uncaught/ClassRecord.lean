import Uncaught.Data.Sorted
import Uncaught.Signature

/-
  This file defines class records.

  Key definitions include:
    * `ClassRecord`
    * `ClassRecord.supertypes`
    * `ClassRecord.toJson`
    * `ClassRecord.ofJson`
-/

namespace Uncaught

------------------------------------------------------------
-- Records
------------------------------------------------------------

/-
  A class or interface: its name, the class it extends, the
  interfaces it stands under, and the methods it declares.
-/
structure ClassRecord where
  name : String
  superClass : Option String := none
  interfaces : List String := []
  isInterface : Bool := false
  methods : List Signature := []
  deriving DecidableEq, Repr

namespace ClassRecord

/-
  The direct supertypes of a class: the class it extends, then
  its interfaces in order. An empty name is no class.
-/
def supertypes
    (c : ClassRecord) : List String :=
  (c.superClass.filter (fun s => !s.isEmpty)).toList
    ++ sortNames c.interfaces

/-
  A record as a JSON value, everything in order. The methods
  stand for a set, as the calls in facts do.
-/
def toJson
    (c : ClassRecord) : Json :=
  .obj [
    ("fqn", .str c.name),
    ("super_class", .ofOption c.superClass),
    ("interfaces", .strings (sortNames c.interfaces)),
    ("is_interface", .bool c.isInterface),
    ("methods", .arr ((Signature.sort c.methods).map
      Signature.toJson))]

/- Read a record, of which the name is needed. -/
def ofJson
    (v : Json) : Json.Read ClassRecord := do
  let methods ← v.slot "methods" (Json.list Signature.ofJson)
  let name ← (← v.field "fqn").name
  let superClass ← v.slot "super_class" Json.name?
  let interfaces ← v.slot "interfaces" Json.names
  let isInterface ← v.slot "is_interface" Json.truth
  return {
    name
    superClass := superClass.join
    interfaces := (interfaces.getD []).eraseDups
    isInterface := isInterface.getD false
    methods := (methods.getD []).eraseDups }

end ClassRecord

end Uncaught
