import Uncaught.Facts
import Uncaught.Hierarchy
import Uncaught.Settings

/-
  This file defines the database of a project: what is known of
  its methods and classes, and the call graph that is made of
  it once. A database is open until its call graph is made, and
  sealed from then on.

  Key definitions include:
    * `CallEdge`
    * `DispatchEdge`
    * `ClassBinding`
    * `Database`
    * `DatabaseError`
    * `DatabaseError.stateMessage?`
    * `Database.addMethod`
    * `Database.addBound`
    * `Database.addClass`
-/

namespace Uncaught

------------------------------------------------------------
-- Edges
------------------------------------------------------------

/- A call as it is written. -/
structure CallEdge where
  caller : Signature
  callee : Signature
  deriving DecidableEq, Repr

/-
  A call as it can run: the method that runs, and the method
  that is written.
-/
structure DispatchEdge where
  caller : Signature
  callee : Signature
  written : Signature
  deriving DecidableEq, Repr

------------------------------------------------------------
-- Class Bindings
------------------------------------------------------------

/-
  What a class is bound to: a record, or a value that is read
  as a record when one is needed.
-/
inductive ClassBinding where
  | record (c : ClassRecord)
  | raw (v : Json)

/- The record that a class is bound to. -/
def ClassBinding.read : ClassBinding → Json.Read ClassRecord
  | record c => .ok c
  | raw v => ClassRecord.ofJson v

------------------------------------------------------------
-- Databases
------------------------------------------------------------

/-
  The facts of the methods, the methods known by their
  signatures, and the classes; then what is made of them: the
  hierarchy, the calls as written and as they can run, and for
  each method its callers with the edge of the call.
-/
structure Database where
  settings : Settings
  facts : Table Signature MethodFacts
  bound : List Signature
  classes : Table String ClassBinding
  hierarchy : Option Hierarchy
  calls : List CallEdge
  dispatches : List DispatchEdge
  callers : Table Signature (Table Signature DispatchEdge)
  isSealed : Bool

/-
  What can go wrong with a database: it is sealed, or not yet
  sealed; a class binding is no record; there is no hierarchy;
  or two methods have no edge between them.
-/
inductive DatabaseError where
  | alreadySealed
  | notSealed
  | fixedFacts
  | fixedEdges
  | noHierarchy
  | noEdge (callee caller : Signature)
  | record (e : Json.ReadError)
  deriving DecidableEq, Repr

/- What to say of a database that is in the wrong state. -/
def DatabaseError.stateMessage? : DatabaseError → Option String
  | alreadySealed =>
      some "database is sealed; it cannot change after build()"
  | notSealed =>
      some "call build() before querying the database"
  | _ => none

/- The outcome of an operation on a database. -/
abbrev Outcome (α : Type) :=
  Except DatabaseError α

namespace Database

/- The database that knows nothing. -/
def empty
    (settings : Settings) : Database where
  settings
  facts := .empty
  bound := []
  classes := .empty
  hierarchy := none
  calls := []
  dispatches := []
  callers := .empty
  isSealed := false

------------------------------------------------------------
-- Filling
------------------------------------------------------------

/- Fail if the database is sealed. -/
def checkOpen
    (db : Database) : Outcome Unit :=
  if db.isSealed then .error .alreadySealed else .ok ()

/- Fail unless the database is sealed. -/
def checkSealed
    (db : Database) : Outcome Unit :=
  if db.isSealed then .ok () else .error .notSealed

/- Add the facts of a method. -/
def addMethod
    (db : Database)
    (f : MethodFacts) : Outcome Database := do
  db.checkOpen
  return { db with facts := db.facts.insert f.signature f }

/- Add a method that is known by its signature. -/
def addBound
    (db : Database)
    (s : Signature) : Outcome Database := do
  db.checkOpen
  return { db with
    bound := if s ∈ db.bound then db.bound else db.bound ++ [s] }

/- Add a class under a name. -/
def addClass
    (db : Database)
    (name : String)
    (binding : ClassBinding) : Outcome Database := do
  db.checkOpen
  return { db with classes := db.classes.insert name binding }

/-
  Put facts under a signature, be it another than their own.
-/
def assignFacts
    (db : Database)
    (s : Signature)
    (f : MethodFacts) : Outcome Database :=
  if db.isSealed then
    .error .fixedFacts
  else
    .ok { db with facts := db.facts.insert s f }

/-
  Change the facts of a method. Facts can change at any time;
  the call graph does not follow them.
-/
def changeFacts
    (db : Database)
    (s : Signature)
    (change : MethodFacts → MethodFacts) : Database :=
  { db with facts := db.facts.modify s change }

end Database

end Uncaught
