import Uncaught.Database.Basic
import Uncaught.Json.Printer
import Uncaught.Json.Reader
import Uncaught.Json.Shown

/-
  This file defines snapshots: what a database was filled with,
  as a JSON value and as a text.

  Key definitions include:
    * `Database.toJson`
    * `Database.ofJson`
    * `Database.dump`
    * `Database.load`
-/

namespace Uncaught

------------------------------------------------------------
-- Errors
------------------------------------------------------------

/-
  Why there is no database in a text: the text is no JSON, the
  version is another one, or a record cannot be read.
-/
inductive SnapshotError where
  | malformed
  | version (v : Json)
  | record (e : Json.ReadError)

/- What is said of a version that cannot be read. -/
def SnapshotError.versionMessage
    (v : Json) : String :=
  "Unsupported snapshot version: " ++ v.shown

namespace Database

------------------------------------------------------------
-- Writing
------------------------------------------------------------

/- The version of the snapshots that are written. -/
def snapshotVersion : Int :=
  1

/-
  The facts that a snapshot holds, in order. Bare facts of a
  bound method are made again when they are needed.
-/
def snapshotFacts
    (db : Database) : List MethodFacts :=
  Signature.sortOn MethodFacts.signature
    ((db.facts.entries.filter fun (s, f) =>
      !(db.bound.contains s && f.isBare)).map Prod.snd)

/- The class bindings by name, in order. -/
def classesByName
    (db : Database) : List (String × ClassBinding) :=
  db.classes.entries.mergeSort (fun a b => decide (a.1 ≤ b.1))

/- The snapshot of a database. -/
def toJson
    (db : Database) : Json.Read Json := do
  let classes ← db.classesByName.mapM fun (_, b) => b.read
  return .obj [
    ("version", .int snapshotVersion),
    ("methods", .arr (db.snapshotFacts.map MethodFacts.toJson)),
    ("bound_methods", .arr ((Signature.sort db.bound).map
      Signature.toJson)),
    ("classes", .arr (classes.map ClassRecord.toJson))]

/- The text of the snapshot of a database. -/
def dump
    (db : Database) : Json.Read String :=
  Json.toIndented <$> db.toJson

------------------------------------------------------------
-- Reading
------------------------------------------------------------

/- Whether a value is the version that can be read. -/
def isVersion : Json → Bool
  | .int n => n == snapshotVersion
  | .bool b => b
  | .real x => x.isOne
  | _ => false

/-
  The open database of a snapshot. Of two records of one method
  or class the later one counts.
-/
def ofJson
    (settings : Settings)
    (v : Json) : Except SnapshotError Database := do
  let version ← (v.field? "version").mapError .record
  let version := version.getD .null
  if isVersion version then
    Except.mapError .record do
      let methods ← Json.list MethodFacts.ofJson
        (← v.field "methods")
      let bound ← Json.list Signature.ofJson
        (← v.field "bound_methods")
      let classes ← Json.list ClassRecord.ofJson
        (← v.field "classes")
      return { Database.empty settings with
        facts := .ofList (methods.map fun f => (f.signature, f))
        bound := bound.eraseDups
        classes := .ofList
          (classes.map fun c => (c.name, .record c)) }
  else
    throw (.version version)

/- The open database of the text of a snapshot. -/
def load
    (settings : Settings)
    (text : String) : Except SnapshotError Database :=
  match Json.parse text with
  | none => .error .malformed
  | some v => ofJson settings v

end Database

end Uncaught
