import Uncaught.Database.Basic
import Uncaught.Resolve.Body

/-
  This file defines the resolution of the summaries of a
  project: the facts of its methods, the methods that it calls
  outside, and the records of its classes.

  Key definitions include:
    * `Resolution`
    * `Resolution.ofFiles`
    * `Resolution.method?`
    * `Resolution.constructor?`
    * `Resolution.class?`
    * `Resolution.populate`
-/

namespace Uncaught

open Symbols (Target)

/-
  The symbols of a project, the facts of its methods, the
  methods outside of the project that were called or asked for,
  the number of calls that are not resolved, and what was
  reported.
-/
structure Resolution where
  symbols : Symbols
  facts : Table Signature MethodFacts := .empty
  externals : List Signature := []
  unresolved : Nat := 0
  events : List Event := []

namespace Resolution

------------------------------------------------------------
-- Statements
------------------------------------------------------------

/- Add a method outside of the project, once. -/
def addExternal
    (r : Resolution)
    (s : Signature) : Resolution :=
  { r with externals :=
      if s ∈ r.externals then
        r.externals
      else
        r.externals ++ [s] }

/- The statements of a file by the methods they belong to. -/
def byMethod
    (statements : List Statement) :
    Except MissingKey (Table String (List Statement)) :=
  statements.foldlM (fun table s => do
    let owner ← need "owner_method" s.owner
    let known := (table.get? owner).getD []
    return table.insert owner (known ++ [s])) .empty

/- Add what the body of a method does. -/
def addBody
    (r : Resolution)
    (body : String × List Statement) :
    Except MissingKey Resolution := do
  let signature ← need body.1 (r.symbols.signatures.get? body.1)
  let facts := (r.facts.get? signature).getD { signature }
  let result ← Frame.run r.symbols facts body.2
  let r := result.externals.foldl addExternal r
  return { r with
    facts := r.facts.insert signature result.facts
    unresolved := r.unresolved + result.unresolved
    events := r.events ++ result.events }

/- Add what the bodies of a file do. -/
def addFile
    (r : Resolution)
    (f : FileSummary) : Except MissingKey Resolution := do
  let bodies ← byMethod (← need "stmts" f.statements)
  bodies.entries.foldlM addBody r

/- The resolution of the summaries of a project. -/
def ofFiles
    (files : List FileSummary) :
    Except MissingKey Resolution := do
  let symbols ← Symbols.ofFiles files
  let declared := symbols.methods.values.flatten.map (·.signature)
  files.foldlM addFile
    { symbols
      facts := .ofList (declared.map fun signature =>
        (signature, { signature })) }

------------------------------------------------------------
-- Questions
------------------------------------------------------------

/- Note a method outside of the project that was asked for. -/
def noteTarget
    (r : Resolution) : Option Target → Resolution
  | some (.external s) => r.addExternal s
  | _ => r

/- The method that a call on a type runs. -/
def method?
    (r : Resolution)
    (owner name : String)
    (arity : Int) : Option Signature × Resolution :=
  let target := r.symbols.method? owner name arity
  (target.map Target.signature, r.noteTarget target)

/- The constructor that a creation of a type runs. -/
def constructor?
    (r : Resolution)
    (owner : String)
    (arity : Int) :
    Except MissingKey (Option Signature × Resolution) := do
  let target ← r.symbols.constructor? owner arity
  return (target.map Target.signature, r.noteTarget target)

------------------------------------------------------------
-- Classes
------------------------------------------------------------

/- A type of the project with its place in the source. -/
structure LocatedClass where
  record : ClassRecord
  lines : Option LineRange

/- A type of the project. -/
def class?
    (r : Resolution)
    (name : String) : Option LocatedClass :=
  (r.symbols.names.types.get? name).map fun t =>
    { record :=
        { name
          superClass := r.symbols.links.parents.get? name
          interfaces :=
            (r.symbols.links.interfaces.get? name).getD []
          isInterface := t.summary.isInterface
          methods := (r.symbols.methodsOf name).map
            (·.signature) }
      lines := t.summary.lines }

/- A record that names each interface and method once. -/
def distinct
    (c : ClassRecord) : ClassRecord :=
  { c with
    interfaces := c.interfaces.eraseDups
    methods := c.methods.eraseDups }

/- The types of the project, sorted by name. -/
def classes
    (r : Resolution) : List ClassRecord :=
  (sortNames r.symbols.names.types.keys).filterMap fun name =>
    (r.class? name).map fun c => distinct c.record

------------------------------------------------------------
-- Databases
------------------------------------------------------------

/- The methods that are known by their signatures. -/
def bound
    (r : Resolution) : List Signature :=
  r.symbols.methods.values.flatten.map (·.signature)
    ++ r.externals

/-
  Put the classes of the platform and of the project, the facts
  of the methods and the known methods into a database.
-/
def populate
    (r : Resolution)
    (db : Database) : Outcome Database := do
  let db ← (Platform.classes ++ r.classes).foldlM
    (fun db c => db.addClass c.name (.record c)) db
  let db ← r.facts.values.foldlM Database.addMethod db
  r.bound.foldlM Database.addBound db

/- The report on a resolution that was put into a database. -/
def report
    (r : Resolution) : Event :=
  .resolved r.symbols.names.types.size r.facts.size
    r.externals.length r.unresolved

end Resolution

end Uncaught
