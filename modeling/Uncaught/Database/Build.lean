import Uncaught.Database.Basic

/-
  This file defines how the call graph of a database is made,
  in five stages.

  Key definitions include:
    * `Stage`
    * `Database.completeFacts`
    * `Database.linkClasses`
    * `Database.collectCalls`
    * `Database.dispatchCalls`
    * `Database.indexCallers`
    * `Database.build`
-/

namespace Uncaught

namespace Database

------------------------------------------------------------
-- Stages
------------------------------------------------------------

/-
  Give bare facts to the methods that are known only by their
  signatures.
-/
def completeFacts
    (db : Database) : Outcome (Database × List Event) :=
  let missing := db.bound.filter (!db.facts.contains ·)
  let facts := missing.foldl
    (fun t s => t.insert s { signature := s }) db.facts
  .ok ({ db with facts }, [.factsCompleted missing.length])

/- The records of all classes, in the order of their names' coming. -/
def records
    (db : Database) : Outcome (List ClassRecord) :=
  (db.classes.values.mapM ClassBinding.read).mapError .record

/- Make the hierarchy of the classes. -/
def linkClasses
    (db : Database) : Outcome (Database × List Event) := do
  let records ← db.records
  return ({ db with hierarchy := some (.ofRecords records) },
    Hierarchy.events records
      ++ [.classesLinked records.length])

/- The calls as written, in the facts of all methods. -/
def writtenCalls
    (db : Database) : List CallEdge :=
  db.facts.entries.flatMap fun (caller, f) =>
    f.calls.map fun callee => ⟨caller, callee⟩

/- The members of a list that are not in another, each once. -/
def added
    {α : Type}
    [DecidableEq α]
    (old new : List α) : List α :=
  (new.filter (· ∉ old)).eraseDups

/-
  Collect the calls as written. The calls of a sealed database
  cannot be added to.
-/
def collectCalls
    (db : Database) : Outcome (Database × List Event) :=
  let written := db.writtenCalls
  if db.isSealed && !written.isEmpty then
    .error .fixedEdges
  else
    let calls := db.calls ++ added db.calls written
    .ok ({ db with calls }, [.callsCollected calls.length])

/- The calls that a written call can run as. -/
def dispatch
    (h : Hierarchy)
    (e : CallEdge) : List DispatchEdge :=
  (h.overriding e.callee.owner e.callee).insert e.callee |>.map
    fun callee => ⟨e.caller, callee, e.callee⟩

/- Dispatch the calls over the hierarchy. -/
def dispatchCalls
    (db : Database) : Outcome (Database × List Event) :=
  if db.calls.isEmpty then
    .ok (db, [.callsDispatched db.dispatches.length])
  else
    match db.hierarchy with
    | none => .error .noHierarchy
    | some h =>
        if db.isSealed then
          .error .fixedEdges
        else
          let found := db.calls.flatMap (dispatch h)
          let dispatches :=
            db.dispatches ++ added db.dispatches found
          .ok ({ db with dispatches },
            [.callsDispatched dispatches.length])

/-
  The order of dispatched calls: by the method that runs, the
  caller and the method that is written.
-/
def edgeLe
    (a b : DispatchEdge) : Bool :=
  (compareLex (fun a b => Signature.order a.callee b.callee)
    (compareLex (fun a b => Signature.order a.caller b.caller)
      (fun a b => Signature.order a.written b.written))
    a b).isLE

/- Put a dispatched call into the index of callers. -/
def indexEdge
    (index : Table Signature (Table Signature DispatchEdge))
    (e : DispatchEdge) :
    Table Signature (Table Signature DispatchEdge) :=
  let index := index.insertNew e.callee .empty
  let index := index.insertNew e.caller .empty
  index.modify e.callee (·.insert e.caller e)

/-
  Index the callers of each method. Of several calls between
  two methods the last one in order is kept. The calls stand for
  a set; how they are listed decides between calls that the
  order does not tell apart.
-/
def indexCallers
    (db : Database) : Outcome (Database × List Event) :=
  let methods := Signature.sort db.facts.keys
  let index := methods.foldl (·.insertNew · .empty) db.callers
  let edges := db.dispatches.mergeSort edgeLe
  let callers := edges.foldl indexEdge index
  .ok ({ db with callers }, [.callersIndexed callers.size])

------------------------------------------------------------
-- Building
------------------------------------------------------------

/- The stages in which a call graph is made. -/
inductive Stage where
  | facts
  | classes
  | calls
  | dispatches
  | callers
  deriving DecidableEq, Repr

/- All stages in order. -/
def stages : List Stage :=
  [.facts, .classes, .calls, .dispatches, .callers]

/- Run one stage. -/
def runStage
    (db : Database) : Stage → Outcome (Database × List Event)
  | .facts => db.completeFacts
  | .classes => db.linkClasses
  | .calls => db.collectCalls
  | .dispatches => db.dispatchCalls
  | .callers => db.indexCallers

/-
  The outcome of making a call graph: the database as it is
  then, what was reported, and what went wrong.
-/
structure Build where
  database : Database
  events : List Event
  failure : Option DatabaseError

/- Run stages until one fails, which changes nothing. -/
def runStages
    (db : Database)
    (events : List Event) : List Stage → Build
  | [] => ⟨db, events, none⟩
  | s :: ss =>
      match db.runStage s with
      | .error e => ⟨db, events, some e⟩
      | .ok (db, more) => runStages db (events ++ more) ss

/- Close a database for good, and report its size. -/
def close
    (db : Database) : Database × Event :=
  ({ db with isSealed := true },
    .built db.facts.size db.classes.size db.calls.length
      db.dispatches.length)

/-
  Make the call graph and seal the database. If a stage fails,
  what the stages before it did stays, and the database stays
  open.
-/
def build
    (db : Database) : Build :=
  if db.isSealed then
    ⟨db, [], some .alreadySealed⟩
  else
    match runStages db [] stages with
    | ⟨db, events, some e⟩ => ⟨db, events, some e⟩
    | ⟨db, events, none⟩ =>
        let (db, event) := db.close
        ⟨db, events ++ [event], none⟩

end Database

end Uncaught
