import Uncaught.Chain
import Uncaught.Database.Build

/-
  This file defines the questions that a sealed database
  answers: who calls a method, which methods throw, and by
  which chains of callers an exception goes up.

  Key definitions include:
    * `Database.callersOf`
    * `Database.isSource`
    * `Database.sources`
    * `Database.exceptionsOf`
    * `Database.canHandle`
    * `Database.isHandled`
    * `Database.chainsFrom`
    * `Database.allChainsFrom`
-/

namespace Uncaught

namespace Database

------------------------------------------------------------
-- Callers And Sources
------------------------------------------------------------

/- The callers of a method in the index, in order. -/
def callersIn
    (db : Database)
    (m : Signature) : List Signature :=
  Signature.sort ((db.callers.get? m).getD .empty).keys

/- The callers of a method. -/
def callersOf
    (db : Database)
    (m : Signature) : Outcome (List Signature) := do
  db.checkSealed
  return db.callersIn m

/-
  Whether a method is a source of exceptions: it throws in its
  body, or belongs to the platform and declares exceptions.
-/
def throwsItself
    (db : Database)
    (prefixes : Option (List String))
    (m : Signature) : Bool :=
  match db.facts.get? m with
  | none => false
  | some f =>
      !f.thrown.isEmpty
        || (db.settings.isPlatform m.package prefixes
          && !m.throws.isEmpty)

/- Whether a method is a source of exceptions. -/
def isSource
    (db : Database)
    (m : Signature)
    (prefixes : Option (List String)) : Outcome Bool := do
  db.checkSealed
  return db.throwsItself prefixes m

/- The sources of exceptions, in order. -/
def sources
    (db : Database)
    (prefixes : Option (List String)) :
    Outcome (List Signature) := do
  db.checkSealed
  return (Signature.sort db.facts.keys).filter
    (db.throwsItself prefixes)

/- The exceptions that leave a method, in order. -/
def exceptionsIn
    (db : Database)
    (m : Signature) : List String :=
  match db.facts.get? m with
  | none => []
  | some f => f.exceptions

/- The exceptions that leave a method. -/
def exceptionsOf
    (db : Database)
    (m : Signature) : Outcome (List String) := do
  db.checkSealed
  return db.exceptionsIn m

------------------------------------------------------------
-- Handling
------------------------------------------------------------

/-
  Whether a caught type takes a thrown one: it is the same type
  or one above it. Where one of them is unknown, the settings
  tell.
-/
def takes
    (db : Database)
    (thrown caught : String) : Bool :=
  if db.classes.contains thrown && db.classes.contains caught then
    match db.hierarchy with
    | some h => h.isCompatible thrown caught
    | none => thrown == caught
  else
    db.settings.unknownCompatible

/- Whether a caught type takes a thrown one. -/
def canHandle
    (db : Database)
    (thrown caught : String) : Outcome Bool := do
  db.checkSealed
  return db.takes thrown caught

/- The call between two methods in the index of callers. -/
def edgeBetween
    (db : Database)
    (callee caller : Signature) : Option DispatchEdge :=
  (db.callers.get? callee).bind (·.get? caller)

/-
  The types that a caller catches around the calls of a method,
  in order; the method is looked up as it is written.
-/
def handlersIn
    (db : Database)
    (caller written : Signature) : List String :=
  match db.facts.get? caller with
  | none => []
  | some f => sortNames ((f.handlers.get? written).getD [])

/-
  Whether a caller handles an exception that comes out of a
  method it calls. The call has to be in the index.
-/
def isHandled
    (db : Database)
    (callee caller : Signature)
    (exc : String) : Outcome Bool :=
  match db.edgeBetween callee caller with
  | none => .error (.noEdge callee caller)
  | some e =>
      let handlers := db.handlersIn caller e.written
      if handlers.isEmpty then
        .ok false
      else do
        db.checkSealed
        return handlers.any (db.takes exc)

------------------------------------------------------------
-- Chains
------------------------------------------------------------

/-
  The entries of a chain above a method: each caller with
  whether it handles what comes out of the one before.
-/
def entriesAbove
    (db : Database)
    (exc : String)
    (callee : Signature) :
    List Signature → Outcome (List Entry)
  | [] => .ok []
  | caller :: rest => do
      let handled ← db.isHandled callee caller exc
      let entries ← db.entriesAbove exc caller rest
      return ⟨caller, handled⟩ :: entries

/- The chains along a path of callers, one for each exception. -/
def chainsAlong
    (db : Database)
    (exceptions : List String) :
    List Signature → Outcome (List Chain)
  | [] => .ok []
  | source :: callers =>
      exceptions.mapM fun exc => do
        let entries ← db.entriesAbove exc source callers
        return ⟨source, entries, some exc⟩

/- The chains along paths of callers from a source. -/
def chainsOver
    (db : Database)
    (paths : List Signature → List (List Signature))
    (source : Signature) : Outcome (List Chain) := do
  db.checkSealed
  if db.facts.contains source then
    let chains ← (paths db.callers.keys).mapM
      (db.chainsAlong (db.exceptionsIn source))
    return chains.flatten
  else
    return []

/-
  The chains from a source along the breadth-first tree of its
  callers: each method above the source is reached once.
-/
def chainsFrom
    (db : Database)
    (source : Signature) : Outcome (List Chain) :=
  db.chainsOver
    (Graph.treePaths db.callersIn · source) source

/- The chains from a source along all paths of its callers. -/
def allChainsFrom
    (db : Database)
    (source : Signature) : Outcome (List Chain) :=
  db.chainsOver
    (Graph.maximalPaths db.callersIn · source) source

/-
  The chains of all sources, along the trees or along all
  paths.
-/
def chains
    (db : Database)
    (exact : Bool)
    (sources : List Signature) : Outcome (List Chain) := do
  let found ← sources.mapM
    (if exact then db.allChainsFrom else db.chainsFrom)
  return found.flatten

end Database

end Uncaught
