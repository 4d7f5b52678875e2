import Uncaught.ClassRecord
import Uncaught.Data.Table
import Uncaught.Graph.Search
import Uncaught.Log

/-
  This file defines the subtype relation of a list of class
  records.

  Key definitions include:
    * `Hierarchy`
    * `Hierarchy.ofRecords`
    * `Hierarchy.ancestors`
    * `Hierarchy.subtypes`
    * `Hierarchy.isCompatible`
    * `Hierarchy.overriding`
    * `Hierarchy.events`
-/

namespace Uncaught

------------------------------------------------------------
-- Hierarchies
------------------------------------------------------------

/-
  The records by name, the links from a class to its direct
  supertypes, and the names of all these classes. The links
  have no class under itself.
-/
structure Hierarchy where
  records : Table String ClassRecord
  links : List (String × String)
  names : List String

namespace Hierarchy

/- The links from a class to its direct supertypes. -/
def linksOf
    (c : ClassRecord) : List (String × String) :=
  (c.supertypes.filter (· != c.name)).map (c.name, ·)

/-
  The hierarchy of a list of records. Of two records with one
  name the later one is kept, with the links of both.
-/
def ofRecords
    (records : List ClassRecord) : Hierarchy :=
  let table := Table.ofList (records.map fun c => (c.name, c))
  let links := records.flatMap linksOf
  { records := table
    links
    names := (links.map Prod.fst ++ links.map Prod.snd
      ++ table.keys).eraseDups }

/- Whether there is a record for a name. -/
def contains
    (h : Hierarchy)
    (name : String) : Bool :=
  h.records.contains name

------------------------------------------------------------
-- Relations
------------------------------------------------------------

/- The direct supertypes of a class. -/
def supers
    (h : Hierarchy)
    (name : String) : List String :=
  h.links.filterMap fun (sub, sup) =>
    if sub = name then some sup else none

/- The direct subtypes of a class. -/
def subs
    (h : Hierarchy)
    (name : String) : List String :=
  h.links.filterMap fun (sub, sup) =>
    if sup = name then some sub else none

/-
  The classes above a class. The class itself is one of them
  only if it lies on a cycle.
-/
def ancestors
    (h : Hierarchy)
    (name : String) : List String :=
  Graph.gather h.supers h.names (h.supers name)

/- The classes below a class. -/
def subtypes
    (h : Hierarchy)
    (name : String) : List String :=
  Graph.gather h.subs h.names (h.subs name)

/- Whether a class is another one or stands below it. -/
def isCompatible
    (h : Hierarchy)
    (sub sup : String) : Bool :=
  sub == sup || (h.ancestors sub).contains sup

/-
  The methods that the classes below a class declare with the
  name and the parameter types of a method.
-/
def overriding
    (h : Hierarchy)
    (owner : String)
    (method : Signature) : List Signature :=
  ((h.subtypes owner).flatMap fun sub =>
    match h.records.get? sub with
    | some c => c.methods.filter (·.sameDispatch method)
    | none => []).eraseDups

------------------------------------------------------------
-- Events
------------------------------------------------------------

/- The classes on cycles, in order. -/
def cyclic
    (h : Hierarchy) : List String :=
  sortNames (h.names.filter fun n => (h.ancestors n).contains n)

/- What is reported when a hierarchy is made of records. -/
def events
    (records : List ClassRecord) : List Event :=
  let selfLinks := records.flatMap fun c =>
    (c.supertypes.filter (· == c.name)).map
      Event.selfInheritance
  let cyclic := (ofRecords records).cyclic
  if cyclic.isEmpty then
    selfLinks
  else
    selfLinks ++ [.inheritanceCycle cyclic]

end Hierarchy

end Uncaught
