import Uncaught.Graph.Search
import Uncaught.Resolve.Names

/-
  This file defines the links between the types of a project:
  what each extends and implements, and the types of its
  fields.

  Key definitions include:
    * `Links`
    * `Links.ofFiles`
    * `Links.closure`
-/

namespace Uncaught

/-
  The superclass and the interfaces of each type, and for each
  type the types of its fields by name.
-/
structure Links where
  parents : Table String String := .empty
  interfaces : Table String (List String) := .empty
  fields : Table String (Table String String) := .empty

namespace Links

------------------------------------------------------------
-- Supertypes
------------------------------------------------------------

/- The names in the head of a type, resolved. -/
def headNames
    (n : Names)
    (name : String)
    (written : List String) : List String :=
  (written.filterMap fun w => n.resolve? w (some name)).filter
    (· != name)

/- Add what a type extends and implements. -/
def addType
    (n : Names)
    (links : Links)
    (name : String)
    (t : TypeSummary) : Except MissingKey Links := do
  let extended ← need "extends" t.extended
  let parents := (headNames n name extended).foldl
    (fun table p => table.insert name p) links.parents
  let implemented ← need "implements" t.implemented
  let found := headNames n name implemented
  let interfaces := if found.isEmpty then
      links.interfaces
    else
      links.interfaces.insert name found
  return { links with parents, interfaces }

------------------------------------------------------------
-- Fields
------------------------------------------------------------

/- Add a field, if its type can be resolved. -/
def addField
    (n : Names)
    (links : Links)
    (f : FieldSummary) : Except MissingKey Links := do
  let type ← need "type" f.type
  let owner ← need "owner_fqn" f.owner
  match n.resolve? (Text.deleteAll type "[]") (some owner) with
  | none => return links
  | some type =>
      let name ← need "name" f.name
      let known := (links.fields.get? owner).getD .empty
      return { links with
        fields := links.fields.insert owner
          (known.insert name type) }

------------------------------------------------------------
-- Links
------------------------------------------------------------

/- The links between the types of files. -/
def ofFiles
    (n : Names)
    (files : List FileSummary) : Except MissingKey Links := do
  let links ← n.types.entries.foldlM
    (fun links e => addType n links e.1 e.2.summary) {}
  (files.flatMap (·.fields)).foldlM (addField n) links

/- The direct supertypes of a type. -/
def supertypes
    (links : Links)
    (name : String) : List String :=
  (links.parents.get? name).toList
    ++ (links.interfaces.get? name).getD []

/- A type and all its supertypes, nearest first. -/
def closure
    (links : Links)
    (name : String) : List String :=
  let known := (name :: links.parents.values
    ++ links.interfaces.values.flatten).eraseDups
  Graph.gather links.supertypes known [name]

end Links

end Uncaught
