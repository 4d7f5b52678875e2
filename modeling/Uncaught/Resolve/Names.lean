import Uncaught.Data.Sorted
import Uncaught.Platform
import Uncaught.Summary
import Uncaught.Text.Letter

/-
  This file defines how the name of a type in a file is resolved
  to a qualified name: by nesting, imports, the package, the
  other types of the project, and the platform.

  Key definitions include:
    * `Scope`
    * `Names`
    * `Names.ofFiles`
    * `Names.resolve`
    * `Names.resolveException`
-/

namespace Uncaught

------------------------------------------------------------
-- Scopes
------------------------------------------------------------

/-
  What the types of a file can see: the package, the imported
  types by simple name, and the packages that are imported as
  a whole.
-/
structure Scope where
  package : Option String
  singles : Table String String
  wildcards : List String

namespace Scope

/- The package that an import names as a whole. -/
def wildcardOf
    (imported : String) : Option String :=
  if Text.endsWith imported ".*" then
    (Text.cutLast '.' imported).map Prod.fst
  else
    none

/- The scope of a file. -/
def ofFile
    (f : FileSummary) : Scope where
  package := f.package
  singles := .ofList
    ((f.imports.filter fun i => (wildcardOf i).isNone).map
      fun i => (Platform.simpleName i, i))
  wildcards := f.imports.filterMap wildcardOf

/- The name that a type of the package has. -/
def inPackage
    (package : Option String)
    (name : String) : String :=
  match package with
  | none => name
  | some p => if p.isEmpty then name else p ++ "." ++ name

end Scope

------------------------------------------------------------
-- Declared Types
------------------------------------------------------------

/- A type of the project, with the scope of its file. -/
structure DeclaredType where
  summary : TypeSummary
  scope : Scope

/- The types of a project by qualified name. -/
structure Names where
  types : Table String DeclaredType

namespace Names

/- The types of files; of two with one name the later counts. -/
def ofFiles
    (files : List FileSummary) : Names :=
  ⟨.ofList (files.flatMap fun f =>
    let scope := Scope.ofFile f
    f.types.map fun t => (t.fqn, ⟨t, scope⟩))⟩

/- Whether the project declares a type. -/
def declares
    (n : Names)
    (name : String) : Bool :=
  n.types.contains name

/- The scope of a type of the project. -/
def scopeOf
    (n : Names)
    (owner : Option String) : Option Scope :=
  owner.bind fun o =>
    if o.isEmpty then none else (n.types.get? o).map (·.scope)

------------------------------------------------------------
-- Simple Names
------------------------------------------------------------

/-
  The types of the project around a type, from the inside: the
  type itself, then the ones that it is nested in.
-/
def enclosing
    (n : Names)
    (unseen : List String)
    (owner : Option String) : List String :=
  match owner with
  | none => []
  | some o =>
      if _known : o ∈ unseen ∧ o ≠ "" then
        o :: enclosing n (unseen.erase o)
          ((n.types.get? o).bind (·.summary.outer))
      else
        []
termination_by unseen.length
decreasing_by
  have := List.length_erase_of_mem _known.1
  have := List.length_pos_of_mem _known.1
  omega

/- The types around a type. -/
def scopes
    (n : Names)
    (owner : Option String) : List String :=
  n.enclosing n.types.keys owner

/- A name that is nested in a type around the owner. -/
def nested?
    (n : Names)
    (name : String)
    (owner : Option String) : Option String :=
  ((n.scopes owner).map (· ++ "." ++ name)).find? n.declares

/- A name that is imported as such. -/
def imported?
    (n : Names)
    (name : String)
    (owner : Option String) : Option String :=
  (n.scopeOf owner).bind (·.singles.get? name)

/- A name of the owner's package. -/
def neighbour?
    (n : Names)
    (name : String)
    (owner : Option String) : Option String :=
  let full := Scope.inPackage
    ((n.scopeOf owner).bind (·.package)) name
  if n.declares full then some full else none

/- The first type of the project that has a simple name. -/
def anywhere?
    (n : Names)
    (name : String) : Option String :=
  (sortNames n.types.keys).find?
    (Text.endsWith · ("." ++ name))

/- A type of the platform that is visible everywhere. -/
def lang?
    (name : String) : Option String :=
  (Platform.names.get? name).filter fun full =>
    Platform.packageOf full == some Platform.langPackage

/- A type of the platform in a package imported as a whole. -/
def wildcard?
    (n : Names)
    (name : String)
    (owner : Option String) : Option String :=
  let wildcards := ((n.scopeOf owner).map (·.wildcards)).getD []
  (wildcards.map (· ++ "." ++ name)).find? Platform.isKnown

/- A name without a dot; the first rule that applies counts. -/
def simple?
    (n : Names)
    (name : String)
    (owner : Option String) : Option String :=
  n.nested? name owner
    <|> n.imported? name owner
    <|> n.neighbour? name owner
    <|> n.anywhere? name
    <|> lang? name
    <|> n.wildcard? name owner

------------------------------------------------------------
-- Names
------------------------------------------------------------

/- The types that are no classes. -/
def primitives : List String :=
  ["byte", "short", "int", "long", "float", "double", "boolean",
    "char", "void", "var"]

/- A type without the marks of arrays. -/
def element
    (name : String) : String :=
  Text.deleteAll (Text.deleteAll name "[]") "..."

/- Whether a name is the qualified name of a known type. -/
def isQualified
    (n : Names)
    (name : String) : Bool :=
  n.declares name || Platform.isKnown name

/- The first part of a name with dots. -/
def resolveHead
    (n : Names)
    (name : String)
    (owner : Option String) : Option String :=
  let base := element name
  if name.isEmpty || primitives.contains base then
    none
  else if n.isQualified base then
    some base
  else
    n.simple? base owner

/-
  The qualified name of a type that is named in the body or the
  head of a type. A name with dots whose first letter is small
  starts with a package and stays as it is; any other such name
  is a type nested in the type before its first dot.
-/
def resolve
    (n : Names)
    (name : String)
    (owner : Option String) : Option String :=
  let base := element name
  if name.isEmpty || primitives.contains base then
    none
  else if n.isQualified base then
    some base
  else
    match Text.cutFirst '.' base with
    | none => n.simple? base owner
    | some (head, rest) =>
        if Text.startsLower head then
          some base
        else
          match n.resolveHead head owner with
          | none => none
          | some outer =>
              let full := outer ++ "." ++ rest
              if !outer.isEmpty && n.declares full then
                some full
              else
                none

/- The qualified name of a type, if it is not empty. -/
def resolve?
    (n : Names)
    (name : String)
    (owner : Option String) : Option String :=
  (n.resolve name owner).filter (!·.isEmpty)

/-
  The qualified name of an exception. A name that cannot be
  resolved stays as it is and counts as an unknown class.
-/
def resolveException
    (n : Names)
    (name : String)
    (owner : Option String) : String :=
  (n.resolve? name owner).getD name

end Names

end Uncaught
