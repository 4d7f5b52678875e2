import Uncaught.Java.Source

/-
  This file defines the syntax trees of Java sources, as far
  as exceptions need them. A tree of a body keeps the nodes
  that declare, create, call, throw, catch or delimit; all
  other syntax leaves only the nodes inside it, in order.

  Key definitions include:
    * `Java.Form`
    * `Java.Tree`
    * `Java.MethodTree`
    * `Java.TypeHead`
    * `Java.Member`
    * `Java.TypeTree`
    * `Java.CompilationUnit`
-/

namespace Uncaught

namespace Java

------------------------------------------------------------
-- Bodies
------------------------------------------------------------

/-
  A declared variable: its name, and the type that its value
  creates, if the value is an object creation.
-/
structure Variable where
  name : Span
  created : Option Span
  deriving DecidableEq, Repr

/- What a node of a body is. -/
inductive Form where
  /- a declaration of local variables of one type -/
  | locals (type : Span) (vars : List Variable)
  /- a loop over the elements of a collection -/
  | loop (type name : Span)
  /- the parameter of a catch clause -/
  | caught (types : List Span) (name : Span)
  /- the creation of an object -/
  | creation (type : Span) (arity : Nat)
  /- a call of another constructor of this or the super class -/
  | construction (target : Span) (arity : Nat)
  /- a method call -/
  | call (receiver : Option Span) (name : Span) (arity : Nat)
  /- a throw of a new object, of a variable, or of neither -/
  | throwing (created named : Option Span)
  /- a try statement -/
  | trying
  /- a catch clause -/
  | catching
  /- a finally clause -/
  | finishing
  /- a lambda expression -/
  | lambda
  /- a class body or type declaration inside a body -/
  | nested
  deriving DecidableEq, Repr

/- A node of a body with the nodes inside it, in order. -/
inductive Tree where
  | node (form : Form) (span : Span) (children : List Tree)
  deriving Repr

namespace Tree

/- What a node is. -/
def form : Tree → Form
  | node form _ _ => form

/- The stretch of the source that a node covers. -/
def span : Tree → Span
  | node _ span _ => span

/- The nodes inside a node. -/
def children : Tree → List Tree
  | node _ _ children => children

end Tree

------------------------------------------------------------
-- Declarations
------------------------------------------------------------

/-
  A parameter with the place of its type and of its name; a
  variadic one takes an array.
-/
structure Parameter where
  type : Span
  name : Span
  variadic : Bool
  deriving DecidableEq, Repr

/-
  A method, or a constructor if it has no name of its own,
  with the nodes of its body.
-/
structure MethodTree where
  span : Span
  name : Option Span
  parameters : List Parameter
  throws : List Span
  body : List Tree
  deriving Repr

/- The kinds of types. -/
inductive TypeKind where
  | plainClass
  | interface
  | enum
  | record
  deriving DecidableEq, Repr

/- The head of a type declaration, and its place. -/
structure TypeHead where
  kind : TypeKind
  name : Span
  extended : List Span
  implemented : List Span
  span : Span
  deriving DecidableEq, Repr

/- A member of a type: a method, fields, or a type. -/
inductive Member where
  | method (m : MethodTree)
  | fields (type : Span) (names : List Span)
  | type (head : TypeHead) (members : List Member)
  deriving Repr

/- A type with its members. -/
structure TypeTree where
  head : TypeHead
  members : List Member
  deriving Repr

/- The type that a member is. -/
def Member.type? : Member → Option TypeTree
  | type head members => some ⟨head, members⟩
  | _ => none

------------------------------------------------------------
-- Compilation Units
------------------------------------------------------------

/- An import of a type, or of all types of a package. -/
structure Import where
  name : Span
  onDemand : Bool
  deriving DecidableEq, Repr

/-
  A compilation unit. Imports of static members are left out,
  since they name no types.
-/
structure CompilationUnit where
  package : Option Span
  imports : List Import
  types : List TypeTree
  deriving Repr

end Java

end Uncaught
