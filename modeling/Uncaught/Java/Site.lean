import Uncaught.Java.Tree

/-
  This file defines the sites of a body: the nodes that say
  something about exceptions, each with the types that the try
  statements around it catch.

  Key definitions include:
    * `Java.Site`
    * `Java.caughtTypes`
    * `Java.Tree.sites`
    * `Java.sitesOf`
-/

namespace Uncaught

namespace Java

------------------------------------------------------------
-- Sites
------------------------------------------------------------

/-
  A node with its place and the types caught around it, the
  ones of the outermost try statement first.
-/
structure Site where
  form : Form
  span : Span
  handlers : List Span
  deriving DecidableEq, Repr

/- Whether a node of this form is a site. -/
def Form.isSite : Form → Bool
  | .trying => false
  | .catching => false
  | .finishing => false
  | .lambda => false
  | .nested => false
  | _ => true

/- Whether a node is a clause of a try statement. -/
def Tree.isClause
    (t : Tree) : Bool :=
  match t.form with
  | .catching => true
  | .finishing => true
  | _ => false

/- The types of a node that is the parameter of a catch clause. -/
def parameterTypes : Tree → List Span
  | .node (.caught types _) _ _ => types
  | _ => []

/- The types that a node catches if it is a catch clause. -/
def clauseTypes : Tree → List Span
  | .node .catching _ children => children.flatMap parameterTypes
  | _ => []

/-
  The types caught by the clauses among the children of a try
  statement, in order and with repetitions.
-/
def caughtTypes
    (children : List Tree) : List Span :=
  children.flatMap clauseTypes

------------------------------------------------------------
-- Walk
------------------------------------------------------------

mutual

/-
  The sites of a node, given the types caught around it: the
  node before the nodes inside it, and these from the last to
  the first. A try statement catches around its block and its
  resources, not around its clauses. The body of a lambda runs
  when the statements around it are left, so nothing is caught
  around it. Nested types have bodies of their own.
-/
def Tree.sites
    (handlers : List Span) : Tree → List Site
  | .node form span children =>
      match form with
      | .nested => []
      | .trying =>
          Tree.sitesAmong handlers
            (handlers ++ caughtTypes children) children
      | .lambda => Tree.sitesAmong [] [] children
      | form =>
          let inner := Tree.sitesAmong handlers handlers children
          if form.isSite then
            ⟨form, span, handlers⟩ :: inner
          else
            inner

/-
  The sites of nodes from the last to the first, given the
  types caught around the clauses among them and around the
  other ones.
-/
def Tree.sitesAmong
    (outer inner : List Span) : List Tree → List Site
  | [] => []
  | t :: ts =>
      Tree.sitesAmong outer inner ts
        ++ t.sites (if t.isClause then outer else inner)

end

/- The sites of a body. -/
def sitesOf
    (body : List Tree) : List Site :=
  Tree.sitesAmong [] [] body

end Java

end Uncaught
