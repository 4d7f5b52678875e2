import Uncaught.Java.Grammar.Reader
import Uncaught.Java.Tree

/-
  This file defines what the readers of the parts of a Java
  source share. Expressions, types, statements and bodies can
  hold each other, so the readers of each of them are written
  over a `Grammar` that reads the parts inside.

  Key definitions include:
    * `Java.Shape`
    * `Java.Expression`
    * `Java.Body`
    * `Java.Grammar`
-/

namespace Uncaught

namespace Java

------------------------------------------------------------
-- Results
------------------------------------------------------------

/-
  What an expression is as a whole, where that matters: the
  creation of an object, a name, or the call of a constructor
  with its number of arguments.
-/
inductive Shape where
  | creation (type : Span)
  | name (span : Span)
  | construction (target : Span) (arity : Nat)
  | other
  deriving DecidableEq, Repr

/- An expression: its shape and the nodes inside it. -/
structure Expression where
  shape : Shape
  trees : List Tree

/- A type body: its members and the nodes inside it. -/
structure Body where
  members : List Member
  trees : List Tree

/- The empty body. -/
def Body.empty : Body :=
  ⟨[], []⟩

/- Bodies one after the other. -/
def Body.concat
    (parts : List Body) : Body :=
  ⟨parts.flatMap Body.members, parts.flatMap Body.trees⟩

------------------------------------------------------------
-- Grammars
------------------------------------------------------------

/- Readers of the parts that can hold each other. -/
structure Grammar where
  /- an expression -/
  expression : Reader Expression
  /- a type, and the nodes inside its annotations -/
  type : Reader (List Tree)
  /- the value of an element of an annotation -/
  element : Reader (List Tree)
  /- a statement, and the nodes inside it -/
  statement : Reader (List Tree)
  /- the members of a type, without the braces around them -/
  members : Reader Body

/- The grammar that reads nothing. -/
def Grammar.nothing : Grammar where
  expression := failure
  type := failure
  element := failure
  statement := failure
  members := failure

end Java

end Uncaught
