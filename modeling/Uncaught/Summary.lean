/-
  This file defines the summary of a Java file: its package,
  imports, types, fields and methods, and what the bodies of
  its methods do. A summary may come from outside, so what is
  not needed to tell its types apart can be missing; a reader
  that needs a missing part fails with the name of its key.

  Key definitions include:
    * `MissingKey`
    * `need`
    * `TypeSummary`
    * `MethodSummary`
    * `FieldSummary`
    * `Parts`
    * `Statement`
    * `FileSummary`
-/

namespace Uncaught

------------------------------------------------------------
-- Missing Keys
------------------------------------------------------------

/- A key was needed and is not there. -/
structure MissingKey where
  key : String
  deriving DecidableEq, Repr

/- A part of a record that has to be there. -/
def need
    {α : Type}
    (key : String) : Option α → Except MissingKey α
  | some a => .ok a
  | none => .error ⟨key⟩

------------------------------------------------------------
-- Declarations
------------------------------------------------------------

/- The first and the last line of something. -/
structure LineRange where
  first : Int
  last : Int
  deriving DecidableEq, Repr

/- A declared type. -/
structure TypeSummary where
  kind : Option String := none
  name : Option String := none
  fqn : String
  outer : Option String := none
  extended : Option (List String) := none
  implemented : Option (List String) := none
  isInterface : Bool := false
  lines : Option LineRange := none
  deriving DecidableEq, Repr

/- A declared method or constructor. -/
structure MethodSummary where
  owner : Option String := none
  name : Option String := none
  sig : Option String := none
  params : Option (List String) := none
  throws : Option (List String) := none
  isConstructor : Option Bool := none
  lines : Option LineRange := none
  deriving DecidableEq, Repr

/- A declared field. -/
structure FieldSummary where
  owner : Option String := none
  name : Option String := none
  type : Option String := none
  deriving DecidableEq, Repr

------------------------------------------------------------
-- Statements
------------------------------------------------------------

/- What a statement does. -/
inductive StatementKind where
  | declare
  | create
  | construct
  | call
  | throwing
  deriving DecidableEq, Repr

/-
  The parts of a statement. A kind of statement has some of
  them: a declaration `type` and `name`; a creation `type`,
  `arity` and `handlers`; a constructor call `target`, `arity`
  and `handlers`; a call `recv`, `name`, `arity` and
  `handlers`; a throw `type` and `var`.
-/
structure Parts where
  type : Option (Option String) := none
  name : Option String := none
  var : Option (Option String) := none
  arity : Option Int := none
  target : Option String := none
  recv : Option (Option String) := none
  handlers : Option (List String) := none
  deriving DecidableEq, Repr

/- The place of a statement, in bytes. -/
structure ByteRange where
  start : Int
  stop : Int
  deriving DecidableEq, Repr

/- A statement of the body of a method. -/
structure Statement where
  kind : Option StatementKind := none
  owner : Option String := none
  parts : Option Parts := none
  range : Option ByteRange := none
  line : Option Int := none
  deriving DecidableEq, Repr

------------------------------------------------------------
-- Files
------------------------------------------------------------

/- The summary of a file. -/
structure FileSummary where
  path : String
  package : Option String := none
  imports : List String := []
  types : List TypeSummary := []
  methods : Option (List MethodSummary) := none
  fields : List FieldSummary := []
  statements : Option (List Statement) := none
  deriving DecidableEq, Repr

end Uncaught
