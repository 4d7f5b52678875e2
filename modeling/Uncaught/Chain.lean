import Uncaught.Signature

/-
  This file defines chains: the methods that an exception passes
  on its way up from the method that throws it.

  Key definitions include:
    * `Entry`
    * `Chain`
    * `Chain.methods`
    * `Chain.handledIndex`
    * `Chain.escapes`
    * `Chain.toJson`
-/

namespace Uncaught

------------------------------------------------------------
-- Chains
------------------------------------------------------------

/- A caller, and whether it handles the exception. -/
structure Entry where
  method : Signature
  handled : Bool := false
  deriving DecidableEq, Repr

/-
  A method that throws, the callers above it, the nearest
  first, and the exception.
-/
structure Chain where
  source : Signature
  entries : List Entry := []
  exception : Option String := none
  deriving DecidableEq, Repr

namespace Chain

/- The methods of a chain, from the one that throws. -/
def methods
    (c : Chain) : List Signature :=
  c.source :: c.entries.map Entry.method

/- The place of the first caller that handles the exception. -/
def handledIndex
    (c : Chain) : Option Nat :=
  c.entries.findIdx? Entry.handled

/- Whether no caller handles the exception. -/
def escapes
    (c : Chain) : Bool :=
  c.handledIndex.isNone

/- A chain as a JSON value. -/
def toJson
    (c : Chain) : Json :=
  .obj [
    ("throw_from", .str c.source.text),
    ("exception", .ofOption c.exception),
    ("chain", .arr (c.entries.map fun e =>
      .obj [
        ("method", .str e.method.text),
        ("handled", .bool e.handled)])),
    ("escapes", .bool c.escapes)]

end Chain

end Uncaught
