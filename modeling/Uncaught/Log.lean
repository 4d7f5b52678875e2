import Uncaught.Signature

/-
  This file defines the events that an analysis reports while
  it runs, and the lines of a log that they make.

  Key definitions include:
    * `Level`
    * `Event`
    * `Event.level`
    * `Event.topic`
    * `Event.message`
    * `Event.line`
-/

namespace Uncaught

------------------------------------------------------------
-- Events
------------------------------------------------------------

/- How much an event matters. -/
inductive Level where
  | debug
  | info
  | warning
  deriving DecidableEq, Repr

/- Something that an analysis reports. -/
inductive Event where
  /- the files under a directory were read -/
  | parsed (files : Nat) (root : String)
  /- a throw or call of a method could not be resolved -/
  | unresolvedThrow (method : Signature) (line : Option Int)
  | unresolvedCall (method : Signature) (line : Option Int)
  /- the names of a project were resolved -/
  | resolved (classes methods externals unresolved : Nat)
  /- a class stands under itself, directly or not -/
  | selfInheritance (name : String)
  | inheritanceCycle (names : List String)
  /- the steps that make a call graph -/
  | factsCompleted (added : Nat)
  | classesLinked (classes : Nat)
  | callsCollected (edges : Nat)
  | callsDispatched (edges : Nat)
  | callersIndexed (nodes : Nat)
  | built (methods classes calls dispatches : Nat)
  deriving DecidableEq, Repr

namespace Event

------------------------------------------------------------
-- Lines
------------------------------------------------------------

/- How much an event matters. -/
def level : Event → Level
  | parsed .. => .info
  | resolved .. => .info
  | built .. => .info
  | selfInheritance .. => .warning
  | inheritanceCycle .. => .warning
  | _ => .debug

/- The part of the analysis that an event belongs to. -/
def topic : Event → String
  | parsed .. => "exception_graph.analyzer"
  | unresolvedThrow .. => "exception_graph.binding_resolver"
  | unresolvedCall .. => "exception_graph.binding_resolver"
  | resolved .. => "exception_graph.binding_resolver"
  | selfInheritance .. => "exception_graph.inheritance"
  | inheritanceCycle .. => "exception_graph.inheritance"
  | _ => "exception_graph.project_database"

/- A line number, where one is known. -/
def lineText : Option Int → String
  | some n => toString n
  | none => "None"

/- The text of an event. -/
def message : Event → String
  | parsed files root =>
      s!"Parsed {files} Java files under {root}"
  | unresolvedThrow method line =>
      let method := method.text
      let line := lineText line
      s!"Unresolved throw in {method} at line {line}"
  | unresolvedCall method line =>
      let method := method.text
      let line := lineText line
      s!"Unresolved call in {method} at line {line}"
  | resolved classes methods externals unresolved =>
      s!"Resolved {classes} classes, {methods} methods, "
        ++ s!"{externals} external methods "
        ++ s!"({unresolved} calls unresolved)"
  | selfInheritance name =>
      s!"Ignoring self-inheritance of {name}"
  | inheritanceCycle names =>
      "Inheritance cycle through " ++ Text.join ", " names
  | factsCompleted added =>
      s!"stage1: {added} methods synthesized from bindings"
  | classesLinked classes =>
      s!"stage2: inheritance graph over {classes} classes"
  | callsCollected edges =>
      s!"stage3: {edges} static call edges"
  | callsDispatched edges =>
      s!"stage4: {edges} devirtualized edges"
  | callersIndexed nodes =>
      s!"stage5: {nodes} nodes in dynamic call graph"
  | built methods classes calls dispatches =>
      s!"Built database: {methods} methods, "
        ++ s!"{classes} classes, {calls} call edges, "
        ++ s!"{dispatches} dispatch edges"

/- The word for a level. -/
def levelText : Level → String
  | .debug => "DEBUG"
  | .info => "INFO"
  | .warning => "WARNING"

/- The line that an event makes in a log. -/
def line
    (e : Event) : String :=
  levelText e.level ++ " " ++ e.topic ++ ": " ++ e.message

end Event

end Uncaught
