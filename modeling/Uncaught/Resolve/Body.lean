import Uncaught.Facts
import Uncaught.Log
import Uncaught.Resolve.Lookup

/-
  This file defines how the statements of a method body are
  resolved to the calls and throws of the method.

  Key definitions include:
    * `Frame`
    * `Frame.receiver?`
    * `Frame.target?`
    * `Frame.thrown?`
    * `BodyResult`
    * `Frame.run`
-/

namespace Uncaught

open Symbols (Target)

------------------------------------------------------------
-- Frames
------------------------------------------------------------

/-
  What a method body sees: the symbols of the project, the type
  that the method belongs to, and the types of the variables.
-/
structure Frame where
  symbols : Symbols
  owner : String
  locals : Table String String

namespace Frame

/- The superclass of the type that the method belongs to. -/
def parent?
    (f : Frame) : Option String :=
  f.symbols.links.parents.get? f.owner

/- The types of the fields of the type. -/
def fields
    (f : Frame) : Table String String :=
  (f.symbols.links.fields.get? f.owner).getD .empty

/- The type of a name in the body. -/
def type?
    (f : Frame)
    (name : String) : Option String :=
  f.symbols.names.resolve? name (some f.owner)

/- The class of an exception in the body. -/
def exceptionClass
    (f : Frame)
    (name : String) : String :=
  f.symbols.names.resolveException name (some f.owner)

/- The frame of a method before its declarations. -/
def start
    (symbols : Symbols)
    (owner : String) : Frame :=
  let this : Table String String := Table.empty.insert "this" owner
  { symbols
    owner
    locals := match symbols.links.parents.get? owner with
      | some parent => this.insert "super" parent
      | none => this }

/- Add the variable of a declaration, if its type is known. -/
def declare
    (f : Frame)
    (s : Statement) : Except MissingKey Frame := do
  if (← need "kind" s.kind) = .declare then
    let parts ← need "parts" s.parts
    let type ← need "type" parts.type
    match f.type? (type.getD "") with
    | none => return f
    | some type =>
        let name ← need "name" parts.name
        return { f with locals := f.locals.insert name type }
  else
    return f

------------------------------------------------------------
-- Calls
------------------------------------------------------------

/- The part of a receiver before its first dot. -/
def headOf
    (recv : String) : String :=
  match Text.cutFirst '.' recv with
  | some (head, _) => head
  | none => recv

/- The field that a receiver names with `this`. -/
def ownField?
    (f : Frame)
    (recv : String) : Option String :=
  if Text.startsWith recv "this." then
    f.fields.get? (String.ofList (recv.toList.drop 5))
  else
    none

/-
  Whether a receiver starts with an object: the type of what
  follows is then not known.
-/
def isObject
    (f : Frame)
    (recv : String) : Bool :=
  Text.hasChar recv '('
    || f.locals.contains (headOf recv)
    || f.fields.contains (headOf recv)

/-
  The type of the receiver of a call. A call without a receiver
  is a call on `this`; a single word that is no variable is a
  type if it starts with a capital letter.
-/
def receiver?
    (f : Frame)
    (recv : Option String) : Option String :=
  match recv with
  | none => some f.owner
  | some "" => some f.owner
  | some "this" => some f.owner
  | some "super" => f.parent?
  | some recv =>
      f.locals.get? recv
        <|> f.fields.get? recv
        <|> f.ownField? recv
        <|> if f.isObject recv then
          none
        else if !Text.hasChar recv '.'
            && !Text.startsUpper recv then
          none
        else
          f.type? recv

/- The constructor of a class that may not be known. -/
def constructorOf?
    (f : Frame)
    (type : Option String)
    (arity : Int) : Except MissingKey (Option Target) :=
  match type.filter (!·.isEmpty) with
  | some type => f.symbols.constructor? type arity
  | none => .ok none

/- What a statement that calls something runs. -/
def target?
    (f : Frame)
    (kind : StatementKind)
    (parts : Parts) : Except MissingKey (Option Target) := do
  let arity ← need "arity" parts.arity
  match kind with
  | .create =>
      let type ← need "type" parts.type
      f.constructorOf? (f.type? (type.getD "")) arity
  | .construct =>
      let target ← need "target" parts.target
      let type := if target = "super" then
          f.parent?
        else
          some f.owner
      f.constructorOf? type arity
  | _ =>
      let recv ← need "recv" parts.recv
      match (f.receiver? recv).filter (!·.isEmpty) with
      | none => return none
      | some type =>
          let name ← need "name" parts.name
          return f.symbols.method? type name arity

------------------------------------------------------------
-- Throws
------------------------------------------------------------

/- The class of what a statement throws. -/
def thrown?
    (f : Frame)
    (parts : Parts) : Except MissingKey (Option String) := do
  match (← need "type" parts.type).filter (!·.isEmpty) with
  | some type => return some (f.exceptionClass type)
  | none =>
      let var ← need "var" parts.var
      let class? := (var.filter (!·.isEmpty)).bind f.locals.get?
      return class?.filter (!·.isEmpty)

end Frame

------------------------------------------------------------
-- Bodies
------------------------------------------------------------

/-
  What is known after some statements: the facts of the method,
  the methods outside of the project that it calls, how many
  calls are not resolved, and what was reported.
-/
structure BodyResult where
  facts : MethodFacts
  externals : List Signature := []
  unresolved : Nat := 0
  events : List Event := []

namespace BodyResult

/- Add a call. -/
def addCall
    (r : BodyResult)
    (t : Target)
    (handlers : List String) : BodyResult :=
  { r with facts := r.facts.addCall t.signature handlers }

/- Note a method outside of the project. -/
def noteExternal
    (r : BodyResult) : Target → BodyResult
  | .declared _ => r
  | .external s => { r with externals := r.externals ++ [s] }

end BodyResult

namespace Frame

/- Add what a statement does. -/
def step
    (f : Frame)
    (r : BodyResult)
    (s : Statement) : Except MissingKey BodyResult := do
  let kind ← need "kind" s.kind
  let parts ← need "parts" s.parts
  match kind with
  | .declare => return r
  | .throwing =>
      match ← f.thrown? parts with
      | some c => return { r with facts := r.facts.addThrow c }
      | none =>
          let event := .unresolvedThrow r.facts.signature s.line
          return { r with events := r.events ++ [event] }
  | kind =>
      match ← f.target? kind parts with
      | some t =>
          let handlers ← need "handlers" parts.handlers
          return (r.noteExternal t).addCall t
            (handlers.map f.exceptionClass)
      | none =>
          let event := .unresolvedCall r.facts.signature s.line
          return { r with
            unresolved := r.unresolved + 1
            events := r.events ++ [event] }

/- Statements in the order of their places. -/
def ordered
    (statements : List Statement) :
    Except MissingKey (List Statement) := do
  let placed ← statements.mapM fun s => do
    return ((← need "range" s.range).start, s)
  return (placed.mergeSort fun a b => decide (a.1 ≤ b.1)).map
    Prod.snd

/-
  The calls and throws of a method body. The variables of all
  its declarations are known in the whole body.
-/
def run
    (symbols : Symbols)
    (facts : MethodFacts)
    (statements : List Statement) :
    Except MissingKey BodyResult := do
  let statements ← ordered statements
  let frame ← statements.foldlM declare
    (start symbols facts.signature.owner)
  statements.foldlM frame.step { facts }

end Frame

end Uncaught
