import Uncaught.Json.Field
import Uncaught.Summary

/-
  This file defines summaries as JSON values, in both
  directions.

  Key definitions include:
    * `FileSummary.toJson`
    * `FileSummary.ofJson`
-/

namespace Uncaught

------------------------------------------------------------
-- Writing
------------------------------------------------------------

/- A field that is written if there is a value for it. -/
def present
    {α : Type}
    (key : String)
    (write : α → Json) : Option α → List (String × Json)
  | some a => [(key, write a)]
  | none => []

/- The two ends of a range of lines. -/
def LineRange.toJson
    (r : LineRange) : Json :=
  .arr [.int r.first, .int r.last]

/- A summary of a type as a value. -/
def TypeSummary.toJson
    (t : TypeSummary) : Json :=
  .obj (present "kind" .str t.kind
    ++ present "name" .str t.name
    ++ [("fqn", .str t.fqn), ("outer", .ofOption t.outer)]
    ++ present "extends" .strings t.extended
    ++ present "implements" .strings t.implemented
    ++ [("is_interface", .bool t.isInterface)]
    ++ present "line_range" LineRange.toJson t.lines)

/- A summary of a method as a value. -/
def MethodSummary.toJson
    (m : MethodSummary) : Json :=
  .obj (present "owner_fqn" .str m.owner
    ++ present "name" .str m.name
    ++ present "sig" .str m.sig
    ++ present "params" .strings m.params
    ++ present "throws" .strings m.throws
    ++ present "is_constructor" .bool m.isConstructor
    ++ present "line_range" LineRange.toJson m.lines)

/- A summary of a field as a value. -/
def FieldSummary.toJson
    (f : FieldSummary) : Json :=
  .obj (present "owner_fqn" .str f.owner
    ++ present "name" .str f.name
    ++ present "type" .str f.type)

/- The word for a kind of statements. -/
def StatementKind.word : StatementKind → String
  | .declare => "local"
  | .create => "new"
  | .construct => "ctor_call"
  | .call => "call"
  | .throwing => "throw"

/- The parts of a statement as a value. -/
def Parts.toJson
    (p : Parts) : Json :=
  .obj (present "type" .ofOption p.type
    ++ present "name" .str p.name
    ++ present "var" .ofOption p.var
    ++ present "arity" .int p.arity
    ++ present "target" .str p.target
    ++ present "recv" .ofOption p.recv
    ++ present "handlers" .strings p.handlers)

/- The two ends of a range of bytes. -/
def ByteRange.toJson
    (r : ByteRange) : Json :=
  .arr [.int r.start, .int r.stop]

/- A statement as a value. -/
def Statement.toJson
    (s : Statement) : Json :=
  .obj (present "kind" (.str ∘ StatementKind.word) s.kind
    ++ present "owner_method" .str s.owner
    ++ present "parts" Parts.toJson s.parts
    ++ present "range" ByteRange.toJson s.range
    ++ present "line" .int s.line)

/- A summary of a file as a value. -/
def FileSummary.toJson
    (f : FileSummary) : Json :=
  .obj [
    ("path", .str f.path),
    ("symbols", .obj (
      [("package", .ofOption f.package),
        ("imports", .strings f.imports),
        ("types", .arr (f.types.map TypeSummary.toJson))]
      ++ present "methods"
        (fun ms => .arr (ms.map MethodSummary.toJson)) f.methods
      ++ [("fields", .arr (f.fields.map FieldSummary.toJson))]
      ++ present "stmts"
        (fun ss => .arr (ss.map Statement.toJson))
        f.statements))]

------------------------------------------------------------
-- Reading
------------------------------------------------------------

/- Read a range of lines. -/
def LineRange.ofJson
    (v : Json) : Json.Read LineRange := do
  match ← Json.list Json.integer v with
  | [first, last] => return ⟨first, last⟩
  | _ => .error .wrongType

/- Read a summary of a type, of which only `fqn` is needed. -/
def TypeSummary.ofJson
    (v : Json) : Json.Read TypeSummary := do
  let fqn ← (← v.field "fqn").name
  return {
    kind := ← v.slot "kind" Json.name
    name := ← v.slot "name" Json.name
    fqn
    outer := (← v.slot "outer" Json.name?).join
    extended := ← v.slot "extends" Json.names
    implemented := ← v.slot "implements" Json.names
    isInterface := (← v.slot "is_interface" Json.truth).getD false
    lines := (← v.slot "line_range" (fun
      | .null => return none
      | r => some <$> LineRange.ofJson r)).join }

/- Read a summary of a method. -/
def MethodSummary.ofJson
    (v : Json) : Json.Read MethodSummary := do
  return {
    owner := ← v.slot "owner_fqn" Json.name
    name := ← v.slot "name" Json.name
    sig := ← v.slot "sig" Json.name
    params := ← v.slot "params" Json.names
    throws := ← v.slot "throws" Json.names
    isConstructor := ← v.slot "is_constructor" Json.truth }

/- Read a summary of a field. -/
def FieldSummary.ofJson
    (v : Json) : Json.Read FieldSummary := do
  return {
    owner := ← v.slot "owner_fqn" Json.name
    name := ← v.slot "name" Json.name
    type := ← v.slot "type" Json.name }

/-
  The kind of statements that a word stands for; every other
  word stands for a call.
-/
def StatementKind.ofWord : String → StatementKind
  | "local" => .declare
  | "new" => .create
  | "ctor_call" => .construct
  | "throw" => .throwing
  | _ => .call

/- Read the parts of a statement. -/
def Parts.ofJson
    (v : Json) : Json.Read Parts := do
  return {
    type := ← v.slot "type" Json.name?
    name := ← v.slot "name" Json.name
    var := ← v.slot "var" Json.name?
    arity := ← v.slot "arity" Json.integer
    target := ← v.slot "target" Json.name
    recv := ← v.slot "recv" Json.name?
    handlers := ← v.slot "handlers" Json.names }

/- Read a range of bytes, of which only the start is needed. -/
def ByteRange.ofJson
    (v : Json) : Json.Read ByteRange := do
  match ← Json.list Json.integer v with
  | [start] => return ⟨start, start⟩
  | start :: stop :: _ => return ⟨start, stop⟩
  | [] => .error .wrongType

/- Read a statement. -/
def Statement.ofJson
    (v : Json) : Json.Read Statement := do
  return {
    kind := (← v.slot "kind" Json.name).map StatementKind.ofWord
    owner := ← v.slot "owner_method" Json.name
    parts := ← v.slot "parts" Parts.ofJson
    range := ← v.slot "range" ByteRange.ofJson
    line := (← v.slot "line" (fun
      | .null => return none
      | n => some <$> n.integer)).join }

/-
  Read a summary of a file. Its symbols, package and types, and
  the names of these, are needed.
-/
def FileSummary.ofJson
    (v : Json) : Json.Read FileSummary := do
  let symbols ← v.field "symbols"
  let package ← (← symbols.field "package").name?
  let imports ← symbols.slot "imports" Json.names
  let types ← Json.list TypeSummary.ofJson
    (← symbols.field "types")
  return {
    path := ((← v.slot "path" Json.name).getD "")
    package
    imports := imports.getD []
    types
    methods := ← symbols.slot "methods"
      (Json.list MethodSummary.ofJson)
    fields := (← symbols.slot "fields"
      (Json.list FieldSummary.ofJson)).getD []
    statements := ← symbols.slot "stmts"
      (Json.list Statement.ofJson) }

end Uncaught
