import Uncaught.Java.Parse
import Uncaught.Java.Site
import Uncaught.Java.TypeText
import Uncaught.Summary
import Uncaught.Text.Cut

/-
  This file defines the summary of a compilation unit.

  Key definitions include:
    * `Java.Outline`
    * `Java.statementsAt`
    * `Java.methodOutline`
    * `Java.memberOutline`
    * `Java.typeOutline`
    * `Java.CompilationUnit.summary`
-/

namespace Uncaught

namespace Java

------------------------------------------------------------
-- Texts
------------------------------------------------------------

/- The texts of some stretches. -/
def texts
    (src : Source)
    (spans : List Span) : Except TextError (List String) :=
  spans.mapM src.text

/- The plain form of the type at a stretch. -/
def typeAt
    (src : Source)
    (span : Span) : Except TextError String :=
  plainType <$> src.text span

/- The plain forms of the types at some stretches. -/
def typesAt
    (src : Source)
    (spans : List Span) : Except TextError (List String) :=
  spans.mapM (typeAt src)

/- The text of a stretch that may be missing. -/
def textAt?
    (src : Source)
    (read : String → String) :
    Option Span → Except TextError (Option String)
  | none => .ok none
  | some span => (some ∘ read) <$> src.text span

------------------------------------------------------------
-- Statements
------------------------------------------------------------

/- A statement at a stretch of the body of a method. -/
def statementAt
    (src : Source)
    (owner : String)
    (span : Span)
    (kind : StatementKind)
    (parts : Parts) : Statement where
  kind := some kind
  owner := some owner
  parts := some parts
  range := some ⟨span.start, span.stop⟩
  line := some (src.lineAt span.start)

/-
  The type of a declared variable. One declared with `var` has
  the type that its value creates, if it creates one.
-/
def variableType
    (src : Source)
    (type : String)
    (v : Variable) : Except TextError String :=
  match v.created with
  | some created =>
      if type == "var" then typeAt src created else .ok type
  | none => .ok type

/-
  The statements of a site: one for each variable that it
  declares, and one for any other site.
-/
def statementsAt
    (src : Source)
    (owner : String)
    (site : Site) : Except TextError (List Statement) :=
  let make := statementAt src owner site.span
  match site.form with
  | .locals type vars => do
      let type ← typeAt src type
      vars.mapM fun v => do
        let name ← src.text v.name
        let type ← variableType src type v
        return make .declare
          { name := some name, type := some (some type) }
  | .loop type name => do
      let name ← src.text name
      let type ← typeAt src type
      return [make .declare
        { name := some name, type := some (some type) }]
  | .caught types name => do
      let types ← typesAt src types
      let name ← src.text name
      return types.head?.toList.map fun type =>
        make .declare
          { name := some name, type := some (some type) }
  | .creation type arity => do
      let type ← typeAt src type
      let handlers ← typesAt src site.handlers
      return [make .create
        { type := some (some type)
          arity := some arity
          handlers := some handlers }]
  | .construction target arity => do
      let target ← src.text target
      let handlers ← typesAt src site.handlers
      return [make .construct
        { target := some target
          arity := some arity
          handlers := some handlers }]
  | .call receiver name arity => do
      let recv ← textAt? src Text.trim receiver
      let name ← src.text name
      let handlers ← typesAt src site.handlers
      return [make .call
        { recv := some recv
          name := some name
          arity := some arity
          handlers := some handlers }]
  | .throwing created named => do
      let type ← textAt? src plainType created
      let var ← textAt? src id named
      return [make .throwing
        { type := some type, var := some var }]
  | _ => .ok []

------------------------------------------------------------
-- Outlines
------------------------------------------------------------

/- What the declarations of a unit add to its summary. -/
structure Outline where
  types : List TypeSummary := []
  methods : List MethodSummary := []
  fields : List FieldSummary := []
  statements : List Statement := []

namespace Outline

/- Two outlines one after the other. -/
def append
    (a b : Outline) : Outline where
  types := a.types ++ b.types
  methods := a.methods ++ b.methods
  fields := a.fields ++ b.fields
  statements := a.statements ++ b.statements

instance : Append Outline :=
  ⟨append⟩

/- The outline of a type, given that of its members. -/
def within
    (members : Outline)
    (type : TypeSummary) : Outline :=
  { members with types := type :: members.types }

end Outline

/- The lines of a stretch. -/
def lineRange
    (src : Source)
    (span : Span) : LineRange :=
  let (first, last) := src.lines span
  ⟨first, last⟩

/- The type of a parameter; a variadic one takes an array. -/
def parameterType
    (src : Source)
    (p : Parameter) : Except TextError String := do
  let type ← typeAt src p.type
  return if p.variadic then type ++ "[]" else type

/- The name under which statements refer to their method. -/
def methodKey
    (owner name : String)
    (params : List String) : String :=
  owner ++ "#" ++ name ++ "(" ++ Text.join "," params ++ ")"

/-
  The declaration of a parameter, which stands where its method
  starts. The variable holds an element of an array.
-/
def parameterStatement
    (sig : String)
    (start : Nat)
    (type name : String) : Statement where
  kind := some .declare
  owner := some sig
  parts := some
    { name := some name
      type := some (some (Text.deleteAll type "[]")) }
  range := some ⟨start, start⟩

/- The name of a method; all constructors have one name. -/
def methodName
    (src : Source) : Option Span → Except TextError String
  | some span => src.text span
  | none => .ok "<init>"

/- What a method of a type adds. -/
def methodOutline
    (src : Source)
    (owner : String)
    (m : MethodTree) : Except TextError Outline := do
  let name ← methodName src m.name
  let params ← m.parameters.mapM (parameterType src)
  let names ← texts src (m.parameters.map Parameter.name)
  let throws ← typesAt src m.throws
  let sig := methodKey owner name params
  let sites ← (sitesOf m.body).mapM (statementsAt src sig)
  return {
    methods := [
      { owner := some owner
        name := some name
        sig := some sig
        params := some params
        throws := some throws
        isConstructor := some m.name.isNone
        lines := some (lineRange src m.span) }]
    statements :=
      List.zipWith (parameterStatement sig m.span.start)
        params names ++ sites.flatten }

/- The word for a kind of types. -/
def TypeKind.word : TypeKind → String
  | .plainClass => "class"
  | .interface => "interface"
  | .enum => "enum"
  | .record => "record"

/-
  The qualified name of a type, given the type around it, if
  there is one, and the package. A name that is missing or empty
  is left out, and the package counts only outside of all types.
-/
def qualifiedName
    (package outer : Option String)
    (name : String) : String :=
  match (outer.filter (!·.isEmpty)) <|>
      package.filter (!·.isEmpty) with
  | some around => around ++ "." ++ name
  | none => name

/- The summary of a type. -/
def typeSummary
    (src : Source)
    (package outer : Option String)
    (head : TypeHead) : Except TextError TypeSummary := do
  let name ← src.text head.name
  let extended ← typesAt src head.extended
  let implemented ← typesAt src head.implemented
  return {
    kind := some head.kind.word
    name := some name
    fqn := qualifiedName package outer name
    outer := outer
    extended := some extended
    implemented := some implemented
    isInterface := head.kind == .interface
    lines := some (lineRange src head.span) }

/- The summary of a field. -/
def fieldSummary
    (owner type name : String) : FieldSummary where
  owner := some owner
  name := some name
  type := some type

mutual

/- What a member of a type adds, given the package. -/
def memberOutline
    (src : Source)
    (package : Option String)
    (owner : String) : Member → Except TextError Outline
  | .method m => methodOutline src owner m
  | .fields type names => do
      let type ← typeAt src type
      let names ← texts src names
      return { fields := names.map (fieldSummary owner type) }
  | .type head members => do
      let summary ← typeSummary src package (some owner) head
      let inner ←
        membersOutline src package summary.fqn members
      return inner.within summary

/- What the members of a type add, one after the other. -/
def membersOutline
    (src : Source)
    (package : Option String)
    (owner : String) :
    List Member → Except TextError Outline
  | [] => .ok {}
  | m :: ms => do
      let first ← memberOutline src package owner m
      let others ← membersOutline src package owner ms
      return first ++ others

end

/- What a type adds that stands in no other type. -/
def typeOutline
    (src : Source)
    (package : Option String)
    (t : TypeTree) : Except TextError Outline := do
  let summary ← typeSummary src package none t.head
  let inner ← membersOutline src package summary.fqn t.members
  return inner.within summary

------------------------------------------------------------
-- Summaries
------------------------------------------------------------

/- The name that an import stands for. -/
def importName
    (src : Source)
    (i : Import) : Except TextError String := do
  let name := Text.trim (← src.text i.name)
  return if i.onDemand then name ++ ".*" else name

/- The summary of a compilation unit. -/
def CompilationUnit.summary
    (src : Source)
    (path : String)
    (unit : CompilationUnit) : Except TextError FileSummary := do
  let package ← textAt? src Text.trim unit.package
  let imports ← unit.imports.mapM (importName src)
  let outlines ← unit.types.mapM (typeOutline src package)
  let outline : Outline := outlines.foldr (· ++ ·) {}
  return {
    path
    package
    imports
    types := outline.types
    methods := some outline.methods
    fields := outline.fields
    statements := some outline.statements }

/- Why a source has no summary. -/
inductive SourceError where
  | malformed
  | text (e : TextError)
  deriving DecidableEq, Repr

/- The summary of a source. -/
def Source.summary
    (src : Source)
    (path : String) : Except SourceError FileSummary :=
  match src.parse with
  | none => .error .malformed
  | some unit => (unit.summary src path).mapError .text

end Java

end Uncaught
