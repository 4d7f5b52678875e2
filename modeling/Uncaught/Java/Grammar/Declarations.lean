import Uncaught.Java.Grammar.Statements

/-
  This file defines the readers of type declarations and of
  their members, and of compilation units.

  Key definitions include:
    * `Java.Grammar.typeDeclaration`
    * `Java.Grammar.memberDeclaration`
    * `Java.Grammar.membersOf`
    * `Java.Grammar.statementOf`
    * `Java.Grammar.compilationUnit`
-/

namespace Uncaught

namespace Java

namespace Grammar

open Reader

------------------------------------------------------------
-- Type Declarations
------------------------------------------------------------

/- A declared type: the member it is, and the nodes inside it. -/
def declared
    (kind : TypeKind)
    (name : Span)
    (extended implemented : List Span)
    (body : Body)
    (span : Span) : Body :=
  ⟨[.type ⟨kind, name, extended, implemented, span⟩
    body.members], body.trees⟩

/- The types after a word, none if the word is not there. -/
def typesAfter
    (g : Grammar)
    (w : String) : Reader (List Span) := do
  let found ← maybe do
    let _ ← word w
    typeList g ","
  return found.getD []

/- A class after its modifiers. -/
def classDeclaration
    (g : Grammar) : Reader (Span → Body) := do
  let _ ← word "class"
  let named ← name
  let _ ← maybe (typeParameters g)
  let extended ← maybe do
    let _ ← word "extends"
    spanned g.type
  let implemented ← typesAfter g "implements"
  let _ ← typesAfter g "permits"
  let body ← classBody g
  return declared .plainClass named
    (extended.map Prod.snd).toList implemented body

/-
  An interface after its modifiers. The interfaces that it
  extends are the ones it stands under.
-/
def interfaceDeclaration
    (g : Grammar) : Reader (Span → Body) := do
  let _ ← word "interface"
  let named ← name
  let _ ← maybe (typeParameters g)
  let extended ← typesAfter g "extends"
  let _ ← typesAfter g "permits"
  let body ← classBody g
  return declared .interface named [] extended body

/- A constant of an enumeration, and the nodes inside it. -/
def enumConstant
    (g : Grammar) : Reader (List Tree) := do
  let before ← annotations g
  let _ ← name
  let args ← maybe (arguments g)
  let body ← maybe (classBody g)
  return before ++ (args.map Prod.snd).getD []
    ++ (body.map Body.trees).getD []

/- The body of an enumeration: its constants and its members. -/
def enumBody
    (g : Grammar) : Reader Body :=
  between "\x7b" "\x7d" do
    let constants ← listed (enumConstant g)
    let _ ← maybe (mark ",")
    let rest ← maybe do
      let _ ← mark ";"
      g.members
    let rest := rest.getD .empty
    return ⟨rest.members, constants.flatten ++ rest.trees⟩

/- An enumeration after its modifiers. -/
def enumDeclaration
    (g : Grammar) : Reader (Span → Body) := do
  let _ ← word "enum"
  let named ← name
  let implemented ← typesAfter g "implements"
  let body ← enumBody g
  return declared .enum named [] implemented body

/- A record after its modifiers. -/
def recordDeclaration
    (g : Grammar) : Reader (Span → Body) := do
  let _ ← word "record"
  let named ← name
  let _ ← maybe (typeParameters g)
  let _ ← parameters g
  let implemented ← typesAfter g "implements"
  let body ← classBody g
  return declared .record named [] implemented body

/- An annotation type, which declares nothing that counts. -/
def annotationType : Reader (Span → Body) := do
  let _ ← mark "@"
  let _ ← word "interface"
  let _ ← name
  balanced
  return fun _ => .empty

/-
  Whether a record is declared ahead, and not something named
  `record`.
-/
def atRecord : Reader Bool :=
  ahead [(·.isWord "record"), isName,
    fun t => t.isMark "(" || t.isMark "<"]

/- A type declaration after its modifiers. -/
def typeDeclaration
    (g : Grammar) : Reader (Span → Body) := do
  if ← atWord "class" then
    classDeclaration g
  else if ← atWord "interface" then
    interfaceDeclaration g
  else if ← atWord "enum" then
    enumDeclaration g
  else if ← atMark "@" then
    annotationType
  else
    require (← atRecord)
    recordDeclaration g

------------------------------------------------------------
-- Members
------------------------------------------------------------

/- The body of a method, none if there is only a semicolon. -/
def methodBody
    (g : Grammar) : Reader (List Tree) := do
  if ← atMark ";" then
    let _ ← next
    return []
  else
    block g

/- A method or constructor, given the name it has. -/
def methodMember
    (named : Option Span)
    (params : List Parameter)
    (throws : List Span)
    (body : List Tree)
    (span : Span) : Body :=
  ⟨[.method ⟨span, named, params, throws, body⟩], body⟩

/- A constructor after its modifiers. -/
def constructorDeclaration
    (g : Grammar) : Reader (Span → Body) := do
  let _ ← maybe (typeParameters g)
  require (← ahead [isName, (·.isMark "(")])
  let _ ← name
  let params ← parameters g
  let throws ← typesAfter g "throws"
  let body ← block g
  return methodMember none params throws body

/- A constructor of a record without its parameters. -/
def compactConstructor
    (g : Grammar) : Reader (Span → Body) := do
  require (← ahead [isName, (·.isMark "\x7b")])
  let _ ← name
  let body ← block g
  return methodMember none [] [] body

/- A method after its modifiers. -/
def methodDeclaration
    (g : Grammar) : Reader (Span → Body) := do
  let _ ← maybe (typeParameters g)
  let _ ← fullType g
  require (← ahead [isName, (·.isMark "(")])
  let named ← name
  let params ← parameters g
  let _ ← dimensions g
  let throws ← typesAfter g "throws"
  let body ← methodBody g
  return methodMember (some named) params throws body

/- Fields after their modifiers. -/
def fieldDeclaration
    (g : Grammar) : Reader (Span → Body) := do
  let (_, type) ← spanned (bareType g)
  let found ← separated "," (declarator g)
  let _ ← mark ";"
  return fun _ =>
    ⟨[.fields type (found.map (·.1.name))],
      found.flatMap Prod.snd⟩

/-
  A member of a type. Initializer blocks and semicolons are
  members that declare nothing.
-/
def memberDeclaration
    (g : Grammar) : Reader Body := do
  if ← atMark ";" then
    let _ ← next
    return .empty
  else if ← atMark "\x7b" then
    return ⟨[], ← block g⟩
  else if ← ahead [(·.isWord "static"), (·.isMark "\x7b")] then
    let _ ← next
    return ⟨[], ← block g⟩
  else
    let (make, span) ← spanned do
      let _ ← modifiers g true
      typeDeclaration g
        <|> constructorDeclaration g
        <|> compactConstructor g
        <|> methodDeclaration g
        <|> fieldDeclaration g
    return make span

/- Members as long as there are any. -/
def membersOf
    (g : Grammar) : Reader Body := do
  return .concat (← many (memberDeclaration g))

------------------------------------------------------------
-- Statements
------------------------------------------------------------

/- A type declared in a body, which is a node of its own. -/
def nestedType
    (g : Grammar) : Reader (List Tree) := do
  let (make, span) ← spanned do
    let _ ← modifiers g false
    typeDeclaration g
  return [.node .nested span (make span).trees]

/- A statement. -/
def statementOf
    (g : Grammar) : Reader (List Tree) :=
  nestedType g <|> plainStatement g

------------------------------------------------------------
-- Compilation Units
------------------------------------------------------------

/- A part of a compilation unit. -/
inductive Part where
  | package (name : Span)
  | imported (i : Import)
  | types (types : List TypeTree)

/- The package of a unit. -/
def packagePart
    (g : Grammar) : Reader (List Part) := do
  let _ ← annotations g
  let _ ← word "package"
  let named ← dottedName
  let _ ← mark ";"
  return [.package named]

/- An import; one of static members is no part. -/
def importPart : Reader (List Part) := do
  let _ ← word "import"
  let isStatic ← maybe (word "static")
  let named ← dottedName
  let star ← maybe do
    let _ ← mark "."
    mark "*"
  let _ ← mark ";"
  if isStatic.isSome then
    return []
  else
    return [.imported ⟨named, star.isSome⟩]

/- A module declaration, which has no part. -/
def modulePart
    (g : Grammar) : Reader (List Part) := do
  let _ ← annotations g
  let _ ← maybe (word "open")
  let _ ← word "module"
  let _ ← dottedName
  balanced
  return []

/- A member at the top of a unit; only types are parts. -/
def memberPart
    (g : Grammar) : Reader (List Part) := do
  let body ← memberDeclaration g
  return [.types (body.members.filterMap Member.type?)]

/- A compilation unit: all tokens to the last. -/
def compilationUnit
    (g : Grammar) : Reader CompilationUnit := do
  let found ← many (packagePart g <|> importPart
    <|> modulePart g <|> memberPart g)
  require (← get).rest.isEmpty
  let parts := found.flatten
  return {
    package := parts.findSome? fun
      | .package name => some name
      | _ => none
    imports := parts.filterMap fun
      | .imported i => some i
      | _ => none
    types := parts.flatMap fun
      | .types types => types
      | _ => [] }

end Grammar

end Java

end Uncaught
