import Uncaught.Java.Grammar.Basic

/-
  This file defines the readers of names, types, annotations,
  modifiers and parameters.

  Key definitions include:
    * `Java.Grammar.annotations`
    * `Java.Grammar.elementValue`
    * `Java.Grammar.typeArguments`
    * `Java.Grammar.simpleType`
    * `Java.Grammar.fullType`
    * `Java.Grammar.modifiers`
    * `Java.Grammar.parameters`
-/

namespace Uncaught

namespace Java

namespace Grammar

open Reader

------------------------------------------------------------
-- Names And Annotations
------------------------------------------------------------

/- A name with dots in it. -/
def dottedName : Reader Span := do
  let (_, span) ← spanned do
    let _ ← name
    many do
      let _ ← mark "."
      name
  return span

/- An argument of an annotation, which may have a key. -/
def annotationArgument
    (g : Grammar) : Reader (List Tree) := do
  if ← ahead [isName, (·.isMark "=")] then
    let _ ← name
    let _ ← mark "="
    g.element
  else
    g.element

/- Annotations, and the nodes inside their arguments. -/
def annotations
    (g : Grammar) : Reader (List Tree) := do
  let found ← many do
    require (!(← ahead [(·.isMark "@"), (·.isWord "interface")]))
    let _ ← mark "@"
    let _ ← dottedName
    let args ← maybe
      (between "(" ")" (listed (annotationArgument g)))
    return (args.getD []).flatten
  return found.flatten

/-
  The value of an element of an annotation: an annotation,
  values in braces, or an expression.
-/
def elementValue
    (g : Grammar) : Reader (List Tree) := do
  if ← atMark "@" then
    annotations g
  else if ← atMark "\x7b" then
    between "\x7b" "\x7d" do
      let values ← listed g.element
      let _ ← maybe (mark ",")
      return values.flatten
  else
    return (← g.expression).trees

------------------------------------------------------------
-- Types
------------------------------------------------------------

/- A wildcard with its bound, or a type. -/
def typeArgument
    (g : Grammar) : Reader (List Tree) := do
  let before ← annotations g
  if ← atMark "?" then
    let _ ← mark "?"
    let bound ← maybe do
      let _ ← word "extends" <|> word "super"
      g.type
    return before ++ bound.getD []
  else
    return before ++ (← g.type)

/- Type arguments in angle brackets, possibly none. -/
def typeArguments
    (g : Grammar) : Reader (List Tree) :=
  between "<" ">" (List.flatten <$> listed (typeArgument g))

/- Type parameters in angle brackets, each with its bounds. -/
def typeParameters
    (g : Grammar) : Reader (List Tree) :=
  between "<" ">" do
    let parts ← separated "," do
      let before ← annotations g
      let _ ← name
      let bounds ← maybe do
        let _ ← word "extends"
        separated "&" g.type
      return before ++ (bounds.getD []).flatten
    return parts.flatten

/- One part of a type between two dots. -/
def typePart
    (g : Grammar) : Reader (List Tree) := do
  let _ ← name
  let args ← maybe (typeArguments g)
  return args.getD []

/- A type without array brackets. -/
def simpleType
    (g : Grammar) : Reader (List Tree) := do
  if ← ahead [fun t =>
      t.kind == .word && primitiveTypes.contains t.text] then
    let _ ← next
    return []
  else
    let first ← typePart g
    let others ← many do
      let _ ← mark "."
      let before ← annotations g
      return before ++ (← typePart g)
    return first ++ others.flatten

/- Pairs of empty array brackets. -/
def dimensions
    (g : Grammar) : Reader (List Tree) := do
  let found ← many do
    let before ← annotations g
    let _ ← mark "["
    let _ ← mark "]"
    return before
  return found.flatten

/- A type that no annotation stands before. -/
def bareType
    (g : Grammar) : Reader (List Tree) := do
  let inner ← simpleType g
  return inner ++ (← dimensions g)

/- A type. -/
def fullType
    (g : Grammar) : Reader (List Tree) := do
  let before ← annotations g
  return before ++ (← bareType g)

/- The places of types with a mark between two of them. -/
def typeList
    (g : Grammar)
    (sep : String) : Reader (List Span) := do
  let found ← separated sep (spanned g.type)
  return found.map Prod.snd

------------------------------------------------------------
-- Modifiers
------------------------------------------------------------

/- The words that only modify declarations. -/
def modifierWords : List String :=
  ["public", "protected", "private", "abstract", "static",
    "final", "strictfp", "synchronized", "native",
    "transient", "volatile"]

/- Whether a token can come after a modifier that is a name. -/
def followsModifier
    (t : Token) : Bool :=
  t.isMark "@" || t.isWord "class" || t.isWord "interface"
    || t.isWord "sealed" || t.isWord "non"
    || t.isWord "record"
    || (t.kind == .word && modifierWords.contains t.text)

/-
  One modifier that is no annotation. The word `default` is a
  modifier of members only, and names can be modifiers where a
  type declaration follows.
-/
def modifier
    (isMember : Bool) : Reader Unit := do
  if ← ahead [(·.isWord "non"), (·.isMark "-"),
      (·.isWord "sealed")] then
    let _ ← next
    let _ ← next
    let _ ← next
    return ()
  else if ← ahead [(·.isWord "sealed"), followsModifier] then
    let _ ← next
    return ()
  else
    let _ ← token fun t => t.kind == .word
      && (modifierWords.contains t.text
        || (isMember && t.text == "default"))
    return ()

/-
  Modifiers and annotations, and the nodes inside them. A block
  can start with `synchronized` or `static`, which then are no
  modifiers.
-/
def modifiers
    (g : Grammar)
    (isMember : Bool) : Reader (List Tree) := do
  let found ← many do
    if ← ahead [(·.isMark "@"),
        fun t => !t.isWord "interface"] then
      annotations g
    else
      require (!(← ahead [fun t =>
        t.isWord "synchronized" || t.isWord "static",
        fun t => t.isMark "(" || t.isMark "\x7b"]))
      modifier isMember
      return []
  return found.flatten

------------------------------------------------------------
-- Parameters
------------------------------------------------------------

/- The receiver after its type: `this`, possibly qualified. -/
def receiver : Reader Unit := do
  let _ ← many do
    let _ ← name
    mark "."
  let _ ← word "this"
  return ()

/-
  A parameter; a receiver is none. The type of a variadic
  parameter is the first thing after its modifiers, be it a
  comment.
-/
def parameter
    (g : Grammar) : Reader (Option Parameter) := do
  let start ← here
  let _ ← modifiers g false
  let typeStart ← here
  let comment : Option Span :=
    (← get).rest.head?.bind Token.comment
  let (_, type) ← spanned (bareType g)
  if (← maybe receiver).isSome then
    return none
  else
    let _ ← annotations g
    let variadic ← maybe (mark "...")
    let _ ← annotations g
    let named ← name
    let _ ← dimensions g
    if variadic.isSome then
      let type :=
        if start < typeStart then comment.getD type else type
      return some ⟨type, named, true⟩
    else
      return some ⟨type, named, false⟩

/- The parameters of a method in parentheses. -/
def parameters
    (g : Grammar) : Reader (List Parameter) := do
  let found ← between "(" ")" (listed (parameter g))
  return found.filterMap id

end Grammar

end Java

end Uncaught
