import Uncaught.Java.Grammar.Types

/-
  This file defines the readers of expressions. Operators only
  separate operands here: how strongly they bind changes
  neither the nodes of an expression nor their order.

  Key definitions include:
    * `Java.Grammar.creation`
    * `Java.Grammar.selector`
    * `Java.Grammar.primary`
    * `Java.Grammar.switchBlock`
    * `Java.Grammar.lambda`
    * `Java.Grammar.operand`
    * `Java.Grammar.expressionOf`
-/

namespace Uncaught

namespace Java

namespace Grammar

open Reader

------------------------------------------------------------
-- Arguments And Initializers
------------------------------------------------------------

/- Arguments in parentheses: their number and their nodes. -/
def arguments
    (g : Grammar) : Reader (Nat × List Tree) := do
  let args ← between "(" ")" (listed g.expression)
  return (args.length, args.flatMap Expression.trees)

/- An expression in parentheses. -/
def condition
    (g : Grammar) : Reader (List Tree) := do
  return (← between "(" ")" g.expression).trees

/-
  The initializer of a variable: an expression, or values in
  braces.
-/
def initializer
    (g : Grammar) : Reader Expression := do
  if ← atMark "\x7b" then
    return ⟨.other, ← g.element⟩
  else
    g.expression

/- A type body in braces. -/
def classBody
    (g : Grammar) : Reader Body :=
  between "\x7b" "\x7d" g.members

------------------------------------------------------------
-- Primary Expressions
------------------------------------------------------------

/-
  An expression that a selector can follow, from the offset
  where it starts.
-/
structure Primary where
  start : Nat
  shape : Shape
  trees : List Tree

/-
  The lengths of a new array, or its empty brackets and its
  values.
-/
def arrayLengths
    (g : Grammar) : Reader (List Tree) := do
  let lengths ← many do
    let before ← annotations g
    let e ← between "[" "]" g.expression
    return before ++ e.trees
  let empty ← dimensions g
  if lengths.isEmpty then
    return empty ++ (← g.element)
  else
    return lengths.flatten ++ empty

/-
  A creation after its first word: of an object, possibly with
  a class body, or of an array. It starts where the object
  around it does, whose nodes come first.
-/
def creation
    (g : Grammar)
    (start : Nat)
    (outer : List Tree) : Reader Primary := do
  let _ ← word "new"
  let before ← annotations g
  let typeArgs ← maybe (typeArguments g)
  let after ← annotations g
  let (inType, type) ← spanned (simpleType g)
  let head :=
    outer ++ before ++ typeArgs.getD [] ++ after ++ inType
  if ← atMark "(" then
    let (arity, args) ← arguments g
    let body ← maybe (spanned (classBody g))
    let nested : List Tree :=
      match body with
      | some (b, span) => [.node .nested span b.trees]
      | none => []
    let span ← since start
    return ⟨start, .creation type,
      [.node (.creation type arity) span
        (head ++ args ++ nested)]⟩
  else
    return ⟨start, .other, head ++ (← arrayLengths g)⟩

/-
  A method call from its arguments on, given its receiver and
  the nodes before the arguments.
-/
def callFrom
    (g : Grammar)
    (start : Nat)
    (receiver : Option Span)
    (name : Span)
    (before : List Tree) : Reader Primary := do
  let (arity, args) ← arguments g
  let span ← since start
  return ⟨start, .other,
    [.node (.call receiver name arity) span (before ++ args)]⟩

/- A constructor call from its arguments on. -/
def constructionFrom
    (g : Grammar)
    (start : Nat)
    (target : Span)
    (before : List Tree) : Reader Primary := do
  let (arity, args) ← arguments g
  return ⟨start, .construction target arity, before ++ args⟩

/-
  What stands after a dot: a creation, a class or this, a
  super class, a method with type arguments, a template, or a
  field or method.
-/
def member
    (g : Grammar)
    (p : Primary) : Reader Primary := do
  let receiver : Span := ⟨p.start, (← get).stop⟩
  let _ ← mark "."
  if ← atWord "new" then
    creation g p.start p.trees
  else if ← ahead [fun t =>
      t.isWord "class" || t.isWord "this"
        || t.kind == .literal] then
    let _ ← next
    return { p with shape := .other }
  else if ← atWord "super" then
    let target ← word "super"
    if ← atMark "(" then
      constructionFrom g p.start target p.trees
    else if ← atMark "::" then
      return { p with shape := .other }
    else
      let _ ← mark "."
      let typeArgs ← maybe (typeArguments g)
      let called ← name
      if ← atMark "(" then
        callFrom g p.start (some receiver) called
          (p.trees ++ typeArgs.getD [])
      else
        return { p with shape := .other }
  else if ← atMark "<" then
    let typeArgs ← typeArguments g
    if ← atWord "super" then
      let target ← word "super"
      constructionFrom g p.start target (p.trees ++ typeArgs)
    else
      let called ← name
      callFrom g p.start (some receiver) called
        (p.trees ++ typeArgs)
  else
    let called ← name
    if ← atMark "(" then
      callFrom g p.start (some receiver) called p.trees
    else
      return { p with shape := .other }

/-
  What can follow a primary expression: a member, an index, a
  method reference. Type arguments follow only where the type
  they belong to comes before a method reference.
-/
def selector
    (g : Grammar)
    (p : Primary) : Reader Primary := do
  if ← atMark "." then
    member g p
  else if ← ahead [(·.isMark "["), (·.isMark "]")] then
    let _ ← next
    let _ ← next
    return { p with shape := .other }
  else if ← atMark "[" then
    let e ← between "[" "]" g.expression
    return ⟨p.start, .other, p.trees ++ e.trees⟩
  else if ← atMark "::" then
    let _ ← next
    let typeArgs ← maybe (typeArguments g)
    let _ ← name <|> word "new"
    return ⟨p.start, .other, p.trees ++ typeArgs.getD []⟩
  else if ← atMark "<" then
    let typeArgs ← typeArguments g
    let inner ← many do
      let _ ← mark "."
      let before ← annotations g
      return before ++ (← typePart g)
    let brackets ← dimensions g
    require (← atMark "::")
    return ⟨p.start, .other,
      p.trees ++ typeArgs ++ inner.flatten ++ brackets⟩
  else
    failure

------------------------------------------------------------
-- Switches
------------------------------------------------------------

/- The nodes of the guard in the tokens of a label. -/
def guardOf
    (g : Grammar)
    (label : List Token) : Reader (List Tree) := do
  let pattern := outsideBrackets (·.isWord "when") 0 label
  match pattern, label.drop pattern.length with
  | _ :: _, _ :: guard =>
      let e ← maybe (inside guard g.expression)
      return (e.map Expression.trees).getD []
  | _, _ => return []

/- A label of a switch up to its arrow or colon. -/
def label
    (g : Grammar) : Reader (List Tree) := do
  if ← atWord "default" then
    let _ ← next
    return []
  else
    let _ ← word "case"
    let tokens ← upTo (fun t => t.isMark "->" || t.isMark ":")
    guardOf g tokens

/-
  What follows the arrow of a label: a statement, where a
  switch is an expression with a semicolon.
-/
def arrowBody
    (g : Grammar) : Reader (List Tree) := do
  if ← atWord "switch" then
    let e ← g.expression
    let _ ← mark ";"
    return e.trees
  else
    g.statement

/-
  A label with an arrow and its body, or with a colon and any
  number of statements.
-/
def branch
    (g : Grammar) : Reader (List Tree) := do
  let guard ← label g
  if ← atMark "->" then
    let _ ← next
    return guard ++ (← arrowBody g)
  else
    let _ ← mark ":"
    let statements ← many g.statement
    return guard ++ statements.flatten

/- A switch, which can be a statement or an expression. -/
def switchBlock
    (g : Grammar) : Reader (List Tree) := do
  let _ ← word "switch"
  let subject ← condition g
  let branches ← between "\x7b" "\x7d" (many (branch g))
  return subject ++ branches.flatten

------------------------------------------------------------
-- Operands
------------------------------------------------------------

/- The words that are values. -/
def valueWords : List String :=
  ["true", "false", "null"]

/- The first part of a primary expression. -/
def primaryStart
    (g : Grammar) : Reader Primary := do
  let start ← here
  let t ← peeking next
  if t.kind == .number || t.kind == .literal
      || (t.kind == .word && (valueWords.contains t.text
        || primitiveTypes.contains t.text)) then
    let _ ← next
    return ⟨start, .other, []⟩
  else if t.isMark "(" then
    return ⟨start, .other, ← condition g⟩
  else if t.isWord "this" || t.isWord "super" then
    let _ ← next
    if ← atMark "(" then
      constructionFrom g start t.span []
    else
      return ⟨start, .other, []⟩
  else if t.isWord "new" then
    creation g start []
  else if t.isWord "switch" then
    return ⟨start, .other, ← switchBlock g⟩
  else
    let named ← name
    if ← atMark "(" then
      callFrom g start none named []
    else
      return ⟨start, .name named, []⟩

/- A primary expression with all its selectors. -/
def primary
    (g : Grammar) : Reader Expression := do
  let p ← iterate (selector g) (← primaryStart g)
  return ⟨p.shape, p.trees⟩

/- The parameters of a lambda up to its arrow. -/
def lambdaParameters : Reader Unit := do
  if ← atMark "(" then
    balanced
  else
    let _ ← name
  let _ ← mark "->"
  return ()

/- A lambda with the nodes of its body. -/
def lambda
    (g : Grammar) : Reader Expression := do
  let (inner, span) ← spanned do
    lambdaParameters
    if ← atMark "\x7b" then
      g.statement
    else
      return (← g.expression).trees
  return ⟨.other, [.node .lambda span inner]⟩

/- The marks that operators are made of. -/
def operatorMarks : List String :=
  ["+", "-", "*", "/", "%", "&", "|", "^", "!", "~", "=",
    "<", ">", "++", "--"]

/- Whether a token belongs to an operator. -/
def isOperator
    (t : Token) : Bool :=
  t.kind == .mark && operatorMarks.contains t.text

/-
  Whether a token can start the operand of a cast. A sign can
  do so only after a type that is no class.
-/
def startsOperand
    (isPrimitive : Bool)
    (t : Token) : Bool :=
  (t.kind == .word && t.text != "instanceof")
    || t.kind == .number || t.kind == .literal
    || t.isMark "(" || t.isMark "!" || t.isMark "~"
    || (isPrimitive && (t.isMark "+" || t.isMark "-"
      || t.isMark "++" || t.isMark "--"))

/- A type in parentheses before an operand. -/
def cast
    (g : Grammar) : Reader (List Tree) := do
  let isPrimitive ← ahead [(·.isMark "("), fun t =>
    t.kind == .word && primitiveTypes.contains t.text]
  let types ← between "(" ")" (separated "&" g.type)
  require (← ahead [startsOperand isPrimitive])
  return types.flatten

/-
  An operand with the operators and casts before it and the
  operators after it.
-/
def operand
    (g : Grammar) : Reader Expression := do
  let before ← many do
    if ← atMark "(" then
      require (← maybe (peeking lambdaParameters)).isNone
      cast g
    else
      let _ ← token isOperator
      return []
  let isLambda :=
    (← maybe (peeking lambdaParameters)).isSome
  let inner ← if isLambda then lambda g else primary g
  let after ← many (mark "++" <|> mark "--")
  if before.isEmpty && after.isEmpty then
    return inner
  else
    return ⟨.other, before.flatten ++ inner.trees⟩

------------------------------------------------------------
-- Whole Expressions
------------------------------------------------------------

/-
  The type or pattern after `instanceof`, with the name that
  it binds.
-/
def pattern
    (g : Grammar) : Reader (List Tree) := do
  let _ ← maybe (word "final")
  let inner ← g.type
  if ← atMark "(" then
    balanced
  let _ ← maybe name
  return inner

/- An operator and the operand after it. -/
def operation
    (g : Grammar) : Reader (List Tree) := do
  if ← atMark "?" then
    let _ ← next
    let yes ← g.expression
    let _ ← mark ":"
    let no ← operand g
    return yes.trees ++ no.trees
  else if ← atWord "instanceof" then
    let _ ← next
    pattern g
  else
    let _ ← token isOperator
    return (← operand g).trees

/- An expression: operands with operators between them. -/
def expressionOf
    (g : Grammar) : Reader Expression := do
  let first ← operand g
  let others ← many (operation g)
  if others.isEmpty then
    return first
  else
    return ⟨.other, first.trees ++ others.flatten⟩

end Grammar

end Java

end Uncaught
