import Uncaught.Java.Grammar.Expressions

/-
  This file defines the readers of statements.

  Key definitions include:
    * `Java.Grammar.block`
    * `Java.Grammar.localVariables`
    * `Java.Grammar.tryStatement`
    * `Java.Grammar.forStatement`
    * `Java.Grammar.plainStatement`
-/

namespace Uncaught

namespace Java

namespace Grammar

open Reader

------------------------------------------------------------
-- Blocks And Variables
------------------------------------------------------------

/- Statements in braces. -/
def block
    (g : Grammar) : Reader (List Tree) := do
  let statements ← between "\x7b" "\x7d" (many g.statement)
  return statements.flatten

/- The type that an expression creates, if that is what it does. -/
def createdType : Shape → Option Span
  | .creation type => some type
  | _ => none

/- A declared variable with its initializer. -/
def declarator
    (g : Grammar) : Reader (Variable × List Tree) := do
  let named ← name
  let brackets ← dimensions g
  let value ← maybe do
    let _ ← mark "="
    initializer g
  match value with
  | some e =>
      return (⟨named, createdType e.shape⟩, brackets ++ e.trees)
  | none => return (⟨named, none⟩, brackets)

/- Whether a token can come after the name of a variable. -/
def followsVariable
    (t : Token) : Bool :=
  t.isMark "=" || t.isMark ";" || t.isMark ","
    || t.isMark "[" || t.isMark ":" || t.isMark "@"

/- A declaration of local variables, through its semicolon. -/
def localVariables
    (g : Grammar) : Reader (List Tree) := do
  let ((type, vars, inner), span) ← spanned do
    let before ← modifiers g false
    let (inType, type) ← spanned (bareType g)
    require (← ahead [isName, followsVariable])
    let found ← separated "," (declarator g)
    let _ ← mark ";"
    return (type, found.map Prod.fst,
      before ++ inType ++ found.flatMap Prod.snd)
  return [.node (.locals type vars) span inner]

------------------------------------------------------------
-- Try
------------------------------------------------------------

/- A resource of a try statement. -/
def resource
    (g : Grammar) : Reader (List Tree) :=
  (do
    let before ← modifiers g false
    let inType ← bareType g
    let _ ← name
    let brackets ← dimensions g
    let _ ← mark "="
    let e ← g.expression
    return before ++ inType ++ brackets ++ e.trees)
  <|> Expression.trees <$> g.expression

/- The resources of a try statement in parentheses. -/
def resources
    (g : Grammar) : Reader (List Tree) :=
  between "(" ")" do
    let found ← separated ";" (resource g)
    let _ ← maybe (mark ";")
    return found.flatten

/- A catch clause: its parameter and its block. -/
def catchClause
    (g : Grammar) : Reader Tree := do
  let (children, span) ← spanned do
    let _ ← word "catch"
    let _ ← mark "("
    let ((types, named, inner), span) ← spanned do
      let before ← modifiers g false
      let types ← typeList g "|"
      let named ← name
      let brackets ← dimensions g
      return (types, named, before ++ brackets)
    let _ ← mark ")"
    let statements ← block g
    return .node (.caught types named) span inner :: statements
  return .node .catching span children

/- A finally clause. -/
def finallyClause
    (g : Grammar) : Reader Tree := do
  let (statements, span) ← spanned do
    let _ ← word "finally"
    block g
  return .node .finishing span statements

/- A try statement with its resources and clauses. -/
def tryStatement
    (g : Grammar) : Reader (List Tree) := do
  let (children, span) ← spanned do
    let _ ← word "try"
    let held ← maybe (resources g)
    let statements ← block g
    let clauses ← many (catchClause g)
    let last ← maybe (finallyClause g)
    return held.getD [] ++ statements ++ clauses ++ last.toList
  return [.node .trying span children]

------------------------------------------------------------
-- Loops
------------------------------------------------------------

/- A loop over the elements of a collection. -/
def elementLoop
    (g : Grammar) : Reader (List Tree) := do
  let ((type, named, inner), span) ← spanned do
    let _ ← word "for"
    let _ ← mark "("
    let before ← modifiers g false
    let (inType, type) ← spanned (bareType g)
    let named ← name
    let brackets ← dimensions g
    let _ ← mark ":"
    let e ← g.expression
    let _ ← mark ")"
    let body ← g.statement
    return (type, named,
      before ++ inType ++ brackets ++ e.trees ++ body)
  return [.node (.loop type named) span inner]

/- A loop with a start, a condition and a step. -/
def countingLoop
    (g : Grammar) : Reader (List Tree) := do
  let _ ← word "for"
  let _ ← mark "("
  let start ← localVariables g <|> do
    let es ← listed g.expression
    let _ ← mark ";"
    return es.flatMap Expression.trees
  let test ← maybe g.expression
  let _ ← mark ";"
  let steps ← listed g.expression
  let _ ← mark ")"
  let body ← g.statement
  return start ++ (test.map Expression.trees).getD []
    ++ steps.flatMap Expression.trees ++ body

/- A loop that starts with `for`. -/
def forStatement
    (g : Grammar) : Reader (List Tree) :=
  elementLoop g <|> countingLoop g

------------------------------------------------------------
-- Other Statements
------------------------------------------------------------

/- A throw of an expression. -/
def throwStatement
    (g : Grammar) : Reader (List Tree) := do
  let (e, span) ← spanned do
    let _ ← word "throw"
    let e ← g.expression
    let _ ← mark ";"
    return e
  let form : Form :=
    match e.shape with
    | .creation type => .throwing (some type) none
    | .name named => .throwing none (some named)
    | _ => .throwing none none
  return [.node form span e.trees]

/-
  An expression as a statement; one that calls a constructor
  is a node of its own.
-/
def expressionStatement
    (g : Grammar) : Reader (List Tree) := do
  let (e, span) ← spanned do
    let typeArgs ← maybe (typeArguments g)
    let e ← g.expression
    let _ ← mark ";"
    return { e with trees := typeArgs.getD [] ++ e.trees }
  match e.shape with
  | .construction target arity =>
      return [.node (.construction target arity) span e.trees]
  | _ => return e.trees

/- A word, possibly an expression after it, and a semicolon. -/
def leaving
    (g : Grammar)
    (w : String) : Reader (List Tree) := do
  let _ ← word w
  let e ← maybe g.expression
  let _ ← mark ";"
  return (e.map Expression.trees).getD []

/- A conditional statement. -/
def ifStatement
    (g : Grammar) : Reader (List Tree) := do
  let _ ← word "if"
  let test ← condition g
  let yes ← g.statement
  let no ← maybe do
    let _ ← word "else"
    g.statement
  return test ++ yes ++ no.getD []

/- An assertion with its message. -/
def assertStatement
    (g : Grammar) : Reader (List Tree) := do
  let _ ← word "assert"
  let test ← g.expression
  let message ← maybe do
    let _ ← mark ":"
    g.expression
  let _ ← mark ";"
  return test.trees
    ++ (message.map Expression.trees).getD []

/-
  Whether a token after `yield` makes it a name and not the
  start of a statement.
-/
def followsYieldName
    (t : Token) : Bool :=
  t.isMark "=" || t.isMark "." || t.isMark "["
    || t.isMark ";" || t.isMark "," || t.isMark ":"
    || t.isMark "->" || t.isMark "::"

/- A statement that declares no type. -/
def plainStatement
    (g : Grammar) : Reader (List Tree) := do
  let t ← peeking next
  if t.isMark "\x7b" then
    block g
  else if t.isMark ";" then
    let _ ← next
    return []
  else if t.isWord "if" then
    ifStatement g
  else if t.isWord "while" then
    let _ ← next
    let test ← condition g
    return test ++ (← g.statement)
  else if t.isWord "do" then
    let _ ← next
    let body ← g.statement
    let _ ← word "while"
    let test ← condition g
    let _ ← mark ";"
    return body ++ test
  else if t.isWord "for" then
    forStatement g
  else if t.isWord "try" then
    tryStatement g
  else if t.isWord "throw" then
    throwStatement g
  else if t.isWord "switch" then
    switchBlock g
  else if t.isWord "synchronized" then
    let _ ← next
    let lock ← condition g
    return lock ++ (← block g)
  else if t.isWord "return" || t.isWord "break"
      || t.isWord "continue" then
    leaving g t.text
  else if t.isWord "assert" then
    assertStatement g
  else if (← ahead [(·.isWord "yield"),
      fun t => !followsYieldName t]) then
    leaving g "yield"
  else if ← ahead [isName, (·.isMark ":")] then
    let _ ← next
    let _ ← next
    g.statement
  else
    localVariables g <|> expressionStatement g

end Grammar

end Java

end Uncaught
