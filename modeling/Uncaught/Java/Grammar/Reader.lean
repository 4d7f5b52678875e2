import Uncaught.Java.Token

/-
  This file defines readers of token lists and the ways to
  put them together.

  Key definitions include:
    * `Java.Cursor`
    * `Java.Reader`
    * `Java.Reader.many`
    * `Java.Reader.iterate`
    * `Java.Reader.spanned`
-/

namespace Uncaught

namespace Java

------------------------------------------------------------
-- Cursors And Readers
------------------------------------------------------------

/-
  The tokens still to be read, and the offset at which the
  last token read stops.
-/
structure Cursor where
  rest : List Token
  stop : Nat

/-
  A reader takes something from the front of the tokens, or
  fails and takes nothing.
-/
abbrev Reader :=
  StateT Cursor Option

namespace Reader

variable {α β : Type}

------------------------------------------------------------
-- Single Tokens
------------------------------------------------------------

/- The next token, which is taken. -/
def next : Reader Token :=
  fun c =>
    match c.rest with
    | [] => none
    | t :: ts => some (t, ⟨ts, t.span.stop⟩)

/- Take the next token if it passes the test. -/
def token
    (test : Token → Bool) : Reader Token := do
  let t ← next
  if test t then return t else failure

/- Whether the tokens ahead start with tokens that pass tests. -/
def ahead
    (tests : List (Token → Bool)) : Reader Bool :=
  fun c =>
    let rec go : List (Token → Bool) → List Token → Bool
      | [], _ => true
      | _ :: _, [] => false
      | test :: tests, t :: ts => test t && go tests ts
    some (go tests c.rest, c)

/- Take the given mark. -/
def mark
    (s : String) : Reader Span :=
  Token.span <$> token (·.isMark s)

/- Take the given word. -/
def word
    (s : String) : Reader Span :=
  Token.span <$> token (·.isWord s)

/- Whether the given mark comes next. -/
def atMark
    (s : String) : Reader Bool :=
  ahead [(·.isMark s)]

/- Whether the given word comes next. -/
def atWord
    (s : String) : Reader Bool :=
  ahead [(·.isWord s)]

/- Whether a token can be a name. -/
def isName
    (t : Token) : Bool :=
  t.kind == .word && !reserved.contains t.text

/- Take a name. -/
def name : Reader Span :=
  Token.span <$> token isName

/- The offset at which the next token starts. -/
def here : Reader Nat :=
  fun c =>
    match c.rest with
    | [] => some (c.stop, c)
    | t :: _ => some (t.span.start, c)

/- The stretch from an offset to the last token taken. -/
def since
    (start : Nat) : Reader Span :=
  fun c => some (⟨start, c.stop⟩, c)

------------------------------------------------------------
-- Combinations
------------------------------------------------------------

/- Go on with the reader if it can read. -/
def maybe
    (p : Reader α) : Reader (Option α) :=
  (some <$> p) <|> pure none

/- Fail unless the condition holds. -/
def require
    (b : Bool) : Reader Unit :=
  if b then pure () else failure

/- Read without taking any token. -/
def peeking
    (p : Reader α) : Reader α :=
  fun c => (p c).map (fun r => (r.1, c))

/- What is read, with the stretch of the tokens taken. -/
def spanned
    (p : Reader α) : Reader (α × Span) := do
  let start ← here
  let a ← p
  return (a, ← since start)

/-
  Read as often as possible. A reading that takes no token is
  the last one.
-/
def manyFrom
    (p : Reader α)
    (c : Cursor) : List α × Cursor :=
  match p c with
  | none => ([], c)
  | some (a, c') =>
      if _shorter : c'.rest.length < c.rest.length then
        let (as, c'') := manyFrom p c'
        (a :: as, c'')
      else
        ([a], c')
termination_by c.rest.length

/- Read as often as possible. -/
def many
    (p : Reader α) : Reader (List α) :=
  fun c => some (manyFrom p c)

/-
  Go from a value to the next one as long as the step can
  read.
-/
def iterateFrom
    (step : α → Reader α)
    (a : α)
    (c : Cursor) : α × Cursor :=
  match step a c with
  | none => (a, c)
  | some (b, c') =>
      if _shorter : c'.rest.length < c.rest.length then
        iterateFrom step b c'
      else
        (b, c')
termination_by c.rest.length

/- Go on from a value as long as the step can read. -/
def iterate
    (step : α → Reader α)
    (a : α) : Reader α :=
  fun c => some (iterateFrom step a c)

/- One or more items with a mark between two of them. -/
def separated
    (sep : String)
    (p : Reader α) : Reader (List α) := do
  let a ← p
  let as ← many (do let _ ← mark sep; p)
  return a :: as

/- Items with commas between them, possibly none. -/
def listed
    (p : Reader α) : Reader (List α) :=
  separated "," p <|> pure []

/- What is read between two marks. -/
def between
    (opening closing : String)
    (p : Reader α) : Reader α := do
  let _ ← mark opening
  let a ← p
  let _ ← mark closing
  return a

------------------------------------------------------------
-- Balanced Stretches
------------------------------------------------------------

/- Whether a token opens a bracket. -/
def opens
    (t : Token) : Bool :=
  t.isMark "(" || t.isMark "[" || t.isMark "\x7b"

/- Whether a token closes a bracket. -/
def closes
    (t : Token) : Bool :=
  t.isMark ")" || t.isMark "]" || t.isMark "\x7d"

/-
  The tokens before the first one that passes the test outside
  of all brackets, where `depth` brackets are open.
-/
def outsideBrackets
    (test : Token → Bool)
    (depth : Nat) : List Token → List Token
  | [] => []
  | t :: ts =>
      if depth == 0 && test t then
        []
      else if opens t then
        t :: outsideBrackets test (depth + 1) ts
      else if closes t then
        t :: outsideBrackets test (depth - 1) ts
      else
        t :: outsideBrackets test depth ts

/-
  Take the tokens before the first one that passes the test
  outside of all brackets.
-/
def upTo
    (test : Token → Bool) : Reader (List Token) :=
  fun c =>
    let ts := outsideBrackets test 0 c.rest
    let stop := (ts.getLast?.map (·.span.stop)).getD c.stop
    some (ts, ⟨c.rest.drop ts.length, stop⟩)

/- Take a stretch in brackets. -/
def balanced : Reader Unit := do
  let _ ← token opens
  let _ ← upTo closes
  let _ ← token closes
  return ()

/- Read all of the given tokens, which are not the ones ahead. -/
def inside
    (ts : List Token)
    (p : Reader α) : Reader α :=
  fun c =>
    match p ⟨ts, c.stop⟩ with
    | some (a, ⟨[], _⟩) => some (a, c)
    | _ => none

end Reader

end Java

end Uncaught
