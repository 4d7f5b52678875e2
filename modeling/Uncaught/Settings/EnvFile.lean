import Uncaught.Data.Table
import Uncaught.Text.Blank
import Uncaught.Text.Cut

/-
  This file defines files of variables: lines of a key and a
  value, with comments, quotes, and references to variables
  in values.

  Key definitions include:
    * `EnvFile.Binding`
    * `EnvFile.bindings`
    * `EnvFile.expand`
    * `EnvFile.values`
    * `EnvFile.extend`
-/

namespace Uncaught

namespace EnvFile

------------------------------------------------------------
-- Blanks and Lines
------------------------------------------------------------

/- A text with one kind of line ends. -/
def unifyNewlines : List Char → List Char
  | '\r' :: '\n' :: cs => '\n' :: unifyNewlines cs
  | '\r' :: cs => '\n' :: unifyNewlines cs
  | c :: cs => c :: unifyNewlines cs
  | [] => []

/- Whether a character is a blank inside of a line. -/
def isLineBlank
    (c : Char) : Bool :=
  Text.isBlank c && c != '\n'

/- Skip the blanks of a line. -/
def skipBlanks
    (cs : List Char) : List Char :=
  cs.dropWhile isLineBlank

/- The rest of the text after this line. -/
def nextLine
    (cs : List Char) : List Char :=
  (cs.dropWhile (· != '\n')).drop 1

------------------------------------------------------------
-- Keys
------------------------------------------------------------

/-
  Reading gives a part of a line and the text after it, or the
  text at which it failed.
-/
abbrev Reading :=
  Except (List Char)

/- Skip the word `export`, if blanks follow it. -/
def skipExport
    (cs : List Char) : List Char :=
  let word := "export".toList
  if word.isPrefixOf cs then
    let rest := cs.drop word.length
    let after := skipBlanks rest
    if after.length < rest.length then after else cs
  else
    cs

/- Whether a character can stand in a key without quotes. -/
def isKeyChar
    (c : Char) : Bool :=
  c != '=' && c != '#' && !Text.isBlank c

/- Read a key, which a comment does not have. -/
def key
    (cs : List Char) :
    Reading (Option String × List Char) :=
  match cs with
  | '#' :: _ => .ok (none, cs)
  | '\'' :: rest =>
      match rest.span (· != '\'') with
      | (c :: name, _ :: after) =>
          .ok (some (String.ofList (c :: name)), after)
      | _ => .error cs
  | _ =>
      match cs.span isKeyChar with
      | ([], _) => .error cs
      | (name, after) => .ok (some (String.ofList name), after)

------------------------------------------------------------
-- Values
------------------------------------------------------------

/-
  The text up to the closing quote, and the text after it. A
  quote after a backslash closes only if no other one does.
-/
def quoted
    (quote : Char) : List Char → Option (List Char × List Char)
  | [] => none
  | '\\' :: d :: rest =>
      if d == quote then
        match quoted quote rest with
        | some (inside, after) =>
            some ('\\' :: d :: inside, after)
        | none => some (['\\'], rest)
      else
        (quoted quote (d :: rest)).map fun r =>
          ('\\' :: r.1, r.2)
  | c :: cs =>
      if c == quote then
        some ([], cs)
      else
        (quoted quote cs).map fun r => (c :: r.1, r.2)

/- The character for an escape in single quotes. -/
def singleEscape? : Char → Option Char
  | '\\' => some '\\'
  | '\'' => some '\''
  | _ => none

/- The character for an escape in double quotes. -/
def doubleEscape? : Char → Option Char
  | '\\' => some '\\'
  | '\'' => some '\''
  | '"' => some '"'
  | 'a' => some '\x07'
  | 'b' => some '\x08'
  | 'f' => some '\x0c'
  | 'n' => some '\n'
  | 'r' => some '\r'
  | 't' => some '\t'
  | 'v' => some '\x0b'
  | _ => none

/- Put the characters for escapes. -/
def unescape
    (escape? : Char → Option Char) : List Char → List Char
  | '\\' :: c :: cs =>
      match escape? c with
      | some d => d :: unescape escape? cs
      | none => '\\' :: unescape escape? (c :: cs)
  | c :: cs => c :: unescape escape? cs
  | [] => []

/-
  A value without quotes before its comment, which starts at a
  hash after a blank.
-/
def cutComment
    (afterBlank : Bool) : List Char → List Char
  | [] => []
  | c :: cs =>
      if afterBlank && c == '#' then
        []
      else
        c :: cutComment (Text.isBlank c) cs

/- Read a value. -/
def value
    (cs : List Char) : Reading (String × List Char) :=
  match cs with
  | '\'' :: rest =>
      match quoted '\'' rest with
      | some (inside, after) =>
          .ok (String.ofList (unescape singleEscape? inside), after)
      | none => .error cs
  | '"' :: rest =>
      match quoted '"' rest with
      | some (inside, after) =>
          .ok (String.ofList (unescape doubleEscape? inside), after)
      | none => .error cs
  | _ =>
      let (line, after) := cs.span (· != '\n')
      let shown := Text.trimRight (cutComment false line)
      .ok (String.ofList shown, after)

------------------------------------------------------------
-- Lines
------------------------------------------------------------

/- A key and its value, if it has one. -/
structure Binding where
  key : String
  value : Option String
  deriving DecidableEq, Repr

/- Read the value after a key. -/
def assigned
    (cs : List Char) :
    Reading (Option String × List Char) :=
  match cs with
  | '=' :: rest => do
      let (v, after) ← value (skipBlanks rest)
      return (some v, after)
  | _ => .ok (none, cs)

/- Skip a comment. -/
def skipComment
    (cs : List Char) : List Char :=
  match skipBlanks cs with
  | '#' :: rest => rest.dropWhile (· != '\n')
  | _ => cs

/- Read the end of a line. -/
def lineEnd
    (cs : List Char) : Reading (Unit × List Char) :=
  match skipBlanks cs with
  | [] => .ok ((), [])
  | '\n' :: rest => .ok ((), rest)
  | _ => .error cs

/- Read a line that starts with something. -/
def line
    (cs : List Char) :
    Reading (Option Binding × List Char) := do
  let (name, cs) ← key (skipExport cs)
  let (v, cs) ← assigned (skipBlanks cs)
  let ((), cs) ← lineEnd (skipComment cs)
  return (name.map fun k => ⟨k, v⟩, cs)

/-
  The bindings of a text. A line that cannot be read is left
  out.
-/
def bindingsFrom
    (cs : List Char) : List Binding :=
  let start := cs.dropWhile Text.isBlank
  let (found, rest) := match line start with
    | .ok (b, rest) => (b.toList, rest)
    | .error stuck => ([], nextLine stuck)
  if _shorter : rest.length < cs.length then
    found ++ bindingsFrom rest
  else
    found
termination_by cs.length

/- The bindings of a text. -/
def bindings
    (text : String) : List Binding :=
  bindingsFrom (unifyNewlines text.toList)

------------------------------------------------------------
-- References
------------------------------------------------------------

/- A reference to a variable, and what it is without one. -/
structure Reference where
  name : String
  fallback : String := ""
  deriving DecidableEq, Repr

/-
  The reference after a dollar sign and an opening brace, and
  the text after it.
-/
def reference?
    (cs : List Char) : Option (Reference × List Char) :=
  let (name, rest) := cs.span fun c => c != '\x7d' && c != ':'
  match rest with
  | '\x7d' :: after => some (⟨String.ofList name, ""⟩, after)
  | ':' :: '-' :: rest =>
      match rest.span (· != '\x7d') with
      | (fallback, _ :: after) =>
          some (⟨String.ofList name, String.ofList fallback⟩, after)
      | _ => none
  | _ => none

/- Put the values of variables for references. -/
def expandChars
    (resolve : Reference → String)
    (cs : List Char) : List Char :=
  match cs with
  | [] => []
  | '$' :: '\x7b' :: cs =>
      match reference? cs with
      | some (r, rest) =>
          if _shorter : rest.length < cs.length then
            (resolve r).toList ++ expandChars resolve rest
          else
            (resolve r).toList
      | none => '$' :: expandChars resolve ('\x7b' :: cs)
  | c :: cs => c :: expandChars resolve cs
termination_by cs.length

/- Put the values of variables for references in a text. -/
def expand
    (resolve : Reference → String)
    (text : String) : String :=
  String.ofList (expandChars resolve text.toList)

------------------------------------------------------------
-- Variables
------------------------------------------------------------

/-
  What a reference stands for: the environment counts before
  the lines above, and a key without a value is empty.
-/
def resolve
    (env : Table String String)
    (above : Table String (Option String))
    (r : Reference) : String :=
  match env.get? r.name with
  | some v => v
  | none =>
      match above.get? r.name with
      | some v => v.getD ""
      | none => r.fallback

/- The variables of a file; of two with one key the later. -/
def values
    (env : Table String String)
    (text : String) : Table String (Option String) :=
  (bindings text).foldl (fun above b =>
    above.insert b.key (b.value.map (expand (resolve env above))))
    .empty

/-
  An environment with the variables of a file. A variable that
  is set already keeps its value.
-/
def extend
    (env : Table String String)
    (text : String) : Table String String :=
  (values env text).entries.foldl (fun env e =>
    match e.2 with
    | some v => env.insertNew e.1 v
    | none => env) env

end EnvFile

end Uncaught
