import Uncaught.Java.Source

/-
  This file defines the tokens of a Java source. A source is
  read byte by byte, each byte as the character of its value:
  the bytes of a character beyond ASCII all belong to the word
  around them, and what a literal or a comment holds does not
  matter.

  Key definitions include:
    * `Java.Lexeme`
    * `Java.Token`
    * `Java.lexeme`
    * `Java.Token.scan`
    * `Java.Source.tokens`
-/

namespace Uncaught

namespace Java

------------------------------------------------------------
-- Lexemes
------------------------------------------------------------

/- What a stretch of a source can be. -/
inductive Lexeme where
  | space
  | comment
  | word
  | number
  | literal
  | mark
  deriving DecidableEq, Repr

/- The bytes between tokens. -/
def isSpace
    (c : Char) : Bool :=
  c == ' ' || (9 ≤ c.toNat && c.toNat ≤ 13)

/- The bytes that a word starts with. -/
def isWordStart
    (c : Char) : Bool :=
  c.isAlpha || c == '_' || c == '$' || 0x80 ≤ c.toNat

/- The bytes of a word. -/
def isWordChar
    (c : Char) : Bool :=
  isWordStart c || c.isDigit

/- The bytes of a number, the sign of its power apart. -/
def isNumberChar
    (c : Char) : Bool :=
  c.isAlphanum || c == '_' || c == '.'

/- Whether a letter of a number starts a power. -/
def startsPower
    (hex : Bool)
    (c : Char) : Bool :=
  if hex then
    c == 'p' || c == 'P'
  else
    c == 'e' || c == 'E'

/- The number of bytes that go on with a number. -/
def numberLength
    (hex : Bool) : List Char → Nat
  | [] => 0
  | [c] => if isNumberChar c then 1 else 0
  | c :: d :: cs =>
      if startsPower hex c && (d == '+' || d == '-') then
        numberLength hex cs + 2
      else if isNumberChar c then
        numberLength hex (d :: cs) + 1
      else
        0

/- The number of bytes through the closing quote. -/
def quotedLength
    (quote : Char) : List Char → Nat
  | [] => 0
  | [_] => 1
  | c :: d :: cs =>
      if c == '\\' then
        quotedLength quote cs + 2
      else if c == quote then
        1
      else
        quotedLength quote (d :: cs) + 1

/- The number of bytes through three closing quotes. -/
def textBlockLength : List Char → Nat
  | '\\' :: _ :: cs => textBlockLength cs + 2
  | '"' :: '"' :: '"' :: _ => 3
  | _ :: cs => textBlockLength cs + 1
  | [] => 0

/- The number of bytes through the end of a block comment. -/
def blockLength : List Char → Nat
  | '*' :: '/' :: _ => 2
  | _ :: cs => blockLength cs + 1
  | [] => 0

/- The number of bytes before the end of the line. -/
def lineLength
    (cs : List Char) : Nat :=
  (cs.takeWhile (· != '\n')).length

/-
  What starts at a byte, and how many more bytes belong to it.
  A closing angle bracket is a mark of its own, so that two of
  them can close two lists of type arguments.
-/
def lexeme
    (c : Char)
    (cs : List Char) : Lexeme × Nat :=
  if isSpace c then
    (.space, 0)
  else if isWordStart c then
    (.word, (cs.takeWhile isWordChar).length)
  else if c.isDigit then
    let hex :=
      c == '0' && (cs.head? == some 'x' || cs.head? == some 'X')
    (.number, numberLength hex cs)
  else
    match c, cs with
    | '/', '/' :: rest => (.comment, lineLength rest + 1)
    | '/', '*' :: rest => (.comment, blockLength rest + 1)
    | '"', '"' :: '"' :: rest =>
        (.literal, textBlockLength rest + 2)
    | '"', _ => (.literal, quotedLength '"' cs)
    | '\'', _ => (.literal, quotedLength '\'' cs)
    | '.', '.' :: '.' :: _ => (.mark, 2)
    | '.', d :: _ =>
        if d.isDigit then
          (.number, numberLength false cs)
        else
          (.mark, 0)
    | '-', '>' :: _ => (.mark, 1)
    | '-', '-' :: _ => (.mark, 1)
    | '+', '+' :: _ => (.mark, 1)
    | ':', ':' :: _ => (.mark, 1)
    | _, _ => (.mark, 0)

------------------------------------------------------------
-- Tokens
------------------------------------------------------------

/-
  A token with the bytes it is made of, its place, and the
  first comment between it and the token before it.
-/
structure Token where
  kind : Lexeme
  text : String
  span : Span
  comment : Option Span
  deriving DecidableEq, Repr

namespace Token

/-
  The tokens of the bytes from an offset on, where `comment`
  is the first comment since the token before.
-/
def scan
    (offset : Nat)
    (comment : Option Span) : List Char → List Token
  | [] => []
  | c :: cs =>
      let (kind, more) := lexeme c cs
      let span : Span := ⟨offset, offset + more + 1⟩
      let rest := cs.drop more
      match kind with
      | .space => scan span.stop comment rest
      | .comment =>
          scan span.stop (comment.or (some span)) rest
      | kind =>
          { kind
            text := String.ofList (c :: cs.take more)
            span
            comment } :: scan span.stop none rest
termination_by cs => cs.length
decreasing_by
  all_goals
    simp only [List.length_drop, List.length_cons]
    omega

/- Whether a token is the given mark. -/
def isMark
    (t : Token)
    (s : String) : Bool :=
  t.kind == .mark && t.text == s

/- Whether a token is the given word. -/
def isWord
    (t : Token)
    (s : String) : Bool :=
  t.kind == .word && t.text == s

end Token

/- The words that are never names. -/
def reserved : List String :=
  ["abstract", "assert", "boolean", "break", "byte", "case",
    "catch", "char", "class", "const", "continue", "default",
    "do", "double", "else", "enum", "extends", "final",
    "finally", "float", "for", "goto", "if", "implements",
    "import", "instanceof", "int", "interface", "long",
    "native", "new", "package", "private", "protected",
    "public", "return", "short", "static", "strictfp", "super",
    "switch", "synchronized", "this", "throw", "throws",
    "transient", "try", "void", "volatile", "while", "true",
    "false", "null"]

/- The words that are types by themselves. -/
def primitiveTypes : List String :=
  ["byte", "short", "int", "long", "float", "double",
    "boolean", "char", "void"]

/-
  The tokens of a source. A byte order mark at its start is
  passed over.
-/
def Source.tokens
    (src : Source) : List Token :=
  let cs := src.bytes.toList.map (fun b => Char.ofNat b.toNat)
  match cs.map Char.toNat with
  | 0xEF :: 0xBB :: 0xBF :: _ => Token.scan 3 none (cs.drop 3)
  | _ => Token.scan 0 none cs

end Java

end Uncaught
