import Uncaught.Chain
import Uncaught.Text.Letter

/-
  This file defines the drawing of chains as a graph, and the
  DOT text of the drawing.

  Key definitions include:
    * `Dot.nodeId`
    * `Dot.quote`
    * `Dot.Item`
    * `Dot.drawing`
    * `Dot.Item.color`
    * `Dot.text`
-/

namespace Uncaught

namespace Dot

------------------------------------------------------------
-- Identifiers
------------------------------------------------------------

/- The characters that an identifier does not keep. -/
def special : List Char :=
  ":#()<>,.?[]".toList

/- The identifier of a node. -/
def nodeId
    (s : String) : String :=
  String.ofList (s.toList.map fun c =>
    if special.contains c then '_' else c)

------------------------------------------------------------
-- Quoting
------------------------------------------------------------

/- A text without one new line at its end. -/
def withoutNewline
    (cs : List Char) : List Char :=
  match cs.reverse with
  | '\n' :: rest => rest.reverse
  | _ => cs

/- Whether a text is an HTML-like text in angle brackets. -/
def isHtml : List Char → Bool
  | '<' :: cs => cs.getLast? == some '>'
  | _ => false

/- Whether a text is a name. -/
def isPlainName : List Char → Bool
  | c :: cs =>
      (c.isAlpha || c == '_')
        && cs.all (fun d => d.isAlphanum || d == '_')
  | [] => false

/- Whether a text is a row of digits, at least one. -/
def isDigits
    (cs : List Char) : Bool :=
  !cs.isEmpty && cs.all Char.isDigit

/- Whether a text is a number without its sign. -/
def isUnsigned
    (cs : List Char) : Bool :=
  match cs with
  | '.' :: rest => isDigits rest
  | _ =>
      match cs.span (· != '.') with
      | (whole, []) => isDigits whole
      | (whole, _ :: rest) =>
          isDigits whole && rest.all Char.isDigit

/- Whether a text is a number. -/
def isNumber : List Char → Bool
  | '-' :: cs => isUnsigned cs
  | cs => isUnsigned cs

/- The words of the DOT language. -/
def keywords : List String :=
  ["node", "edge", "graph", "digraph", "subgraph", "strict"]

/-
  The inside of a quoted text: a quote after an even number of
  backslashes gets a backslash before it. `odd` tells whether
  the number of backslashes just before is odd.
-/
def quoteChars
    (odd : Bool) : List Char → List Char
  | [] => []
  | '\\' :: cs => '\\' :: quoteChars (!odd) cs
  | '"' :: cs =>
      if odd then
        '"' :: quoteChars false cs
      else
        '\\' :: '"' :: quoteChars false cs
  | c :: cs => c :: quoteChars false cs

/-
  A text as an identifier or a value: as it is if it is an
  HTML-like text, a name that is no word of the language, or a
  number, and in quotes otherwise.
-/
def quote
    (s : String) : String :=
  let cs := withoutNewline s.toList
  if isHtml cs then
    s
  else if (isPlainName cs || isNumber cs)
      && !keywords.contains (Text.lowerWord s) then
    s
  else
    String.ofList ('"' :: quoteChars false s.toList ++ ['"'])

------------------------------------------------------------
-- Drawing
------------------------------------------------------------

/- A part of a drawing: a method, or a step between two. -/
inductive Item where
  | node (id label : String) (isSource : Bool)
  | edge (tail head : String) (exc : Option String)
      (handled : Bool)
  deriving DecidableEq, Repr

/- Whether a drawing has a node. -/
def hasNode
    (items : List Item)
    (id : String) : Bool :=
  items.any fun
    | .node id' _ _ => id' == id
    | _ => false

/- Whether a drawing has an edge for an exception. -/
def hasEdge
    (items : List Item)
    (tail head : String)
    (exc : Option String) : Bool :=
  items.any fun
    | .edge tail' head' exc' _ =>
        tail' == tail && head' == head && exc' == exc
    | _ => false

/- Add a method, unless its node is there. -/
def addNode
    (sources : List Signature)
    (items : List Item)
    (m : Signature) : List Item :=
  let id := nodeId m.text
  if hasNode items id then
    items
  else
    items ++ [.node id m.text (sources.contains m)]

/- Add a step for an exception, unless its edge is there. -/
def addEdge
    (items : List Item)
    (tail head : String)
    (exc : Option String)
    (handled : Bool) : List Item :=
  if hasEdge items tail head exc then
    items
  else
    items ++ [.edge tail head exc handled]

/-
  Add the steps of a chain above a node, up to the first caller
  that handles the exception.
-/
def addEntries
    (sources : List Signature)
    (exc : Option String)
    (tail : String)
    (items : List Item) : List Entry → List Item
  | [] => items
  | e :: entries =>
      let head := nodeId e.method.text
      let items := addNode sources items e.method
      let items := addEdge items tail head exc e.handled
      if e.handled then
        items
      else
        addEntries sources exc head items entries

/- Add a chain. -/
def addChain
    (sources : List Signature)
    (items : List Item)
    (c : Chain) : List Item :=
  let items := addNode sources items c.source
  addEntries sources c.exception (nodeId c.source.text) items
    c.entries

/- The drawing of chains. -/
def drawing
    (chains : List Chain) : List Item :=
  let sources := chains.map Chain.source
  chains.foldl (addChain sources) []

------------------------------------------------------------
-- Text
------------------------------------------------------------

/- The colour of a method that throws. -/
def sourceColor : String :=
  "#f8d7da"

/- The colour of a method that only passes exceptions on. -/
def callerColor : String :=
  "#cfe8f3"

/- The colour of a step into a method that handles. -/
def handledColor : String :=
  "#2e7d32"

/- The colour of a step into a method that does not handle. -/
def escapedColor : String :=
  "#c62828"

/- An attribute with its value. -/
def valueOf
    (key value : String) : String :=
  key ++ "=" ++ quote value

/- Attributes in brackets. -/
def inBrackets
    (parts : List String) : String :=
  " [" ++ Text.join " " parts ++ "]"

/- The colour of a part of a drawing. -/
def Item.color : Item → String
  | .node _ _ isSource =>
      if isSource then sourceColor else callerColor
  | .edge _ _ _ handled =>
      if handled then handledColor else escapedColor

/- The line of a part of a drawing. -/
def Item.line
    (i : Item) : String :=
  match i with
  | .node id label _ =>
      quote id ++ inBrackets [
        valueOf "label" label,
        valueOf "fillcolor" i.color]
  | .edge tail head exc _ =>
      quote tail ++ " -> " ++ quote head ++ inBrackets [
        valueOf "label" (exc.getD ""),
        valueOf "color" i.color,
        valueOf "fontcolor" i.color]

/- The line that sets how nodes look. -/
def nodeDefaults : String :=
  "node" ++ inBrackets [
    valueOf "fillcolor" callerColor,
    valueOf "shape" "box",
    valueOf "style" "filled"]

/- The name of the drawings of chains. -/
def defaultName : String :=
  "chains"

/- The first line of the text of a drawing. -/
def headLine
    (name : String) : String :=
  if name.isEmpty then
    "digraph \x7b"
  else
    "digraph " ++ quote name ++ " \x7b"

/- The DOT text of chains under a name. -/
def text
    (name : String)
    (chains : List Chain) : String :=
  let lines := (nodeDefaults :: (drawing chains).map Item.line)
    |>.map ("\t" ++ ·)
  String.join ((headLine name :: lines ++ ["\x7d"]).map
    (· ++ "\n"))

end Dot

end Uncaught
