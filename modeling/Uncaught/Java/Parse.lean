import Uncaught.Java.Grammar.Declarations

/-
  This file ties the readers of the parts of a Java source
  together. A grammar of depth `n + 1` reads the parts inside
  a part with the grammar of depth `n`, and no source nests
  deeper than it is long.

  Key definitions include:
    * `Java.Grammar.ofDepth`
    * `Java.Source.parse`
-/

namespace Uncaught

namespace Java

------------------------------------------------------------
-- Grammars By Depth
------------------------------------------------------------

/- The grammar that reads parts nested to the given depth. -/
def Grammar.ofDepth : Nat → Grammar
  | 0 => .nothing
  | n + 1 =>
      let g := Grammar.ofDepth n
      { expression := Grammar.expressionOf g
        type := Grammar.fullType g
        element := Grammar.elementValue g
        statement := Grammar.statementOf g
        members := Grammar.membersOf g }

------------------------------------------------------------
-- Parsing
------------------------------------------------------------

/- The compilation unit of a source, if it is well-formed. -/
def Source.parse
    (src : Source) : Option CompilationUnit :=
  let tokens := src.tokens
  let g := Grammar.ofDepth (3 * tokens.length + 3)
  ((Grammar.compilationUnit g) ⟨tokens, 0⟩).map Prod.fst

end Java

end Uncaught
