/-
  This file defines Java sources as bytes, and the places in
  them.

  Key definitions include:
    * `Java.Span`
    * `Java.Source`
    * `Java.Source.text`
    * `Java.Source.lineAt`
-/

namespace Uncaught

namespace Java

------------------------------------------------------------
-- Spans
------------------------------------------------------------

/-
  A stretch of a source, from the offset of its first byte to
  the offset after its last byte.
-/
structure Span where
  start : Nat
  stop : Nat
  deriving DecidableEq, Repr, Inhabited

------------------------------------------------------------
-- Sources
------------------------------------------------------------

/- The bytes of one source file. -/
structure Source where
  bytes : ByteArray

/- Some stretch of a source is not well-formed UTF-8. -/
inductive TextError where
  | undecodable
  deriving DecidableEq, Repr

namespace Source

/- The source of a text. -/
def ofString
    (s : String) : Source :=
  ⟨s.toUTF8⟩

/- The text of a stretch of the source. -/
def text
    (src : Source)
    (span : Span) : Except TextError String :=
  match String.fromUTF8? (src.bytes.extract span.start span.stop) with
  | some s => .ok s
  | none => .error .undecodable

/-
  The line of an offset, counted from one; only a line feed
  ends a line.
-/
def lineAt
    (src : Source)
    (offset : Nat) : Nat :=
  (src.bytes.extract 0 offset).toList.count 10 + 1

/- The lines of the first and of the last byte of a stretch. -/
def lines
    (src : Source)
    (span : Span) : Nat × Nat :=
  (src.lineAt span.start, src.lineAt span.stop)

end Source

end Java

end Uncaught
