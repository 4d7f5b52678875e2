import Uncaught.Text.Cut

/-
  This file defines paths of files and directories.

  Key definitions include:
    * `Path`
    * `Path.ofString`
    * `Path.text`
    * `Path.inside?`
-/

namespace Uncaught

/-
  A path: the slashes that it starts with, and its parts. No
  part is empty or a single dot.
-/
structure Path where
  root : String
  parts : List String
  deriving DecidableEq, Repr

namespace Path

------------------------------------------------------------
-- Texts
------------------------------------------------------------

/- The slashes at the start of a path that count. -/
def rootOf : List Char → String
  | '/' :: '/' :: '/' :: _ => "/"
  | '/' :: '/' :: _ => "//"
  | '/' :: _ => "/"
  | _ => ""

/- The parts of a path. -/
def partsOf
    (s : String) : List String :=
  (Text.splitAll '/' s).filter fun p => !p.isEmpty && p != "."

/- The path that a text stands for. -/
def ofString
    (s : String) : Path :=
  ⟨rootOf s.toList, partsOf s⟩

/- The text of a path. -/
def text
    (p : Path) : String :=
  if p.root.isEmpty && p.parts.isEmpty then
    "."
  else
    p.root ++ Text.join "/" p.parts

/- The path of an entry of a directory. -/
def entry
    (p : Path)
    (name : String) : Path :=
  { p with parts := p.parts ++ [name] }

------------------------------------------------------------
-- Places
------------------------------------------------------------

/- One part further, where two dots go up. -/
def step
    (here : Option (List String))
    (part : String) : Option (List String) :=
  match here with
  | none => none
  | some here =>
      if part = ".." then
        if here.isEmpty then none else some here.dropLast
      else
        some (here ++ [part])

/-
  The place of a path in the working directory, if it does not
  lead out of it.
-/
def inside?
    (p : Path) : Option (List String) :=
  if p.root.isEmpty then
    p.parts.foldl step (some [])
  else
    none

/- The paths of the directories on the way to a path. -/
def ancestors
    (p : Path) : List Path :=
  (List.range p.parts.length).map fun n =>
    { p with parts := p.parts.take n }

end Path

end Uncaught
