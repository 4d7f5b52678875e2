import Uncaught.Data.Table
import Uncaught.Files.Path

/-
  This file defines the tree of files in a working directory,
  and the search for files in it.

  Key definitions include:
    * `FileTree`
    * `FileTree.ofEntries`
    * `FileTree.isDirectory`
    * `FileTree.find`
    * `FileError`
    * `FileTree.checkMake`
    * `FileTree.checkWrite`
-/

namespace Uncaught

------------------------------------------------------------
-- Trees
------------------------------------------------------------

/- The files with their contents, and the directories. -/
structure FileTree where
  files : Table (List String) ByteArray
  directories : List (List String)

namespace FileTree

/- The tree without files. -/
def empty : FileTree :=
  ⟨.empty, [[]]⟩

/-
  Add an entry: a file, or a directory if the path ends with a
  slash. The directories on the way are there, too.
-/
def add
    (t : FileTree)
    (path : String)
    (contents : ByteArray) : FileTree :=
  let parts := Path.partsOf path
  let above := (List.range parts.length).map parts.take
  if Text.endsWith path "/" then
    { t with directories :=
        (t.directories ++ above ++ [parts]).eraseDups }
  else
    { files := t.files.insert parts contents
      directories := (t.directories ++ above).eraseDups }

/- The tree of some entries. -/
def ofEntries
    (entries : List (String × ByteArray)) : FileTree :=
  entries.foldl (fun t e => t.add e.1 e.2) empty

/- Whether a path in the tree is a directory. -/
def hasDirectory
    (t : FileTree)
    (p : Path) : Bool :=
  match p.inside? with
  | some parts => t.directories.contains parts
  | none => false

/- Whether a path in the tree is a file. -/
def hasFile
    (t : FileTree)
    (p : Path) : Bool :=
  match p.inside? with
  | some parts => t.files.contains parts
  | none => false

/-
  Whether a path leads to a directory, through directories
  only.
-/
def isDirectory
    (t : FileTree)
    (p : Path) : Bool :=
  p.ancestors.all t.hasDirectory && t.hasDirectory p

------------------------------------------------------------
-- Search
------------------------------------------------------------

/- The directories that hold no sources. -/
def skipped : List String :=
  [".git", ".svn", ".hg", "build", "target", "out",
    "node_modules"]

/-
  The end of a name from its last dot on, if something stands
  before and after the dot.
-/
def suffix
    (name : String) : String :=
  match Text.cutLast '.' name with
  | none => ""
  | some (before, after) =>
      if before.isEmpty || after.isEmpty then
        ""
      else
        "." ++ after

/- Whether a file is looked for. -/
def isWanted
    (suffixes : List String)
    (parts : List String) : Bool :=
  suffixes.contains (suffix (parts.getLast?.getD ""))
    && !parts.dropLast.any skipped.contains

/-
  The files under a directory whose names end with one of the
  suffixes, as paths from the directory on with their contents,
  in the order of their parts.
-/
def find
    (t : FileTree)
    (directory : List String)
    (suffixes : List String) :
    List (List String × ByteArray) :=
  let below := t.files.entries.filterMap fun (parts, contents) =>
    if directory.isPrefixOf parts then
      some (parts.drop directory.length, contents)
    else
      none
  (below.filter fun e => isWanted suffixes e.1).mergeSort
    fun a b => (compare a.1 b.1).isLE

------------------------------------------------------------
-- Changes
------------------------------------------------------------

end FileTree

/- Why a directory cannot be made or a file not written. -/
inductive FileError where
  | occupied (p : Path)
  | notDirectory (p : Path)
  | isDirectory (p : Path)
  deriving DecidableEq, Repr

namespace FileTree

/-
  Fail if a directory and those on the way to it cannot be
  made; those that are there stay.
-/
def checkMake
    (t : FileTree)
    (p : Path) : Except FileError Unit :=
  if p.ancestors.any t.hasFile then
    .error (.notDirectory p)
  else if t.hasFile p then
    .error (.occupied p)
  else
    .ok ()

/- Fail if a file cannot be written. -/
def checkWrite
    (t : FileTree)
    (p : Path) : Except FileError Unit :=
  if t.hasDirectory p then .error (.isDirectory p) else .ok ()

end FileTree

end Uncaught
