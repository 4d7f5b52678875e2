import Uncaught.Database.Build
import Uncaught.Database.Query
import Uncaught.Files.Tree
import Uncaught.Java.Outline
import Uncaught.Resolve.Resolution

/-
  This file defines the analysis of the Java files under a
  directory, up to the database of the project.

  Key definitions include:
    * `AnalysisError`
    * `Analysis`
    * `Analysis.ofTree`
-/

namespace Uncaught

/- Why a project cannot be analysed. -/
inductive AnalysisError where
  | source (e : Java.SourceError)
  | summary (e : MissingKey)
  | database (e : DatabaseError)

/- The database of a project, and what was reported. -/
structure Analysis where
  database : Database
  events : List Event

namespace Analysis

/- The suffixes of the files that are read. -/
def sourceSuffixes : List String :=
  [".java"]

/- The summaries of the files under a directory. -/
def summaries
    (t : FileTree)
    (root : Path) : Except Java.SourceError (List FileSummary) :=
  let found := t.find (root.inside?.getD []) sourceSuffixes
  found.mapM fun (parts, contents) =>
    (Java.Source.mk contents).summary
      { root with parts := root.parts ++ parts }.text

/- The analysis of the summaries of a project. -/
def ofSummaries
    (settings : Settings)
    (files : List FileSummary) : Except AnalysisError Analysis := do
  let r ← (Resolution.ofFiles files).mapError .summary
  let db ← (r.populate (.empty settings)).mapError .database
  let b := db.build
  match b.failure with
  | some e => throw (.database e)
  | none =>
      return ⟨b.database, r.events ++ r.report :: b.events⟩

/- The analysis of the files under a directory. -/
def ofTree
    (settings : Settings)
    (t : FileTree)
    (root : Path) : Except AnalysisError Analysis := do
  let files ← (summaries t root).mapError .source
  let a ← ofSummaries settings files
  return { a with
    events := .parsed files.length root.text :: a.events }

end Analysis

end Uncaught
