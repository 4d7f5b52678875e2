import Uncaught.Command.Analysis
import Uncaught.Command.Options
import Uncaught.Database.Snapshot
import Uncaught.Dot
import Uncaught.Json.Printer
import Uncaught.Settings.Environment

/-
  This file defines a run of the command line as a function of
  the files, the environment and the arguments: what it prints,
  what it writes, and how it ends.

  Key definitions include:
    * `Run`
    * `Run.log`
    * `Run.newFiles`
    * `Command.drawNotice`
    * `Command.run`
-/

namespace Uncaught

------------------------------------------------------------
-- Runs
------------------------------------------------------------

/- Why a run breaks off. -/
inductive RunError where
  | analysis (e : AnalysisError)
  | snapshot (e : Json.ReadError)
  | files (e : FileError)

/- How a run ends. -/
inductive Ending where
  | exit (code : Nat)
  | usage (e : UsageError)
  | failure (e : RunError)

/-
  A run: how it ends, what it prints, what it reports, which of
  the reports are shown, and the files that it writes.
-/
structure Run where
  ending : Ending
  out : String := ""
  events : List Event := []
  verbose : Bool := false
  written : List (Path × String) := []

namespace Run

/- Whether an event is shown. -/
def shows
    (verbose : Bool)
    (e : Event) : Bool :=
  verbose || e.level == .warning

/- The log of a run. -/
def log
    (r : Run) : String :=
  String.join ((r.events.filter (shows r.verbose)).map
    fun e => e.line ++ "\n")

/- The files in the working directory that a run adds. -/
def newFiles
    (r : Run)
    (t : FileTree) : List (String × String) :=
  r.written.filterMap fun (p, contents) =>
    match p.inside? with
    | none => none
    | some parts =>
        if t.files.contains parts then
          none
        else
          some (Text.join "/" parts, contents)

end Run

namespace Command

------------------------------------------------------------
-- Settings
------------------------------------------------------------

/- The settings of the environment and the options. -/
def settings
    (env : Table String String)
    (o : Options) : Except SettingsError Settings := do
  let s ← Settings.ofEnvironment env
  let output := o.output.filter (!·.isEmpty)
  return {
    prefixes := if o.prefixes.isEmpty then
        s.prefixes
      else
        o.prefixes
    unknownCompatible :=
      s.unknownCompatible && !o.unknownIncompatible
    outputDir := output.getD s.outputDir }

------------------------------------------------------------
-- Texts
------------------------------------------------------------

/- Lines as a text. -/
def lines
    (ls : List String) : String :=
  String.join (ls.map (· ++ "\n"))

/- The line for a run that cannot start. -/
def errorLine
    (message : String) : String :=
  "❌ Error: " ++ message ++ "\n"

/- The line at the start of an analysis. -/
def startLine : String :=
  "🔍 Analyzing project...\n"

/- A rule across the screen. -/
def rule : String :=
  String.ofList (List.replicate 60 '=')

/- How many escaping chains are shown. -/
def shownChains : Nat :=
  5

/- The line for an escaping chain. -/
def chainLine
    (c : Chain) : String :=
  "  • " ++ c.exception.getD "None" ++ ": "
    ++ Text.join " <- " (c.methods.map Signature.text)

/- The summary at the end of an analysis. -/
def summary
    (db : Database)
    (sources : List Signature)
    (chains : List Chain)
    (output : Path) : String :=
  let escaping := chains.filter Chain.escapes
  let more := escaping.length - shownChains
  lines (["", rule, "📊 EXCEPTION CHAINS", rule, "",
      "📁 Methods: " ++ toString db.facts.size,
      "📁 Classes: " ++ toString db.classes.size,
      "🎯 Exception sources: " ++ toString sources.length,
      "🎯 Chains: " ++ toString chains.length,
      "⚠️  Escaping chains: " ++ toString escaping.length]
    ++ (escaping.take shownChains).map chainLine
    ++ (if 0 < more then
        ["  ... and " ++ toString more ++ " more"]
      else
        [])
    ++ ["", "✅ Wrote: " ++ output.text, "", rule])

/- The lines for a drawing that stays a DOT text. -/
def drawNotice
    (reason : String) : String :=
  lines [
    "Warning: Could not generate graphs: " ++ reason,
    "Make sure Graphviz is installed and available in PATH"]

/- The reason why a drawing is not rendered. -/
def noRenderer : String :=
  "failed to execute PosixPath('dot'), make sure the Graphviz "
    ++ "executables are on your systems' PATH"

/- The reason why a drawing is not written. -/
def noDrawing
    (p : Path) : String :=
  "[Errno 21] Is a directory: " ++ Text.quoted p.text

------------------------------------------------------------
-- Output
------------------------------------------------------------

/- What a run of an analysis has to write. -/
structure Results where
  database : Database
  sources : List Signature
  chains : List Chain

/- The sources that are asked for, and their chains. -/
def results
    (o : Options)
    (db : Database) : Outcome Results := do
  let all ← db.sources none
  let sources := match o.method with
    | some text => all.filter (Text.contains ·.text text)
    | none => all
  return ⟨db, sources, ← db.chains o.exact sources⟩

/- Write a file, unless an earlier one failed. -/
def write
    (t : FileTree)
    (path : Path)
    (contents : String)
    (r : Run) : Run :=
  match r.ending with
  | .exit _ =>
      match t.checkWrite path with
      | .ok () => { r with written := r.written ++ [(path, contents)] }
      | .error e => { r with ending := .failure (.files e) }
  | _ => r

/- Write the snapshot of a database. -/
def writeSnapshot
    (t : FileTree)
    (output : Path)
    (db : Database)
    (r : Run) : Run :=
  match db.dump with
  | .ok text => write t (output.entry "snapshot.json") text r
  | .error e =>
      match r.ending with
      | .exit _ => { r with ending := .failure (.snapshot e) }
      | _ => r

/- Write the drawing of chains. -/
def writeDrawing
    (t : FileTree)
    (output : Path)
    (chains : List Chain)
    (r : Run) : Run :=
  let path := output.entry "chains"
  match r.ending, t.checkWrite path with
  | .exit _, .ok () =>
      { r with
        out := r.out ++ drawNotice noRenderer
        written := r.written
          ++ [(path, Dot.text Dot.defaultName chains)] }
  | .exit _, .error _ =>
      { r with out := r.out ++ drawNotice (noDrawing path) }
  | _, _ => r

/- Print the summary, unless something failed. -/
def finish
    (results : Results)
    (output : Path)
    (r : Run) : Run :=
  match r.ending with
  | .exit _ =>
      let text := summary results.database results.sources
        results.chains output
      { r with out := r.out ++ text }
  | _ => r

/- Write the results of an analysis and print the summary. -/
def deliver
    (t : FileTree)
    (o : Options)
    (output : Path)
    (results : Results)
    (r : Run) : Run :=
  match t.checkMake output with
  | .error e => { r with ending := .failure (.files e) }
  | .ok () =>
      let chains := Json.toLines (results.chains.map Chain.toJson)
      let r := write t (output.entry "chains.jsonl") chains r
      let r := if o.snapshot then
          writeSnapshot t output results.database r
        else
          r
      let r := if o.dot then
          writeDrawing t output results.chains r
        else
          r
      finish results output r

------------------------------------------------------------
-- Commands
------------------------------------------------------------

/- Analyse a project and write the results. -/
def analyse
    (t : FileTree)
    (o : Options)
    (s : Settings)
    (root : Path) : Run :=
  let started : Run :=
    { ending := .exit 0
      out := startLine
      verbose := o.verbose }
  let outcome : Except AnalysisError (Analysis × Results) := do
    let a ← Analysis.ofTree s t root
    return (a, ← (results o a.database).mapError .database)
  match outcome with
  | .error e => { started with ending := .failure (.analysis e) }
  | .ok (a, results) =>
      deliver t o (Path.ofString s.outputDir) results
        { started with events := a.events }

/- Run the command line with options. -/
def runOptions
    (t : FileTree)
    (env : Table String String)
    (o : Options) : Run :=
  let root := Path.ofString o.project
  if !t.isDirectory root then
    { ending := .exit 1
      out := errorLine
        ("Project path is not a directory: " ++ root.text) }
  else
    match settings env o with
    | .error e => { ending := .exit 1, out := errorLine e.message }
    | .ok s => analyse t o s root

/- The names of the options. -/
def help : String :=
  lines ("Options:" :: longNames.map fun (name, _) => "  " ++ name)

/- Run the command line. -/
def run
    (t : FileTree)
    (env : Table String String)
    (arguments : List String) : Run :=
  match Request.ofArguments arguments with
  | .error e => { ending := .usage e }
  | .ok .help => { ending := .exit 0, out := help }
  | .ok (.analysis o) => runOptions t env o

end Command

end Uncaught
