import Uncaught.Text.Cut

/-
  This file defines the options of the command line, and how
  they are read from its arguments.

  Key definitions include:
    * `Options`
    * `Switch`
    * `Choice`
    * `UsageError`
    * `Word.ofArgument`
    * `Request.ofArguments`
-/

namespace Uncaught

------------------------------------------------------------
-- Options
------------------------------------------------------------

/- What the command line asks for. -/
structure Options where
  project : String
  output : Option String := none
  method : Option String := none
  exact : Bool := false
  dot : Bool := false
  snapshot : Bool := false
  unknownIncompatible : Bool := false
  prefixes : List String := []
  verbose : Bool := false
  deriving DecidableEq, Repr

/- An option without a value. -/
inductive Switch where
  | help
  | exact
  | dot
  | snapshot
  | unknownIncompatible
  | verbose
  deriving DecidableEq, Repr

/- An option with a value. -/
inductive Choice where
  | project
  | output
  | method
  | platform
  deriving DecidableEq, Repr

/- An option. -/
inductive OptionKey where
  | switch (s : Switch)
  | choice (c : Choice)
  deriving DecidableEq, Repr

/- The options by their long names. -/
def longNames : List (String × OptionKey) := [
  ("--help", .switch .help),
  ("--project", .choice .project),
  ("--output", .choice .output),
  ("--method", .choice .method),
  ("--exact", .switch .exact),
  ("--dot", .switch .dot),
  ("--snapshot", .switch .snapshot),
  ("--unknown-incompatible", .switch .unknownIncompatible),
  ("--platform-prefix", .choice .platform),
  ("--verbose", .switch .verbose)]

/- The option for a letter. -/
def letterSwitch? : Char → Option Switch
  | 'h' => some .help
  | 'v' => some .verbose
  | _ => none

------------------------------------------------------------
-- Errors
------------------------------------------------------------

/- What can be wrong with the arguments. -/
inductive UsageError where
  | ambiguous (argument : String)
  | unrecognized (argument : String)
  | valueMissing (option : OptionKey)
  | valueUnexpected (argument : String)
  | projectMissing
  deriving DecidableEq, Repr

/- The long name of an option. -/
def OptionKey.name
    (k : OptionKey) : String :=
  ((longNames.find? (·.2 == k)).map Prod.fst).getD ""

/- What to say of wrong arguments. -/
def UsageError.message : UsageError → String
  | ambiguous a => "ambiguous option: " ++ a
  | unrecognized a => "unrecognized argument: " ++ a
  | valueMissing k => k.name ++ " needs a value"
  | valueUnexpected a => "unexpected value: " ++ a
  | projectMissing => "--project is needed"

------------------------------------------------------------
-- Words
------------------------------------------------------------

/-
  What an argument is: a value, some switches, or an option
  with a value that may follow.
-/
inductive Word where
  | value (s : String)
  | switches (ss : List Switch)
  | choice (c : Choice) (given : Option String)
  deriving DecidableEq, Repr

namespace Word

/- Whether a text is a number below zero. -/
def isNegative
    (s : String) : Bool :=
  match s.toList with
  | '-' :: cs =>
      let (whole, rest) := cs.span Char.isDigit
      match rest with
      | [] => !whole.isEmpty
      | '.' :: places =>
          !places.isEmpty && places.all Char.isDigit
      | _ => false
  | _ => false

/- The word for a long option. -/
def ofOption
    (argument : String)
    (given : Option String) : OptionKey → Except UsageError Word
  | .switch s =>
      match given with
      | none => .ok (.switches [s])
      | some _ => .error (.valueUnexpected argument)
  | .choice c => .ok (.choice c given)

/-
  The word for an argument that looks like an option and is
  none. With a blank in it, or as a number, it is a value.
-/
def ofOther
    (argument : String) : Except UsageError Word :=
  if isNegative argument || Text.hasChar argument ' ' then
    .ok (.value argument)
  else
    .error (.unrecognized argument)

/-
  The word for an argument with two dashes: a long name, or the
  start of exactly one, with its value after an equals sign.
-/
def ofLong
    (argument : String) : Except UsageError Word :=
  match longNames.lookup argument with
  | some k => ofOption argument none k
  | none =>
      let (name, given) := match Text.cutFirst '=' argument with
        | some (name, given) => (name, some given)
        | none => (argument, none)
      match longNames.lookup name with
      | some k => ofOption argument given k
      | none =>
          match longNames.filter (Text.startsWith ·.1 name) with
          | [] => ofOther argument
          | [(_, k)] => ofOption argument given k
          | _ => .error (.ambiguous argument)

/- The word for an argument with one dash and letters. -/
def ofLetters
    (argument : String)
    (letters : List Char) : Except UsageError Word :=
  match (letters.head?).bind letterSwitch? with
  | none => ofOther argument
  | some _ =>
      match letters.mapM letterSwitch? with
      | some ss => .ok (.switches ss)
      | none => .error (.valueUnexpected argument)

/- The word for an argument. -/
def ofArgument
    (argument : String) : Except UsageError Word :=
  match argument.toList with
  | ['-'] => .ok (.value argument)
  | ['-', '-'] => .error (.unrecognized argument)
  | '-' :: '-' :: _ => ofLong argument
  | '-' :: letters => ofLetters argument letters
  | _ => .ok (.value argument)

end Word

------------------------------------------------------------
-- Requests
------------------------------------------------------------

/- What the command line asks for: help, or an analysis. -/
inductive Request where
  | help
  | analysis (o : Options)
  deriving DecidableEq, Repr

namespace Request

/- Set a switch. -/
def setSwitch
    (o : Options) : Switch → Options
  | .help => o
  | .exact => { o with exact := true }
  | .dot => { o with dot := true }
  | .snapshot => { o with snapshot := true }
  | .unknownIncompatible => { o with unknownIncompatible := true }
  | .verbose => { o with verbose := true }

/-
  Set a value. The last one counts, and the prefixes of the
  platform add up. The project is set apart.
-/
def setChoice
    (project : Option String)
    (o : Options)
    (value : String) : Choice → Option String × Options
  | .project => (some value, o)
  | .output => (project, { o with output := some value })
  | .method => (project, { o with method := some value })
  | .platform =>
      (project, { o with prefixes := o.prefixes ++ [value] })

/- Read words, with the project and the options so far. -/
def read
    (project : Option String)
    (o : Options) : List Word → Except UsageError Request
  | [] =>
      match project with
      | some p => .ok (.analysis { o with project := p })
      | none => .error .projectMissing
  | .value s :: _ => .error (.unrecognized s)
  | .switches ss :: rest =>
      if ss.contains .help then
        .ok .help
      else
        read project (ss.foldl setSwitch o) rest
  | .choice c (some value) :: rest =>
      let (project, o) := setChoice project o value c
      read project o rest
  | .choice c none :: .value value :: rest =>
      let (project, o) := setChoice project o value c
      read project o rest
  | .choice c none :: _ => .error (.valueMissing (.choice c))

/- What the arguments of the command line ask for. -/
def ofArguments
    (arguments : List String) : Except UsageError Request := do
  read none { project := "" } (← arguments.mapM Word.ofArgument)

end Request

end Uncaught
