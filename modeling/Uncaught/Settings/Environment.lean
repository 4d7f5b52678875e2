import Uncaught.Data.Table
import Uncaught.Settings
import Uncaught.Text.Blank
import Uncaught.Text.Letter
import Uncaught.Text.Quoted

/-
  This file defines the settings that the variables of an
  environment give.

  Key definitions include:
    * `SettingsError`
    * `SettingsError.message`
    * `Settings.ofEnvironment`
-/

namespace Uncaught

------------------------------------------------------------
-- Errors
------------------------------------------------------------

/- A variable is neither true nor false. -/
structure SettingsError where
  variableName : String
  value : String
  deriving DecidableEq, Repr

/- What to say of a variable that is neither true nor false. -/
def SettingsError.message
    (e : SettingsError) : String :=
  e.variableName ++ " must be true or false, got "
    ++ Text.quoted e.value

namespace Settings

------------------------------------------------------------
-- Variables
------------------------------------------------------------

/- The variable for the prefixes of the platform. -/
def prefixesVariable : String :=
  "EXCEPTION_GRAPH_PLATFORM_PREFIXES"

/- The variable for the answer where a class is unknown. -/
def unknownVariable : String :=
  "EXCEPTION_GRAPH_UNKNOWN_COMPATIBLE"

/- The variable for the place of the output. -/
def outputVariable : String :=
  "EXCEPTION_GRAPH_OUTPUT_DIR"

/- Words for true. -/
def trueWords : List String :=
  ["1", "true", "yes", "on"]

/- Words for false. -/
def falseWords : List String :=
  ["0", "false", "no", "off"]

/- Read a variable that is true or false. -/
def readTruth
    (name value : String) : Except SettingsError Bool :=
  let word := Text.lowerWord (Text.trim value)
  if trueWords.contains word then
    .ok true
  else if falseWords.contains word then
    .ok false
  else
    .error ⟨name, value⟩

/- Read a list with commas, without its empty parts. -/
def readList
    (value : String) : List String :=
  ((Text.splitAll ',' value).map Text.trim).filter
    (!·.isEmpty)

/- The settings of an environment. -/
def ofEnvironment
    (env : Table String String) :
    Except SettingsError Settings := do
  let base : Settings := {}
  let unknown ← (env.get? unknownVariable).mapM
    (readTruth unknownVariable)
  let output := (env.get? outputVariable).filter (!·.isEmpty)
  return {
    prefixes := ((env.get? prefixesVariable).map readList).getD
      base.prefixes
    unknownCompatible := unknown.getD base.unknownCompatible
    outputDir := output.getD base.outputDir }

end Settings

end Uncaught
