import Uncaught.Text.Cut

/-
  This file defines the settings of an analysis.

  Key definitions include:
    * `Settings`
    * `Settings.isPlatform`
-/

namespace Uncaught

/-
  The prefixes of the packages whose methods throw what they
  declare, the answer where a class is unknown, and the place
  for the output.
-/
structure Settings where
  prefixes : List String := ["java", "javax"]
  unknownCompatible : Bool := true
  outputDir : String := "tmp/chains_out"
  deriving DecidableEq, Repr

namespace Settings

/-
  Whether a package belongs to the platform: whether it starts
  with one of the given prefixes, or with one of the settings'
  if none are given.
-/
def isPlatform
    (s : Settings)
    (package : Option String)
    (prefixes : Option (List String)) : Bool :=
  match package with
  | none => false
  | some package =>
      !package.isEmpty
        && (prefixes.getD s.prefixes).any
          (Text.startsWith package)

end Settings

end Uncaught
