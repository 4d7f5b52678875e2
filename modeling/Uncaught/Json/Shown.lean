import Uncaught.Json.Real
import Uncaught.Text.Cut
import Uncaught.Text.Quoted

/-
  This file defines how messages show JSON values.

  Key definitions include:
    * `Json.shown`
-/

namespace Uncaught

namespace Json

mutual

/- A value as a message shows it. -/
def shown : Json → String
  | null => "None"
  | bool true => "True"
  | bool false => "False"
  | int n => toString n
  | real x => x.shown
  | str s => Text.quoted s
  | arr items => "[" ++ Text.join ", " (shownItems items) ++ "]"
  | obj fields =>
      "\x7b" ++ Text.join ", " (shownFields fields) ++ "\x7d"

/- The items of an array as a message shows them. -/
def shownItems : List Json → List String
  | [] => []
  | v :: vs => shown v :: shownItems vs

/- The fields of an object as a message shows them. -/
def shownFields : List (String × Json) → List String
  | [] => []
  | (k, v) :: fields =>
      (Text.quoted k ++ ": " ++ shown v) :: shownFields fields

end

end Json

end Uncaught
