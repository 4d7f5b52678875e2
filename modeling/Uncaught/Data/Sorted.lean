/-
  This file defines the sorted form of a set of names.

  Key definitions include:
    * `sortNames`
    * `nameSet`
-/

namespace Uncaught

/- Names in increasing order, by code points. -/
def sortNames
    (names : List String) : List String :=
  names.mergeSort (fun a b => decide (a ≤ b))

/- The names of a list, each once, in increasing order. -/
def nameSet
    (names : List String) : List String :=
  sortNames names.eraseDups

end Uncaught
