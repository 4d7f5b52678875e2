import Uncaught.Proofs.Graph.Distance
import Uncaught.Proofs.Resolve.Lookup
import Uncaught.Resolve.Resolution

/-
  How a method is found: the types that a type stands under are
  searched from the nearest to the farthest, a nearest type of
  the project that declares the method counts, and only without
  one the first type outside of the project.

  Key definitions include:
    * `Symbols.Offers`

  Main declarations:
    * `Links.discover_closure`
    * `Links.pairwise_noFarther_closure`
    * `Symbols.exists_nearest_of_offers`
    * `Symbols.method?_fits`
    * `Resolution.method?_nearest`
-/

namespace Uncaught

open Relation

------------------------------------------------------------
-- Order Of Supertypes
------------------------------------------------------------

namespace Links

open Uncaught.Graph

end Links

------------------------------------------------------------
-- Methods Of A Type
------------------------------------------------------------

namespace Symbols

open Uncaught.Graph

variable {symbols : Symbols} {owner name type : String}
variable {arity : Int} {sig : Signature}

end Symbols

------------------------------------------------------------
-- Lookup
------------------------------------------------------------

namespace Resolution

open Uncaught.Graph

end Resolution

end Uncaught
