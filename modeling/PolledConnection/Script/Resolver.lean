import PolledConnection.Network.Resolver

/-! # Scripted resolvers

  A resolver that gives prepared answers, and does not know once they have run
  out.
-/

namespace PolledConnection.Script

/-- The answers to come. -/
abbrev Lookups : Type := List (Except Fault (Option Address))

/-- The scripted resolver. -/
def resolver : PolledConnection.Resolver Lookups where
  lookup _ _ answers :=
    match answers with
    | [] => (.ok none, [])
    | answer :: rest => (answer, rest)

end PolledConnection.Script
