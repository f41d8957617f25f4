import PolledConnection.Act
import PolledConnection.Effect
import PolledConnection.Network.Literal

/-! # Resolvers

  A resolver turns a host name into an address. It may not know yet, and it
  may fail for the moment; both mean that it is asked again later.

  `Resolver.ofHosts` is the resolver that asks nobody: it knows address
  literals and a table of names, and fails for all others.
-/

namespace PolledConnection

/-- A resolver with state `ρ`. -/
structure Resolver (ρ : Type) where
  /-- Looks a host name up. -/
  lookup : String → UInt16 → ρ → Except Fault (Option Address) × ρ

namespace Resolver

/-- Looks a host name up, and records that with the answer. -/
def ask {ρ : Type} (res : Resolver ρ) (hostname : String) (port : UInt16) :
    Act Effect ρ (Except Fault (Option Address)) := do
  let (answer, r) := res.lookup hostname port (← Act.get)
  Act.put r
  Act.emit (.lookedUp hostname port answer)
  return answer

@[simp] theorem run_ask {ρ : Type} (res : Resolver ρ) (hostname : String) (port : UInt16) (r : ρ) :
    (res.ask hostname port).run r =
      let (answer, r) := res.lookup hostname port r
      ⟨answer, r, [.lookedUp hostname port answer]⟩ := rfl

/-- The names that every machine knows. -/
def localNames : List (String × Host) := [("localhost", .v4 127 0 0 1)]

/-- The host of a name: the name itself if it is a literal, else what the table says. -/
def hostOf? (names : List (String × Host)) (hostname : String) : Option Host :=
  Host.ofLiteral? hostname <|> names.lookup hostname

/-- The address of a host name. -/
def resolve (names : List (String × Host)) (hostname : String) (port : UInt16) :
    Except Fault (Option Address) :=
  match hostOf? names hostname with
  | some host => .ok (some ⟨host, port⟩)
  | none => .error (.unresolved hostname)

/-- The resolver that knows literals and a table of names. -/
def ofHosts (names : List (String × Host)) : Resolver Unit where
  lookup hostname port s := (resolve names hostname port, s)

end Resolver

end PolledConnection
