import PolledConnection.Connection.Basic

/-! # Runs of a connection

  The operations of a connection as data, so that a run is a list of them.
-/

namespace PolledConnection.Connection

variable {σ : Type}

/-- An operation that a caller can ask for. -/
inductive Request where
  | beginOpen (tag : Tag)
  | beginClose (tag : Tag)
  | send (tag : Tag) (bytes : Bytes)
  | sendZeros (tag : Tag) (size : Nat)
  | poll (times : Nat)
  | setOption (name : String) (value : Setting)
  | retrieve
  | replay (options : Settings)
deriving DecidableEq

/-- The answer to a request. -/
inductive Answer where
  /-- The request has no answer. -/
  | nothing
  /-- The request was accepted, or why not. -/
  | accepted (r : Except Fault Unit)
  /-- The options of the transport. -/
  | settings (s : Settings)
deriving DecidableEq

/-- Serves one request. -/
def serve (T : Transport σ) : Request → Step σ Answer
  | .beginOpen tag => .accepted <$> beginOpen tag
  | .beginClose tag => .accepted <$> beginClose T tag
  | .send tag bytes => .accepted <$> send T tag bytes
  | .sendZeros tag size => .accepted <$> sendZeros T tag size
  | .poll times => (fun _ => .nothing) <$> pollTimes T times
  | .setOption name value => .accepted <$> setOption T name value
  | .retrieve => (fun c => .settings (retrieve T c)) <$> Act.get
  | .replay options => .accepted <$> replay T options.entries

/-- Serves requests in order. -/
def serveAll (T : Transport σ) (rs : List Request) : Step σ (List Answer) :=
  Act.oneByOne (serve T) rs

theorem serveAll_nil (T : Transport σ) : serveAll T [] = pure [] := rfl

theorem serveAll_cons (T : Transport σ) (r : Request) (rs : List Request) :
    serveAll T (r :: rs) = (do
      let answer ← serve T r
      let answers ← serveAll T rs
      return answer :: answers) := rfl

end PolledConnection.Connection
