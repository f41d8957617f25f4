/-! # Capabilities

  Which options a TLS engine or a transport can act on. There are four, and a
  set of them is written as a number with one bit each (`bits`); bits beyond
  the four are dropped when a number is read (`ofBits`).
-/

namespace PolledConnection

/-- A set of the four capabilities. -/
structure Capabilities where
  /-- Trusted certificates can be supplied. -/
  trustedCerts : Bool
  /-- An RSA client certificate with its key can be supplied. -/
  rsaCredentials : Bool
  /-- An elliptic curve client certificate with its key can be supplied. -/
  eccCredentials : Bool
  /-- Keepalive probes on the socket can be switched. -/
  tcpKeepAlive : Bool
deriving DecidableEq, Repr

namespace Capabilities

/-- No capability. -/
def none : Capabilities := ⟨false, false, false, false⟩

/-- Keepalive only: what a TCP socket adds to the capabilities of an engine. -/
def keepAliveOnly : Capabilities := { none with tcpKeepAlive := true }

/-- The capabilities whose bit is set in a number. -/
def ofBits (n : Nat) : Capabilities :=
  ⟨n.testBit 0, n.testBit 1, n.testBit 2, n.testBit 3⟩

/-- The number with the bits of the set. -/
def bits (c : Capabilities) : Nat :=
  c.trustedCerts.toNat + 2 * c.rsaCredentials.toNat + 4 * c.eccCredentials.toNat +
    8 * c.tcpKeepAlive.toNat

/-- Whether a number has no bit beyond the four. -/
def isExact (n : Nat) : Bool := (ofBits n).bits == n

/-- What is in one of the two sets. -/
def union (a b : Capabilities) : Capabilities where
  trustedCerts := a.trustedCerts || b.trustedCerts
  rsaCredentials := a.rsaCredentials || b.rsaCredentials
  eccCredentials := a.eccCredentials || b.eccCredentials
  tcpKeepAlive := a.tcpKeepAlive || b.tcpKeepAlive

/-- Whether `a` has every capability of `b`. -/
def contains (a b : Capabilities) : Bool := a.union b == a

/-- Whether there is no capability. -/
def isEmpty (c : Capabilities) : Bool := c == none

/-- The names of the capabilities in the set, lowest bit first. -/
def names (c : Capabilities) : List String :=
  [(c.trustedCerts, "TRUSTED_CERTS"), (c.rsaCredentials, "X509_RSA_CERT"),
    (c.eccCredentials, "X509_ECC_CERT"), (c.tcpKeepAlive, "TCP_KEEPALIVE")].filterMap
    fun entry => if entry.1 then some entry.2 else Option.none

/-- A set is determined by its number. -/
@[simp] theorem ofBits_bits (c : Capabilities) : ofBits c.bits = c := by
  obtain ⟨a, b, d, e⟩ := c
  revert a b d e
  decide

end Capabilities

end PolledConnection
