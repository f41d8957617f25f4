import PolledConnection.Capability
import PolledConnection.Fault
import PolledConnection.Setting

/-! # Options of a TLS session

  Trusted certificates, and a client certificate with its private key. The
  two credentials are of one family, RSA or elliptic curve, which the first
  of them fixes for good. An option is stored as a whole or refused without
  effect (`set_of_refused`).

  Certificate and key may be set in any order and at any time, so a store can
  be inconsistent for a while; `checkConsistency` finds that.
-/

namespace PolledConnection.Tls

/-- The family of a client certificate and its key. -/
inductive Family where
  | rsa
  | ecc
deriving DecidableEq, Repr

namespace Family

/-- The name of a family in messages. -/
def label : Family → String
  | .rsa => "Rsa"
  | .ecc => "Ecc"

/-- Whether credentials of the family are among the capabilities. -/
def isIn : Family → Capabilities → Bool
  | .rsa, c => c.rsaCredentials
  | .ecc, c => c.eccCredentials

/-- The option that sets the certificate of the family. -/
def certificateName : Family → String
  | .rsa => optionNames.rsaCertificate
  | .ecc => optionNames.eccCertificate

/-- The option that sets the key of the family. -/
def keyName : Family → String
  | .rsa => optionNames.rsaKey
  | .ecc => optionNames.eccKey

end Family

/-- What an option name sets. -/
inductive Slot where
  /-- The trusted certificates. -/
  | trustedCerts
  /-- The client certificate of a family. -/
  | certificate (family : Family)
  /-- The private key of a family. -/
  | key (family : Family)
deriving DecidableEq, Repr

namespace Slot

/-- The slot that a name belongs to, if it is the name of a TLS option. -/
def ofName? (name : String) : Option Slot :=
  if name = optionNames.trustedCerts then some .trustedCerts
  else if name = optionNames.rsaCertificate then some (.certificate .rsa)
  else if name = optionNames.rsaKey then some (.key .rsa)
  else if name = optionNames.eccCertificate then some (.certificate .ecc)
  else if name = optionNames.eccKey then some (.key .ecc)
  else none

/-- The name of a slot. -/
def name : Slot → String
  | .trustedCerts => optionNames.trustedCerts
  | .certificate f => f.certificateName
  | .key f => f.keyName

/-- The family of a credential. -/
def family? : Slot → Option Family
  | .trustedCerts => none
  | .certificate f => some f
  | .key f => some f

/-- Whether a slot is among the capabilities. -/
def isIn : Slot → Capabilities → Bool
  | .trustedCerts, c => c.trustedCerts
  | .certificate f, c => f.isIn c
  | .key f, c => f.isIn c

@[simp] theorem ofName?_name (s : Slot) : ofName? s.name = some s := by
  cases s with
  | trustedCerts => decide
  | certificate f => cases f <;> decide
  | key f => cases f <;> decide

end Slot

/-- The options of a TLS session. -/
structure Options where
  /-- The options that may be set at all. -/
  supported : Capabilities
  /-- The trusted certificates. -/
  trustedCerts : Option String
  /-- The family of the credentials, once one is set. -/
  family : Option Family
  /-- The client certificate. -/
  certificate : Option String
  /-- The private key. -/
  key : Option String
deriving DecidableEq, Repr

/-- Whether a store knows an option. -/
inductive Status where
  /-- Stored. -/
  | accepted
  /-- Not the name of a TLS option. -/
  | notHandled
deriving DecidableEq, Repr

namespace Options

/-- A store without any option set. -/
def new (supported : Capabilities) : Options := ⟨supported, none, none, none, none⟩

/-- Stores a text in a slot. -/
def store (o : Options) (slot : Slot) (value : String) : Options :=
  match slot with
  | .trustedCerts => { o with trustedCerts := some value }
  | .certificate f => { o with certificate := some value, family := some f }
  | .key f => { o with key := some value, family := some f }

/-- The family that excludes a slot, if credentials of another one are set. -/
def conflict? (o : Options) (slot : Slot) : Option Family :=
  match slot.family?, o.family with
  | some wanted, some current => if current = wanted then none else some current
  | _, _ => none

/-- Sets an option by name: the answer, and the store from now on. A missing capability comes before
    a conflict of families, and that before a value of the wrong type. -/
def set (o : Options) (name : String) (value : Setting) : Except Fault Status × Options :=
  match Slot.ofName? name with
  | none => (.ok .notHandled, o)
  | some slot =>
    if slot.isIn o.supported then
      match o.conflict? slot with
      | some current =>
        (.error (.optionConflict
          s!"'{name}' conflicts with previously set {current.label} credentials"), o)
      | none =>
        match value.text? with
        | some text => (.ok .accepted, o.store slot text)
        | none => (.error (.invalidParameter s!"{name} expects a string value"), o)
    else (.error (.unsupportedOption name), o)

/-- What is not accepted leaves the store as it is. -/
theorem set_of_refused {o p : Options} {name : String} {value : Setting} {answer : Except Fault Status}
    (h : o.set name value = (answer, p)) (refused : answer ≠ .ok .accepted) : p = o := by
  unfold set at h
  cases hs : Slot.ofName? name with
  | none => simp_all
  | some slot =>
    cases hi : slot.isIn o.supported with
    | false => simp_all
    | true =>
      cases hc : o.conflict? slot with
      | some current => simp_all
      | none =>
        cases ht : value.text? with
        | none => simp_all
        | some text =>
          simp only [hs, hi, hc, ht, if_true, Prod.mk.injEq] at h
          exact absurd h.1.symm refused

/-- Certificate and key must both be set, or neither. -/
def isConsistent (o : Options) : Bool := o.certificate.isSome == o.key.isSome

/-- Refuses a certificate without its key, and a key without its certificate. -/
def checkConsistency (o : Options) : Except Fault Unit :=
  if o.isConsistent then .ok ()
  else .error (.optionConflict "x509 certificate and private key must both be set")

/-- The options that are set: trusted certificates, certificate, key. -/
def retrieve (o : Options) : Settings :=
  let trusted := o.trustedCerts.toList.map fun t => (optionNames.trustedCerts, Setting.text t)
  let credentials :=
    match o.family with
    | none => []
    | some f =>
      (o.certificate.toList.map fun c => (f.certificateName, Setting.text c)) ++
        o.key.toList.map fun k => (f.keyName, Setting.text k)
  ⟨trusted ++ credentials⟩

end Options

end PolledConnection.Tls
