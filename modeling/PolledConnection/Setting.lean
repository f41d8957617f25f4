/-! # Settings

  An option is a name with a value; a value is a truth value, a 64-bit signed
  integer or a text. `Settings` is an ordered list of options in which a name
  may come again: the last one counts (`get?_push`), and nothing is forgotten
  (`length_push`). The same type holds the initial options of an endpoint and
  a snapshot that can be replayed.
-/

namespace PolledConnection

/-! ### Names -/

/-- Option names that some transport understands. -/
structure OptionNames where
  /-- Certificates to trust, as a text. -/
  trustedCerts : String
  /-- RSA client certificate. -/
  rsaCertificate : String
  /-- RSA private key. -/
  rsaKey : String
  /-- Elliptic curve client certificate. -/
  eccCertificate : String
  /-- Elliptic curve key. -/
  eccKey : String
  /-- Keepalive probes on the TCP socket. -/
  keepAlive : String

/-- The spelling of the known option names. -/
def optionNames : OptionNames where
  trustedCerts := "TrustedCerts"
  rsaCertificate := "x509certificate"
  rsaKey := "x509privatekey"
  eccCertificate := "x509EccCertificate"
  eccKey := "x509EccAliasKey"
  keepAlive := "tcp_keepalive"

/-! ### Values -/

/-- The value of an option. -/
inductive Setting where
  /-- A truth value. -/
  | truth (b : Bool)
  /-- A 64-bit signed integer. -/
  | whole (n : Int64)
  /-- A text. -/
  | text (s : String)
deriving DecidableEq, Repr

namespace Setting

/-- The text, of a text. -/
def text? : Setting → Option String
  | .text s => some s
  | _ => none

/-- The truth value, of a truth value. -/
def truth? : Setting → Option Bool
  | .truth b => some b
  | _ => none

end Setting

/-! ### Lists of options -/

/-- Options in order; a name may come more than once. -/
structure Settings where
  /-- The options, oldest first. -/
  entries : List (String × Setting)
deriving DecidableEq, Repr

namespace Settings

/-- No options. -/
def empty : Settings := ⟨[]⟩

instance : Inhabited Settings := ⟨empty⟩

/-- Adds an option at the end. -/
def push (s : Settings) (name : String) (value : Setting) : Settings :=
  ⟨s.entries ++ [(name, value)]⟩

/-- Number of entries, repeated names counted each time. -/
def length (s : Settings) : Nat := s.entries.length

/-- Whether there is no entry. -/
def isEmpty (s : Settings) : Bool := s.entries.isEmpty

/-- The value of the last entry of that name. -/
def get? (s : Settings) (name : String) : Option Setting :=
  (s.entries.reverse.find? fun e => e.1 == name).map Prod.snd

@[simp] theorem entries_push (s : Settings) (name : String) (value : Setting) :
    (s.push name value).entries = s.entries ++ [(name, value)] := rfl

@[simp] theorem length_push (s : Settings) (name : String) (value : Setting) :
    (s.push name value).length = s.length + 1 := by
  simp [length]

@[simp] theorem get?_empty (name : String) : empty.get? name = none := rfl

/-- The newest entry decides for its own name and for no other. -/
theorem get?_push (s : Settings) (name other : String) (value : Setting) :
    (s.push name value).get? other = if name = other then some value else s.get? other := by
  by_cases h : name = other <;> simp [get?, h]

end Settings

end PolledConnection
