import PolledConnection.Json.Number

/-! # Command line arguments

  Arguments are read from left to right. Help and version end the reading
  where they stand; a misuse does so too, so the first of these decides. What
  only the whole line can show, a missing or a superfluous host, is looked at
  last.

  The forms are `--name value`, `--name=value`, `-n value`, `-nvalue`,
  `-n=value`, several short names in one argument, and `--`, behind which
  everything is positional. A value that is an argument of its own must not
  look like a name. Nothing may be given twice.
-/

namespace PolledConnection.CommandLine

/-! ### What can be asked for -/

/-- Where the endpoint comes from. -/
inductive Source where
  /-- From a configuration file. -/
  | file (path : String)
  /-- From host and port. -/
  | host (hostname : String) (port : UInt16)
deriving DecidableEq, Repr

/-- What the program is to do. -/
structure Command where
  /-- Where to connect. -/
  source : Source
  /-- What to send once the connection is open. -/
  message : Option String
  /-- Whether to turn keepalive probes on. -/
  keepAlive : Bool
  /-- How long opening and sending together, and closing, may take, in milliseconds. -/
  timeout : Nat
  /-- How long to keep reading, in milliseconds. -/
  linger : Nat
  /-- Whether to report everything. -/
  verbose : Bool
deriving DecidableEq, Repr

/-- What the arguments come to. -/
inductive Invocation where
  /-- Something to do. -/
  | run (command : Command)
  /-- Help or the version is wanted. -/
  | informational
  /-- The arguments make no sense. -/
  | misuse
deriving DecidableEq, Repr

/-! ### Names -/

/-- What an argument name stands for. -/
inductive Switch where
  | config
  | message
  | keepAlive
  | timeout
  | linger
  | verbose
  | help
  | version
deriving DecidableEq, Repr

/-- The switch of a long name, without its hyphens. -/
def Switch.ofLong? : String → Option Switch
  | "config" => some .config
  | "message" => some .message
  | "keepalive" => some .keepAlive
  | "timeout-ms" => some .timeout
  | "linger-ms" => some .linger
  | "verbose" => some .verbose
  | "help" => some .help
  | "version" => some .version
  | _ => none

/-- The switch of a short name. -/
def Switch.ofShort? : Char → Option Switch
  | 'c' => some .config
  | 'm' => some .message
  | 'v' => some .verbose
  | 'h' => some .help
  | 'V' => some .version
  | _ => none

/-- Whether a switch needs a value. -/
def Switch.takesValue : Switch → Bool
  | .config | .message | .timeout | .linger => true
  | .keepAlive | .verbose | .help | .version => false

/-! ### Values -/

/-- A natural number in decimal, with an optional plus sign. -/
def readNat? (text : String) : Option Nat :=
  let digits := match text.toList with
    | '+' :: rest => rest
    | cs => cs
  if digits.isEmpty ∨ digits.any (!·.isDigit) then none else some (Json.Number.natOf digits)

/-- A number of milliseconds, of 64 bits. -/
def readMillis? (text : String) : Option Nat := (readNat? text).filter (· < UInt64.size)

/-- A port. Zero may have a minus sign. -/
def readPort? (text : String) : Option UInt16 :=
  match text.toList with
  | '-' :: digits =>
    if !digits.isEmpty ∧ digits.all (· = '0') then some 0 else none
  | _ => ((readNat? text).filter (· < UInt16.size)).map UInt16.ofNat

/-- What has been read so far. -/
structure Draft where
  host : Option String
  port : Option UInt16
  config : Option String
  message : Option String
  keepAlive : Bool
  timeout : Option Nat
  linger : Option Nat
  verbose : Bool

/-- Nothing has been read. -/
def Draft.empty : Draft := ⟨none, none, none, none, false, none, none, false⟩

namespace Draft

/-- Takes a switch with a value, which must be a good one, and the first. -/
def withValue (d : Draft) (s : Switch) (value : String) : Option Draft :=
  match s with
  | .config =>
    if d.config.isSome ∨ value = "" then none else some { d with config := some value }
  | .message => if d.message.isSome then none else some { d with message := some value }
  | .timeout =>
    if d.timeout.isSome then none
    else (readMillis? value).map fun n => { d with timeout := some n }
  | .linger =>
    if d.linger.isSome then none
    else (readMillis? value).map fun n => { d with linger := some n }
  | _ => none

/-- Takes a switch without a value, which must be the first of its name. -/
def withFlag (d : Draft) (s : Switch) : Option Draft :=
  match s with
  | .keepAlive => if d.keepAlive then none else some { d with keepAlive := true }
  | .verbose => if d.verbose then none else some { d with verbose := true }
  | _ => none

/-- Takes a positional argument: the host, then the port, then none. -/
def withPositional (d : Draft) (value : String) : Option Draft :=
  match d.host, d.port with
  | none, _ => some { d with host := some value }
  | some _, none => (readPort? value).map fun p => { d with port := some p }
  | some _, some _ => none

/-- What the whole line comes to. -/
def finish (d : Draft) : Invocation :=
  let command (source : Source) : Invocation :=
    .run ⟨source, d.message, d.keepAlive, d.timeout.getD 5000, d.linger.getD 500, d.verbose⟩
  match d.config, d.host, d.port with
  | some path, none, none => command (.file path)
  | none, some host, some port => command (.host host port)
  | _, _, _ => .misuse

end Draft

/-! ### Reading -/

/-- Whether an argument looks like a name, and so cannot be the value of one. -/
def looksLikeName (arg : String) : Bool :=
  match arg.toList with
  | '-' :: _ :: _ => true
  | _ => false

/-- The part of a text before its first equals sign, and the part behind it, if there is one. -/
def splitEquals : List Char → List Char × Option (List Char)
  | [] => ([], none)
  | '=' :: rest => ([], some rest)
  | c :: rest =>
    let (before, behind) := splitEquals rest
    (c :: before, behind)

/-- What reading one argument comes to. -/
inductive ArgumentReading where
  /-- Go on with this. -/
  | next (draft : Draft)
  /-- The next argument is the value of a switch. -/
  | valueWanted (draft : Draft) (switch : Switch)
  /-- Nothing more needs to be read. -/
  | decided (invocation : Invocation)

/-- Goes on with a draft, if there is one. -/
def ArgumentReading.ofDraft? : Option Draft → ArgumentReading
  | some d => .next d
  | none => .decided .misuse

/-- Reads a long name without its hyphens. -/
def readLong (d : Draft) (body : List Char) : ArgumentReading :=
  let (name, value) := splitEquals body
  match Switch.ofLong? (String.ofList name), value with
  | none, _ => .decided .misuse
  | some s, some value =>
    if s.takesValue then .ofDraft? (d.withValue s (String.ofList value)) else .decided .misuse
  | some s, none =>
    if s.takesValue then .valueWanted d s
    else if s = .help ∨ s = .version then .decided .informational
    else .ofDraft? (d.withFlag s)

/-- Reads short names. The first that takes a value takes the rest. -/
def readShort (d : Draft) : List Char → ArgumentReading
  | [] => .next d
  | c :: rest =>
    match Switch.ofShort? c with
    | none => .decided .misuse
    | some s =>
      if s.takesValue then
        match rest with
        | [] => .valueWanted d s
        | '=' :: value => .ofDraft? (d.withValue s (String.ofList value))
        | value => .ofDraft? (d.withValue s (String.ofList value))
      else if s = .help ∨ s = .version then .decided .informational
      else
        match d.withFlag s with
        | none => .decided .misuse
        | some d => readShort d rest

/-- Reads one argument. -/
def readArgument (d : Draft) (arg : String) : ArgumentReading :=
  match arg.toList with
  | '-' :: '-' :: body => readLong d body
  | '-' :: c :: rest => readShort d (c :: rest)
  | _ => .ofDraft? (d.withPositional arg)

/-- Reads arguments that are all positional. -/
def readPositionals (d : Draft) : List String → Invocation
  | [] => d.finish
  | arg :: rest =>
    match d.withPositional arg with
    | some d => readPositionals d rest
    | none => .misuse

/-- Reads arguments; `wanted` is the switch whose value comes next. -/
def readAll (d : Draft) (wanted : Option Switch) : List String → Invocation
  | [] => if wanted.isSome then .misuse else d.finish
  | arg :: rest =>
    match wanted with
    | some s =>
      if looksLikeName arg then .misuse
      else
        match d.withValue s arg with
        | some d => readAll d none rest
        | none => .misuse
    | none =>
      if arg = "--" then readPositionals d rest
      else
        match readArgument d arg with
        | .next d => readAll d none rest
        | .valueWanted d s => readAll d (some s) rest
        | .decided invocation => invocation

/-- What the arguments come to. -/
def Invocation.ofArguments (args : List String) : Invocation := readAll .empty none args

end PolledConnection.CommandLine
