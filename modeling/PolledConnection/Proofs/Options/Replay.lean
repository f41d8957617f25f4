import PolledConnection.Proofs.Tcp.KeepAlive
import PolledConnection.Proofs.Tls.KeepAlive

/-! # Retrieving options and replaying them

  The list that is retrieved from a connection has the options that were ever
  accepted, each once and with its last value (`Settings.Records`). Replayed
  onto a new connection that can do no less, it brings all of them over;
  replayed onto the connection that it came from, it changes none
  (`Connection.Restored`). Both hold for all transports, as all of them treat
  their options as a stock is treated (`retrieve_replay`).
-/

namespace PolledConnection

variable {σ τ : Type}

/-! ### Lists and capabilities -/

namespace Settings

/-- The list has every name that was given once, with the value that was given last. -/
structure Records (list : Settings) (given : List (String × Setting)) : Prop where
  once : (list.entries.map Prod.fst).Nodup
  names : ∀ name, name ∈ list.entries.map Prod.fst ↔ name ∈ given.map Prod.fst
  listed : ∀ name value, (name, value) ∈ list.entries ↔ (mk given).get? name = some value
  read : ∀ name, list.get? name = (mk given).get? name

/-- A name has a value if it is there at all. -/
theorem get?_ne_none {name : String} {options : List (String × Setting)} :
    (mk options).get? name ≠ none ↔ name ∈ options.map Prod.fst := by
  constructor
  · intro some
    obtain ⟨value, found⟩ := Option.ne_none_iff_exists'.mp some
    exact List.mem_map_of_mem (mem_of_get? found)
  · intro there none
    obtain ⟨⟨key, value⟩, listed, rfl⟩ := List.mem_map.mp there
    have found : (options.reverse.find? fun e => e.1 == key) = Option.none :=
      Option.map_eq_none_iff.mp none
    have other := List.find?_eq_none.mp found (key, value) (List.mem_reverse.mpr listed)
    simp at other

end Settings

/-- More capabilities stay more when the same ones are added to both. -/
theorem Capabilities.contains_union {more caps : Capabilities} (h : more.contains caps = true)
    (added : Capabilities) : (more.union added).contains (caps.union added) = true := by
  have same : more.union caps = more := by simpa [contains] using h
  unfold contains
  rw [beq_iff_eq, ← same]
  simp [union, Bool.or_comm, Bool.or_left_comm]

/-- What a fit stock has taken is recorded by its list. -/
theorem Stock.records {caps : Capabilities} {hasSwitch : Bool} {given : List (String × Setting)}
    {s : Stock} (taken : (Stock.new caps hasSwitch).puts given = some s) :
    (Settings.mk s.entries).Records given := by
  obtain ⟨-, -, reads⟩ := puts_spec (fit_new caps hasSwitch) taken
  have read (name : String) : (Settings.mk s.entries).get? name = (Settings.mk given).get? name := by
    rw [get?_entries, reads, lookup_new, Option.or_none]
  refine ⟨s.nodup_entries, fun name => ?_, fun name value => ?_, read⟩
  · rw [← Settings.get?_ne_none, ← Settings.get?_ne_none, read]
  · rw [← Settings.get?_eq_some_iff s.nodup_entries, read]

namespace Connection

open Tls (Engine OverGiven OverTcp)

/-! ### Any transport -/

/-- A connection accepts a list of options, reports just these behind it, and has the options for
    TLS sessions from which the list was made, with its own capabilities. -/
structure Restored (T : Transport σ) (stock : σ → Stock) (list : Settings) (tls : Tls.Options)
    (c : Connection σ) : Prop where
  accepted : ((replay T list.entries).run c).answer = .ok ()
  reported : retrieve T ((replay T list.entries).run c).state = list
  sessions : (stock ((replay T list.entries).run c).state.transport).tls =
    { tls with supported := (stock c.transport).tls.supported }

/-- What becomes of the options of a connection behind requests, if it was made with some: the list
    that it reports records all that were accepted, restores the other connection, and can be applied
    to the connection itself. -/
structure Replays (T : Transport σ) (stock : σ → Stock) (made : List (String × Setting))
    (c : Connection σ) (rs : List Request) (T' : Transport τ) (stock' : τ → Stock)
    (other : Connection τ) (wider obliging : Prop) : Prop where
  records : (retrieve T ((serveAll T rs).run c).state).Records (made ++ admitted T c rs)
  /-- If the other connection has no fewer capabilities. -/
  onto : wider → Restored T' stock' (retrieve T ((serveAll T rs).run c).state)
    (stock ((serveAll T rs).run c).state.transport).tls other
  /-- If the network sets the keepalive switch when it is told to. -/
  back : obliging → Restored T stock (retrieve T ((serveAll T rs).run c).state)
    (stock ((serveAll T rs).run c).state.transport).tls ((serveAll T rs).run c).state

section
variable {T : Transport σ} {stock : σ → Stock} {Willing : σ → Prop} {c : Connection σ}

/-- A connection that is willing and takes the list of a stock is restored to it. -/
theorem restored (keeps : T.Keeps stock Willing) (willing : Willing c.transport) {list : Settings}
    {s : Stock} (listed : list.entries = s.entries)
    (taken : (stock c.transport).puts s.entries =
      some { s with tls := { s.tls with supported := (stock c.transport).tls.supported } }) :
    Restored T stock list s.tls c := by
  rw [← listed] at taken
  obtain ⟨answer, after, -⟩ := run_replay T list.entries c
  obtain ⟨ok, state⟩ := keeps.applyAll_willing willing taken
  refine ⟨answer.trans ok, ?_, ?_⟩
  · have entries : (retrieve T ((replay T list.entries).run c).state).entries = list.entries := by
      rw [retrieve, keeps.retrieve, after, state, listed]
      rfl
    exact congrArg Settings.mk entries
  · rw [after, state]

/-- So it is over all transports that keep a stock. -/
theorem replays_of_keeps {T' : Transport τ} {stock' : τ → Stock} {Willing' : τ → Prop}
    (keeps : T.Keeps stock Willing) (keeps' : T'.Keeps stock' Willing')
    {caps caps' : Capabilities} {hasSwitch : Bool} {made : List (String × Setting)}
    (start : (Stock.new caps hasSwitch).puts made = some (stock c.transport)) {d : Connection τ}
    (bare : (Stock.new caps' hasSwitch).puts [] = some (stock' d.transport))
    (willing' : Willing' d.transport) {wider obliging : Prop}
    (more : wider → caps'.contains caps = true) (obliges : obliging → ∀ s, Willing s)
    (rs : List Request) : Replays T stock made c rs T' stock' d wider obliging := by
  generalize hu : ((serveAll T rs).run c).state = u
  have taken : (Stock.new caps hasSwitch).puts (made ++ admitted T c rs) =
      some (stock u.transport) := by
    rw [Stock.puts_append, start, Option.bind_some, puts_admitted keeps, hu]
  have listed : (retrieve T u).entries = (stock u.transport).entries := keeps.retrieve u.transport
  obtain ⟨fit, supported, -⟩ := Stock.puts_spec (Stock.fit_new caps hasSwitch) taken
  subst hu
  refine ⟨?_, fun wide => ?_, fun obliged => ?_⟩
  · have recorded := Stock.records taken
    rw [← listed] at recorded
    exact recorded
  · have fresh : stock' d.transport =
        .new caps' (stock ((serveAll T rs).run c).state.transport).hasSwitch := by
      rw [Stock.hasSwitch_puts taken]
      exact (Option.some.inj bare).symm
    refine restored keeps' willing' listed ?_
    rw [fresh]
    refine Stock.puts_entries fit ?_
    rw [supported]
    exact more wide
  · exact restored keeps (obliges obliged _) listed (Stock.puts_self fit)

end

/-- A connection that was made has its transport, and nothing else. -/
theorem transport_of_create {made : Transport.Creation σ} {c : Connection σ}
    (created : (create made).1 = .ok c) : made.result = .ok c.transport := by
  unfold create at created
  split at created
  next t result =>
    rw [result, ← Except.ok.inj created]
    rfl
  · simp at created

/-! ### The theorem -/

section
variable {ε ε' σ σ' ρ ρ' ω ω' : Type}

/-- **Retrieve and replay.** Take a connection over any of the transports, made with any options, any
    requests to it, and a new connection over a transport of the same kind, made without options. The
    list that is retrieved has all options that were ever accepted, each once with its last value.
    The new connection accepts it, has the same list then, and the same options for TLS sessions, if
    its engine has no fewer capabilities. The first connection accepts its own list too, and keeps its
    options, if the network sets the keepalive switch when it is told to. -/
theorem retrieve_replay (eng : Engine ε σ) (net : Network ω) (res : Resolver ρ) (engine : ε)
    (resolver : ρ) (network : ω) (carrier : Carrier) (endpoint : Endpoint) (rs : List Request)
    (eng' : Engine ε' σ') (net' : Network ω') (res' : Resolver ρ') (engine' : ε') (resolver' : ρ')
    (network' : ω') (carrier' : Carrier) (endpoint' : Endpoint) :
    (∀ c d, (create (Tcp.create net res resolver network endpoint)).1 = .ok c →
      (create (Tcp.create net' res' resolver' network' endpoint'.bare)).1 = .ok d →
      Replays (Tcp.transport net res) Tcp.stock endpoint.options.entries c rs
        (Tcp.transport net' res') Tcp.stock d True net.Obliging) ∧
    (∀ c d, (create (OverGiven.create eng engine carrier endpoint)).1 = .ok c →
      (create (OverGiven.create eng' engine' carrier' endpoint'.bare)).1 = .ok d →
      Replays (OverGiven.transport eng) OverGiven.stock endpoint.options.entries c rs
        (OverGiven.transport eng') OverGiven.stock d
        ((eng'.capabilities engine').contains (eng.capabilities engine) = true) True) ∧
    ∀ c d, (create (OverTcp.create eng net res engine resolver network endpoint)).1 = .ok c →
      (create (OverTcp.create eng' net' res' engine' resolver' network' endpoint'.bare)).1 = .ok d →
      Replays (OverTcp.transport eng net res) OverTcp.stock endpoint.options.entries c rs
        (OverTcp.transport eng' net' res') OverTcp.stock d
        ((eng'.capabilities engine').contains (eng.capabilities engine) = true) net.Obliging := by
  refine ⟨?_, ?_, ?_⟩
  · intro c d created other
    have made := transport_of_create created
    have bare := transport_of_create other
    have willing : Tcp.Willing net' d.transport := by
      right
      rw [Tcp.create_fresh net' res' bare]
      rfl
    exact replays_of_keeps (Tcp.keeps net res) (Tcp.keeps net' res') (Tcp.puts_create net res made)
      (Tcp.puts_create net' res' bare) willing (fun _ => rfl) (fun obliging _ => .inl obliging) rs
  · intro c d created other
    have made := transport_of_create created
    have bare := transport_of_create other
    exact replays_of_keeps (OverGiven.keeps eng) (OverGiven.keeps eng')
      (OverGiven.puts_create eng made) (OverGiven.puts_create eng' bare) trivial id
      (fun _ _ => trivial) rs
  · intro c d created other
    have made := transport_of_create created
    have bare := transport_of_create other
    have willing : OverTcp.Willing net' d.transport :=
      .inr (OverTcp.create_socketless eng' net' res' bare)
    exact replays_of_keeps (OverTcp.keeps eng net res) (OverTcp.keeps eng' net' res')
      (OverTcp.puts_create eng net res made) (OverTcp.puts_create eng' net' res' bare) willing
      (fun wider => Capabilities.contains_union wider _) (fun obliging _ => .inl obliging) rs

end

/-- Requests that set half a credential twice, one of another family in vain, and the keepalive
    option. -/
def halfCredential : List Request :=
  [.setOption "x509certificate" (.text "c"), .setOption "tcp_keepalive" (.truth true),
    .setOption "x509EccCertificate" (.text "e"), .setOption "x509certificate" (.text "d")]

/-- Half a credential is brought over as it was set last. -/
theorem retrieve_replay_halfCredential :
    ∃ c, (create OverTcp.reachable).1 = .ok c ∧
      let T := OverTcp.transport Script.Engine.engine Loopback.network Script.resolver
      let u := ((serveAll T halfCredential).run c).state
      retrieve T u = ⟨[("x509certificate", .text "d"), ("tcp_keepalive", .truth true)]⟩ ∧
        Restored T OverTcp.stock (retrieve T u) (OverTcp.stock u.transport).tls c ∧
        Restored T OverTcp.stock (retrieve T u) (OverTcp.stock u.transport).tls u := by
  obtain ⟨c, made, listed⟩ : ∃ c, (create OverTcp.reachable).1 = .ok c ∧
      let T := OverTcp.transport Script.Engine.engine Loopback.network Script.resolver
      retrieve T ((serveAll T halfCredential).run c).state =
        ⟨[("x509certificate", .text "d"), ("tcp_keepalive", .truth true)]⟩ :=
    ⟨_, rfl, by decide⟩
  obtain ⟨-, -, replays⟩ := retrieve_replay Script.Engine.engine Loopback.network Script.resolver
    ⟨⟨true, true, true, false⟩, [], ⟨[], [], []⟩⟩ [.ok (some OverTcp.listener)]
    (.new true [(OverTcp.listener, .listening)]) (.given "io") (.of "h" 443) halfCredential
    Script.Engine.engine Loopback.network Script.resolver
    ⟨⟨true, true, true, false⟩, [], ⟨[], [], []⟩⟩ [.ok (some OverTcp.listener)]
    (.new true [(OverTcp.listener, .listening)]) (.given "io") (.of "h" 443)
  have both := replays c c made made
  exact ⟨c, made, listed, both.onto (by decide), both.back fun _ _ => rfl⟩

end Connection

end PolledConnection
