import PolledConnection.Proofs.Tcp.Opening

/-! # The keepalive switch of a plain socket

  A TCP transport keeps the keepalive option in a field. A new socket gets it
  from there, and an option that is set on an open stream is switched at once;
  a socket that is connecting keeps the switch it was created with. So the
  switch of a stream is the option that was accepted last, but for those that
  were accepted while this very socket was connecting (`switch_of_stream`), and
  such an option is reported without being in force (`switch_left_behind`).
-/

namespace PolledConnection.Tcp

open Transport (Request Answer)

variable {ρ ω : Type} (net : Network ω) (res : Resolver ρ) {t u : Tcp ρ ω}
  {q : Request} {a : Answer}

/-! ### The option -/

/-- The options of a TCP transport: none for TLS, and the keepalive option. -/
def stock (t : Tcp ρ ω) : Stock := ⟨.new .none, true, t.keepAlive⟩

/-- Nothing but the keepalive option is taken. -/
theorem put_stock {name : String} {value : Setting} (h : (stock t).put name value ≠ none) :
    name = optionNames.keepAlive ∧ value.truth? ≠ none := by
  obtain ⟨s, taken⟩ := Option.ne_none_iff_exists'.mp h
  rcases Stock.put_eq_some.mp taken with ⟨on, rfl, rfl, -, -⟩ | ⟨slot, text, -, -, has, -, -⟩
  · exact ⟨rfl, by simp [Setting.truth?]⟩
  · have lacks : slot.isIn Capabilities.none = false := by
      cases slot with
      | trustedCerts => rfl
      | certificate f | key f => cases f <;> rfl
    exact absurd has (by simp [stock, Tls.Options.new, lacks])

/-- A transport without a stream does not have to ask the network. -/
def Willing (net : Network ω) (t : Tcp ρ ω) : Prop := net.Obliging ∨ t.stream = none

/-- The options of a TCP transport are treated as a stock is. -/
theorem keeps : (transport net res).Keeps stock (Willing net) where
  retrieve t := rfl
  accepts name value t accepted := by
    rcases run : ((transport net res).setOption name value).run t with ⟨answer, u, effects⟩
    obtain rfl : answer = .ok () := by simpa [run] using accepted
    cases setOption_served net res run with
    | keep hs => exact Stock.put_eq_some.mpr (.inl ⟨_, rfl, rfl, rfl, rfl⟩)
    | switch hs h => exact Stock.put_eq_some.mpr (.inl ⟨_, rfl, rfl, rfl, rfl⟩)
  refuses name value t fault refused := by
    rcases run : ((transport net res).setOption name value).run t with ⟨answer, u, effects⟩
    obtain rfl : answer = .error fault := by simpa [run] using refused
    cases setOption_served net res run with
    | switchFails | refuse => rfl
  obliges name value t willing := by
    rcases run : ((transport net res).setOption name value).run t with ⟨answer, u, effects⟩
    show Willing net u ∧ ((stock t).put name value ≠ none → answer = .ok ())
    cases setOption_served net res run with
    | keep hs => exact ⟨.inr hs, fun _ => rfl⟩
    | @switch on socket w hs h =>
      -- There is a stream, so the network is asked; it does not refuse.
      exact ⟨.inl (willing.resolve_right (by simp [hs])), fun _ => rfl⟩
    | @switchFails on w cause hs h =>
      have held : t.stream ≠ none := Option.isSome_iff_ne_none.mp hs
      have granted := willing.resolve_right held on t.network
      simp [h] at granted
    | refuse h =>
      refine ⟨willing, fun taken => ?_⟩
      obtain ⟨known, truth⟩ := put_stock taken
      rcases h with other | mistyped
      · exact absurd known other
      · exact absurd mistyped truth
  others q t none := by
    have served := serve_served net res t q
    generalize ((transport net res).serve q).run t = o at served ⊢
    obtain ⟨a, u, events⟩ := o
    have served : Served net t q a u := served
    show stock u = stock t
    cases served with
    | establish polled => cases polled <;> rfl
    | close | readNothing | read | writeNothing | write | retrieve => rfl
    | keep | switch | switchFails | refuse => simp [Request.option?] at none

/-! ### The socket -/

/-- Where a transport stands with its socket. -/
inductive Standing where
  /-- There is none. -/
  | bare
  | connecting (socket : Socket)
  | connected (socket : Socket)

/-- Where the transport stands with its socket. -/
def standing (t : Tcp ρ ω) : Standing :=
  match t.stream, t.dialling with
  | some s, _ => .connected s
  | none, some s => .connecting s
  | none, none => .bare

theorem standing_eq_connected {s : Socket} : standing t = .connected s ↔ t.stream = some s := by
  unfold standing
  cases t.stream with
  | some s => simp
  | none => cases t.dialling <;> simp

theorem standing_eq_connecting {s : Socket} :
    standing t = .connecting s ↔ t.stream = none ∧ t.dialling = some s := by
  unfold standing
  cases t.stream with
  | some s => simp
  | none => cases t.dialling <;> simp

theorem standing_eq_bare : standing t = .bare ↔ t.socket? = none := by
  unfold standing socket?
  cases t.stream with
  | some s => simp
  | none => cases t.dialling <;> simp

/-- How the standing may change while options are accepted. -/
inductive Standing.Next (keepAlive : Option Bool) (options : List (String × Setting)) :
    Standing → Standing → Prop where
  /-- There is no socket any more, or still none. -/
  | bare {standing} : Next keepAlive options standing .bare
  /-- A new socket gets the switch from the option. -/
  | dials {peer} (nothing : options = []) :
      Next keepAlive options .bare (.connecting ⟨peer, keepAlive.getD false⟩)
  | connects {peer} (nothing : options = []) :
      Next keepAlive options .bare (.connected ⟨peer, keepAlive.getD false⟩)
  /-- A socket that is connecting stays as it is. -/
  | waits {s} : Next keepAlive options (.connecting s) (.connecting s)
  | arrives {s} (nothing : options = []) : Next keepAlive options (.connecting s) (.connected s)
  /-- The stream is switched at once. -/
  | holds {s s'} (switch : keepAliveIn options s.keepAlive = .truth s'.keepAlive) :
      Next keepAlive options (.connected s) (.connected s')

theorem Standing.Next.refl {keepAlive : Option Bool} (a : Standing) :
    Standing.Next keepAlive [] a a := by
  cases a with
  | bare => exact .bare
  | connecting s => exact .waits
  | connected s => exact .holds rfl

/-- There is a stream only behind an open that is over. -/
def Sound (t : Tcp ρ ω) : Prop := t.stream.isSome = true → t.step = .opened

theorem Sound.bare (sound : Sound t) (hs : t.step ≠ .opened) : t.stream = none := by
  cases h : t.stream with
  | none => rfl
  | some s => exact absurd (sound (by simp [h])) hs

/-- **Step**: a poll of the open keeps the transport sound, and changes its standing in one of these
    ways. -/
theorem Polled.next {receiver : Receiver} {answer : Progress}
    (polled : Polled net receiver t answer u) (sound : Sound t) :
    Sound u ∧ Standing.Next t.keepAlive [] (standing t) (standing u) := by
  cases polled with
  | already => exact ⟨sound, .refl _⟩
  | failed => exact ⟨nofun, .bare⟩
  | looked hs next =>
    have bare := sound.bare (by simp [hs])
    exact ⟨fun held => absurd held (by simp [bare]), .refl _⟩
  | pending hs h =>
    have bare := sound.bare (by simp [hs])
    refine ⟨fun held => absurd held (by simp [bare]), ?_⟩
    obtain ⟨s, rfl, old | ⟨new, rfl⟩⟩ := Network.pollConnect_slot h
    · simpa [standing, bare, old] using Standing.Next.waits
    · simpa [standing, bare, new] using Standing.Next.dials rfl
  | connected hs h =>
    have bare := sound.bare (by simp [hs])
    refine ⟨fun _ => rfl, ?_⟩
    obtain ⟨s, rfl, old | ⟨new, rfl⟩⟩ := Network.pollConnect_slot h
    · simpa [standing, bare, old] using Standing.Next.arrives rfl
    · simpa [standing, bare, new] using Standing.Next.connects rfl

/-- **Step**: so does every request. -/
theorem Served.next (served : Served net t q a u) (sound : Sound t) :
    Sound u ∧ Standing.Next t.keepAlive (Transport.accepts q a) (standing t) (standing u) := by
  cases served with
  | establish polled => exact polled.next net sound
  | close => exact ⟨nofun, .bare⟩
  | readNothing | read | writeNothing | write | switchFails | refuse | retrieve =>
    exact ⟨sound, .refl _⟩
  | keep hs =>
    refine ⟨sound, ?_⟩
    cases hd : t.dialling with
    | none => simpa [standing, hs, hd] using Standing.Next.bare
    | some s => simpa [standing, hs, hd] using Standing.Next.waits
  | switch hs h =>
    refine ⟨fun _ => sound (by simp [hs]), ?_⟩
    simpa [standing, hs] using Standing.Next.holds (by simp [Transport.accepts])

theorem sound_stateFrom (qs : List Request) (sound : Sound t) :
    Sound ((transport net res).stateFrom t qs) := by
  refine Transport.stateFrom_invariant Sound (fun q s sound => ?_) qs sound
  exact ((serve_served net res s q).next net sound).1

/-! ### The life of a socket -/

section
variable (T : Transport (Tcp ρ ω)) (t : Tcp ρ ω) (given : List (String × Setting))

/-- There is no socket behind the requests `before`, and one that is connecting behind each of those
    that follow. -/
structure Dialling (before waiting : List Request) : Prop where
  bare : (T.stateFrom t before).socket? = none
  connecting : ∀ ps, ps <+: waiting → ps ≠ [] →
    (T.stateFrom t (before ++ ps)).stream = none ∧
      (T.stateFrom t (before ++ ps)).dialling.isSome = true

/-- The socket has connected at last, and was there ever since. -/
structure Tenure (before waiting : List Request) (arrival : Request) (since : List Request) :
    Prop where
  dialling : Dialling T t before waiting
  connected : ∀ ps, ps <+: since →
    (T.stateFrom t (before ++ waiting ++ arrival :: ps)).stream.isSome = true

/-- What has led to a standing, and to the switch of the socket: the options that were accepted
    before the socket was created, and since it has connected. -/
def Told (qs : List Request) : Standing → Prop
  | .bare => True
  | .connecting s => ∃ before waiting, qs = before ++ waiting ∧ Dialling T t before waiting ∧
      keepAliveIn (given ++ T.acceptedFrom t before) false = .truth s.keepAlive
  | .connected s => ∃ before waiting arrival since,
      qs = before ++ waiting ++ arrival :: since ∧ Tenure T t before waiting arrival since ∧
        keepAliveIn (given ++ T.acceptedFrom t before ++
          T.acceptedFrom (T.stateFrom t (before ++ waiting ++ [arrival])) since) false =
            .truth s.keepAlive

variable {T t given} {before waiting since : List Request} {arrival : Request} {s s' : Socket}

theorem Dialling.start (bare : (T.stateFrom t before).socket? = none) : Dialling T t before [] where
  bare := bare
  connecting _ initial some := absurd (List.prefix_nil.mp initial) some

theorem Dialling.snoc (dialling : Dialling T t before waiting)
    (last : standing (T.stateFrom t (before ++ (waiting ++ [q]))) = .connecting s) :
    Dialling T t before (waiting ++ [q]) where
  bare := dialling.bare
  connecting ps initial some := by
    rcases List.prefix_concat_iff.mp initial with rfl | earlier
    · obtain ⟨stream, connecting⟩ := standing_eq_connecting.mp last
      exact ⟨stream, by simp [connecting]⟩
    · exact dialling.connecting ps earlier some

theorem Tenure.start (dialling : Dialling T t before waiting)
    (last : standing (T.stateFrom t (before ++ waiting ++ [q])) = .connected s) :
    Tenure T t before waiting q [] where
  dialling := dialling
  connected ps initial := by
    rw [List.prefix_nil.mp initial, standing_eq_connected.mp last]
    rfl

theorem Tenure.snoc (tenure : Tenure T t before waiting arrival since)
    (last : standing (T.stateFrom t (before ++ waiting ++ arrival :: (since ++ [q]))) = .connected s) :
    Tenure T t before waiting arrival (since ++ [q]) where
  dialling := tenure.dialling
  connected ps initial := by
    rcases List.prefix_concat_iff.mp initial with rfl | earlier
    · rw [standing_eq_connected.mp last]
      rfl
    · exact tenure.connected ps earlier

end

section
variable {given : List (String × Setting)} {qs : List Request}

/-- **Step**: what is told of a socket goes on with each request. -/
theorem Told.snoc
    (option : keepAliveIn (given ++ (transport net res).acceptedFrom t qs) false =
      .truth (((transport net res).stateFrom t qs).keepAlive.getD false))
    (sound : Sound ((transport net res).stateFrom t qs))
    (told : Told (transport net res) t given qs (standing ((transport net res).stateFrom t qs)))
    (q : Request) :
    Told (transport net res) t given (qs ++ [q])
      (standing ((transport net res).stateFrom t (qs ++ [q]))) := by
  have next := ((serve_served net res ((transport net res).stateFrom t qs) q).next net sound).2
  rw [← Transport.stateFrom_singleton, ← Transport.stateFrom_append,
    ← Transport.acceptedFrom_singleton] at next
  generalize hb : standing ((transport net res).stateFrom t (qs ++ [q])) = b at next ⊢
  generalize ha : standing ((transport net res).stateFrom t qs) = a at next told
  cases next with
  | bare => trivial
  | dials nothing =>
    have start := Dialling.start (standing_eq_bare.mp ha)
    exact ⟨qs, [q], rfl, start.snoc hb, option⟩
  | connects nothing =>
    have start := Dialling.start (standing_eq_bare.mp ha)
    refine ⟨qs, [], q, [], by simp, .start start (by simpa using hb), ?_⟩
    simpa using option
  | waits =>
    obtain ⟨before, waiting, rfl, dialling, switch⟩ := told
    refine ⟨before, waiting ++ [q], by simp, dialling.snoc (by simpa using hb), switch⟩
  | arrives nothing =>
    obtain ⟨before, waiting, rfl, dialling, switch⟩ := told
    refine ⟨before, waiting, q, [], rfl, .start dialling hb, ?_⟩
    simpa using switch
  | holds switched =>
    obtain ⟨before, waiting, arrival, since, rfl, tenure, switch⟩ := told
    refine ⟨before, waiting, arrival, since ++ [q], by simp, tenure.snoc (by simpa using hb), ?_⟩
    rw [Transport.acceptedFrom_append, ← List.append_assoc, keepAliveIn_append switch]
    rw [← Transport.stateFrom_append]
    simpa using switched

/-- **Run**: of a socket that is there behind a run of requests, its whole life is told. -/
theorem told_stateFrom
    (option : ∀ qs, keepAliveIn (given ++ (transport net res).acceptedFrom t qs) false =
      .truth (((transport net res).stateFrom t qs).keepAlive.getD false))
    (new : t.stream = none ∧ t.dialling = none) (qs : List Request) :
    Told (transport net res) t given qs (standing ((transport net res).stateFrom t qs)) := by
  have sound (qs : List Request) : Sound ((transport net res).stateFrom t qs) :=
    sound_stateFrom net res qs (fun held => absurd held (by simp [new.1]))
  have goesOn (later earlier : List Request)
      (told : Told (transport net res) t given earlier
        (standing ((transport net res).stateFrom t earlier))) :
      Told (transport net res) t given (earlier ++ later)
        (standing ((transport net res).stateFrom t (earlier ++ later))) := by
    induction later generalizing earlier with
    | nil => simpa using told
    | cons q later ih =>
      rw [List.append_cons]
      exact ih (earlier ++ [q]) (told.snoc net res (option earlier) (sound earlier) q)
  have start : standing t = .bare := by simp [standing, new.1, new.2]
  have first : Told (transport net res) t given [] (standing t) := by
    rw [start]
    trivial
  exact goesOn qs [] first

end

/-! ### The network's side -/

/-- The network agrees about the switch of the socket. -/
def Agreed (isOn : ω → Bool) (t : Tcp ρ ω) : Prop :=
  ∀ s, t.socket? = some s → isOn t.network = s.keepAlive

theorem agreed_of_bare {isOn : ω → Bool} (bare : t.socket? = none) : Agreed isOn t := by
  intro s held
  rw [bare] at held
  simp at held

/-- **Step**: network and socket agree behind a request if they did before. -/
theorem Served.agreed {isOn : ω → Bool} (law : net.Keeps isOn) (served : Served net t q a u)
    (sound : Sound t) (agreed : Agreed isOn t) : Agreed isOn u := by
  cases served with
  | establish polled =>
    cases polled with
    | looked | already => exact agreed
    | failed => exact agreed_of_bare rfl
    | pending hs h =>
      have bare := sound.bare (by simp [hs])
      intro s held
      refine law.pollConnect (fun old hd => agreed old ?_) h s (by simpa [socket?, bare] using held)
      simpa [socket?, bare] using hd
    | connected hs h =>
      have bare := sound.bare (by simp [hs])
      intro s held
      refine law.pollConnect (fun old hd => agreed old ?_) h s (by simpa [socket?] using held)
      simpa [socket?, bare] using hd
  | close => exact agreed_of_bare rfl
  | readNothing | writeNothing | keep | refuse | retrieve => exact agreed
  | read => exact fun s held => (law.receive _ _).trans (agreed s held)
  | write => exact fun s held => (law.send _ _).trans (agreed s held)
  | @switch on socket w hs h =>
    intro s held
    have set := law.sets on t.network (by simp [h])
    obtain rfl : { socket with keepAlive := on } = s := by simpa [socket?] using held
    simpa [h] using set
  | @switchFails on w cause hs h =>
    intro s held
    have same := law.refuses on t.network cause (by simp [h])
    rw [h] at same
    exact same.trans (agreed s held)

theorem agreed_stateFrom {isOn : ω → Bool} (law : net.Keeps isOn) (qs : List Request)
    (sound : Sound t) (agreed : Agreed isOn t) :
    Agreed isOn ((transport net res).stateFrom t qs) := by
  have both : Sound ((transport net res).stateFrom t qs) ∧
      Agreed isOn ((transport net res).stateFrom t qs) := by
    refine Transport.stateFrom_invariant (fun s => Sound s ∧ Agreed isOn s) (fun q s kept => ?_) qs
      ⟨sound, agreed⟩
    have served := serve_served net res s q
    exact ⟨(served.next net kept.1).1, served.agreed net law kept.1 kept.2⟩
  exact both.2

/-! ### The theorem -/

/-- A transport that was made has just the options it was made with. -/
theorem puts_create {resolver : ρ} {network : ω} {endpoint : Endpoint}
    (made : (create net res resolver network endpoint).result = .ok t) :
    (Stock.new .none true).puts endpoint.options.entries = some (stock t) := by
  unfold create at made
  split at made
  · simp at made
  · exact (keeps net res).configured made

/-- What a transport that was made with options has behind a run of requests: what it was made with,
    with what was accepted put behind it. -/
theorem puts_stateFrom {resolver : ρ} {network : ω} {endpoint : Endpoint}
    (made : (create net res resolver network endpoint).result = .ok t) (qs : List Request) :
    (Stock.new .none true).puts
        (endpoint.options.entries ++ (transport net res).acceptedFrom t qs) =
      some (stock ((transport net res).stateFrom t qs)) := by
  rw [Stock.puts_append, puts_create net res made, Option.bind_some, (keeps net res).serveAll]

/-- **The switch of a stream.** Take any TCP transport that was made, and any run of requests to it.
    It reports the keepalive option that was accepted last. If there is a stream, its switch is the
    last keepalive option of those that were accepted before this socket was created and since it has
    connected, and off without any; so it is the one that was accepted last if none was accepted while
    the socket was connecting. The network agrees, if it keeps the switch. -/
theorem switch_of_stream {resolver : ρ} {network : ω} {endpoint : Endpoint}
    (made : (create net res resolver network endpoint).result = .ok t) (qs : List Request) :
    let T := transport net res
    let given := endpoint.options.entries
    let u := T.stateFrom t qs
    (retrieve u).get? optionNames.keepAlive =
        (Settings.mk (given ++ T.acceptedFrom t qs)).get? optionNames.keepAlive ∧
    ∀ s, u.stream = some s →
      (∃ before waiting arrival since, qs = before ++ waiting ++ arrival :: since ∧
        Tenure T t before waiting arrival since ∧
        keepAliveIn (given ++ T.acceptedFrom t before ++
          T.acceptedFrom (T.stateFrom t (before ++ waiting ++ [arrival])) since) false =
            .truth s.keepAlive ∧
        ((∀ value, (optionNames.keepAlive, value) ∉
            T.acceptedFrom (T.stateFrom t before) (waiting ++ [arrival])) →
          keepAliveIn (given ++ T.acceptedFrom t qs) false = .truth s.keepAlive)) ∧
      ∀ isOn, net.Keeps isOn → isOn u.network = s.keepAlive := by
  intro T given u
  have new : t.stream = none ∧ t.dialling = none := by
    rw [create_fresh net res made]
    exact ⟨rfl, rfl⟩
  have fit := Stock.fit_new .none true
  have option (qs : List Request) : keepAliveIn (given ++ T.acceptedFrom t qs) false =
      .truth ((T.stateFrom t qs).keepAlive.getD false) :=
    Stock.keepAliveIn_of_puts fit (puts_stateFrom net res made qs)
  refine ⟨?_, fun s held => ⟨?_, fun isOn law => ?_⟩⟩
  · obtain ⟨-, -, reads⟩ := Stock.puts_spec fit (puts_stateFrom net res made qs)
    have last := reads optionNames.keepAlive
    have unset : (Stock.new .none true).lookup optionNames.keepAlive = none := rfl
    rw [← Stock.get?_entries, unset, Option.or_none] at last
    exact last
  · have told := told_stateFrom net res option new qs
    rw [standing_eq_connected.mpr held] at told
    obtain ⟨before, waiting, arrival, since, split, tenure, switch⟩ := told
    refine ⟨before, waiting, arrival, since, split, tenure, switch, fun nothing => ?_⟩
    have parts : T.acceptedFrom t qs = T.acceptedFrom t before ++
        (T.acceptedFrom (T.stateFrom t before) (waiting ++ [arrival]) ++
          T.acceptedFrom (T.stateFrom t (before ++ waiting ++ [arrival])) since) := by
      rw [split, List.append_cons, List.append_assoc before, List.append_assoc,
        Transport.acceptedFrom_append, Transport.acceptedFrom_append, ← Transport.stateFrom_append]
    rw [parts, ← List.append_assoc, ← List.append_assoc, keepAliveIn_skip nothing]
    exact switch
  · have sound : Sound t := fun held => absurd held (by simp [new.1])
    have bare : t.socket? = none := by simp [socket?, new.1, new.2]
    have agreed := agreed_stateFrom net res law qs sound (agreed_of_bare bare)
    exact agreed s (by rw [socket?, held]; rfl)

/-- A transport on a network that takes its time to connect. -/
def slow : Transport.Creation (Tcp Script.Lookups Mailbox) :=
  create Mailbox.prompt Script.resolver [.ok (some Tls.OverTcp.listener)] .empty (.of "h" 443)

/-- An option that is set before the open is in force behind it. -/
theorem switch_of_stream_slow :
    ∃ t s, slow.result = .ok t ∧
      let u := (transport Mailbox.prompt Script.resolver).stateFrom t
        [.setOption "tcp_keepalive" (.truth true), .establish ⟨"rx"⟩, .establish ⟨"rx"⟩,
          .establish ⟨"rx"⟩]
      u.stream = some s ∧ u.network.keepAlive = s.keepAlive ∧ s.keepAlive = true := by
  obtain ⟨t, s, made, held, on⟩ : ∃ t s, slow.result = .ok t ∧
      ((transport Mailbox.prompt Script.resolver).stateFrom t
        [.setOption "tcp_keepalive" (.truth true), .establish ⟨"rx"⟩, .establish ⟨"rx"⟩,
          .establish ⟨"rx"⟩]).stream = some s ∧ s.keepAlive = true := by
    exact ⟨_, ⟨Tls.OverTcp.listener, true⟩, rfl, by decide, rfl⟩
  obtain ⟨-, told⟩ := switch_of_stream Mailbox.prompt Script.resolver made
    [.setOption "tcp_keepalive" (.truth true), .establish ⟨"rx"⟩, .establish ⟨"rx"⟩,
      .establish ⟨"rx"⟩]
  exact ⟨t, s, made, held, (told s held).2 _ Mailbox.prompt_keeps, on⟩

/-- An option that is set while the socket is connecting is accepted and reported, but the stream
    goes without it. -/
theorem switch_left_behind :
    ∃ t, slow.result = .ok t ∧
      let T := transport (ρ := Script.Lookups) Mailbox.prompt Script.resolver
      let qs : List Request := [.establish ⟨"rx"⟩, .establish ⟨"rx"⟩,
        .setOption "tcp_keepalive" (.truth true), .establish ⟨"rx"⟩]
      let u := T.stateFrom t qs
      T.acceptedFrom t qs = [("tcp_keepalive", .truth true)] ∧
        (retrieve u).get? "tcp_keepalive" = some (.truth true) ∧
        u.stream = some ⟨Tls.OverTcp.listener, false⟩ ∧ u.network.keepAlive = false := by
  refine ⟨_, rfl, ?_⟩
  decide

end PolledConnection.Tcp
