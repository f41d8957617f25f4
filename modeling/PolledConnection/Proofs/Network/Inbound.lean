import PolledConnection.Network.Dial
import PolledConnection.Network.Mailbox

/-! # What comes in from a peer

  Whoever knows the peer of a socket sees more than a read tells: what the peer
  has written, how much of it has arrived, how much of that was read, and
  whether the peer has ended its stream (`Inbound`). Time passes for this view
  in any call of the network, and between calls; then more may be written and
  may arrive, but nothing is read (`Idles`). A read answers what the view says
  at some moment during its call (`Read`).

  A network of which that is true carries the bytes of the peer in order, and
  the end of the stream behind them (`Network.Carries`). A mailbox does, for an
  onlooker who writes down what is read from it (`Observed.network_carries`).
-/

namespace PolledConnection

/-- What comes in through the socket that was created last. -/
structure Inbound where
  /-- What the peer has written. -/
  written : Bytes
  /-- What of it has arrived. -/
  arrived : Bytes
  /-- What of that was read. -/
  taken : Bytes
  /-- Whether the peer has ended the stream. -/
  isOver : Bool
  arrived_prefix : arrived <+: written
  taken_prefix : taken <+: arrived

namespace Inbound

variable {s t u : Inbound}

/-- A view of the same socket at a later time. Behind its end the peer writes nothing. -/
structure Grows (s t : Inbound) : Prop where
  written : s.written <+: t.written
  arrived : s.arrived <+: t.arrived
  taken : s.taken <+: t.taken
  ended : s.isOver = true → t.isOver = true ∧ t.written = s.written

/-- A later view, and nothing was read in between. -/
structure Idles (s t : Inbound) : Prop where
  grows : s.Grows t
  taken : t.taken = s.taken

theorem Grows.refl : s.Grows s where
  written := List.prefix_refl _
  arrived := List.prefix_refl _
  taken := List.prefix_refl _
  ended h := ⟨h, rfl⟩

theorem Grows.trans (h₁ : s.Grows t) (h₂ : t.Grows u) : s.Grows u where
  written := h₁.written.trans h₂.written
  arrived := h₁.arrived.trans h₂.arrived
  taken := h₁.taken.trans h₂.taken
  ended h := by
    obtain ⟨still, same⟩ := h₁.ended h
    obtain ⟨last, same'⟩ := h₂.ended still
    exact ⟨last, same'.trans same⟩

theorem Idles.refl : s.Idles s := ⟨.refl, rfl⟩

theorem Idles.trans (h₁ : s.Idles t) (h₂ : t.Idles u) : s.Idles u :=
  ⟨h₁.grows.trans h₂.grows, h₂.taken.trans h₁.taken⟩

/-- Where all that was written was read, that stays so behind the end of the stream. -/
theorem Idles.all_taken (h : s.Idles t) (isOver : s.isOver = true) (all : s.taken = s.written) :
    t.isOver = true ∧ t.taken = t.written := by
  obtain ⟨still, same⟩ := h.grows.ended isOver
  exact ⟨still, by rw [h.taken, all, same]⟩

/-- What a read of up to a number of bytes may answer, and the view behind it. -/
inductive Read (limit : Nat) (s : Inbound) : Except IoFault (Option Bytes) → Inbound → Prop where
  /-- Nothing more has arrived. -/
  | nothing (all : s.taken = s.arrived) : Read limit s (.ok none) s
  /-- The stream is over, and all of it was read. -/
  | ended (isOver : s.isOver = true) (all : s.taken = s.written) : Read limit s (.ok (some [])) s
  /-- The next bytes are read. -/
  | some {bytes t} (nonempty : bytes ≠ []) (fits : bytes.length ≤ limit) (grows : s.Grows t)
      (taken : t.taken = s.taken ++ bytes) : Read limit s (.ok (some bytes)) t
  /-- The connection is broken. -/
  | fails {cause} : Read limit s (.error cause) s

end Inbound

namespace Network

variable {ω : Type} {net : Network ω} {view : ω → Inbound}

/-- The network carries the bytes of the peer in order, and the end of the stream behind them. Only
    finitely many arrive while reads follow each other. -/
structure Carries (net : Network ω) (view : ω → Inbound) : Prop where
  /-- Nothing was read from a new socket. -/
  create : ∀ w, (net.create w).1 = .ok () → (view (net.create w).2).taken = []
  setKeepAlive : ∀ on w, (view w).Idles (view (net.setKeepAlive on w).2)
  connect : ∀ peer w, (view w).Idles (view (net.connect peer w).2)
  isConnected : ∀ w, (view w).Idles (view (net.isConnected w).2)
  send : ∀ bytes w, (view w).Idles (view (net.send bytes w).2)
  discard : ∀ w, (view w).Idles (view (net.discard w))
  receive : ∀ limit w, 0 < limit → ∃ s t, (view w).Idles s ∧
    s.Read limit (net.receive limit w).1 t ∧ t.Idles (view (net.receive limit w).2)
  drains : ∀ limit w bytes, 0 < limit → (net.receive limit w).1 = .ok (some bytes) → bytes ≠ [] →
    net.backlog (net.receive limit w).2 < net.backlog w

/-- What is true of a new socket and stays true until it is connecting is true of one that was
    dialled. -/
theorem dial_invariant {P : ω → Prop}
    (create : ∀ w, (net.create w).1 = .ok () → P (net.create w).2)
    (set : ∀ on w, P w → P (net.setKeepAlive on w).2)
    (connect : ∀ peer w, P w → P (net.connect peer w).2)
    {peer : Address} {keepAlive : Bool} {w w' : ω} {socket : Socket} {note : Option Note}
    (h : net.dial peer keepAlive w = (.ok socket, note, w')) : P w' := by
  -- Each call that a successful dial makes has succeeded itself.
  unfold dial at h
  rcases hc : net.create w with ⟨_ | _, w₁⟩
  · simp [hc] at h
  have new : P w₁ := by simpa [hc] using create w
  rcases hk : (if keepAlive then net.setKeepAlive true w₁ else (.ok (), w₁)) with ⟨_ | _, w₂⟩
  · simp [hc, hk] at h
  have switched : P w₂ := by
    cases keepAlive with
    | false =>
      obtain ⟨-, rfl⟩ := Prod.mk.inj hk
      exact new
    | true =>
      have set' : net.setKeepAlive true w₁ = (.ok _, w₂) := hk
      simpa [set'] using set true w₁ new
  rcases hp : net.connect peer w₂ with ⟨_ | _, w₃⟩
  · simp [hc, hk, hp] at h
  have connecting : P w₃ := by simpa [hp] using connect peer w₂ switched
  obtain ⟨-, -, rfl⟩ : _ ∧ _ ∧ w₃ = w' := by simpa [hc, hk, hp] using h
  exact connecting

/-- **Step**: nothing is read from a socket while it is connecting. -/
theorem Carries.pollConnect (carries : net.Carries view) {slot socket : Option Socket}
    {peer : Address} {keepAlive : Bool} {w w' : ω} {answer : Except Fault Bool} {effects : List Effect}
    (new : slot.isSome = true → (view w).taken = [])
    (h : (net.pollConnect slot peer keepAlive).run w = ⟨(answer, socket), w', effects⟩)
    (held : socket.isSome = true) : (view w').taken = [] := by
  have asked (w : ω) (new : (view w).taken = []) : (view (net.isConnected w).2).taken = [] := by
    rw [(carries.isConnected w).taken, new]
  have outcome := congrArg (fun o => (o.answer.2, o.state)) h
  cases slot with
  | some s =>
    obtain ⟨-, rfl⟩ : some s = socket ∧ (net.isConnected w).2 = w' := by
      simpa [Network.pollConnect] using outcome
    exact asked w (new rfl)
  | none =>
    rcases hd : net.dial peer keepAlive w with ⟨_ | s, note, w₁⟩
    · obtain ⟨rfl, -⟩ : none = socket ∧ w₁ = w' := by simpa [Network.pollConnect, hd] using outcome
      simp at held
    · have dialled : (view w₁).taken = [] :=
        dial_invariant (P := fun w => (view w).taken = []) carries.create
          (fun on w new => by rw [(carries.setKeepAlive on w).taken, new])
          (fun peer w new => by rw [(carries.connect peer w).taken, new]) hd
      obtain ⟨-, rfl⟩ : some s = socket ∧ (net.isConnected w₁).2 = w' := by
        simpa [Network.pollConnect, hd] using outcome
      exact asked w₁ dialled

end Network

/-! ### Mailboxes -/

/-- A mailbox with an onlooker, who writes down what is read, and remembers how things stood when the
    socket was given back. -/
structure Observed where
  mailbox : Mailbox
  /-- What was read. -/
  taken : Bytes
  /-- What was left unread when the socket was given back, and whether the stream was over then. -/
  past : Option (Bytes × Bool)

namespace Observed

/-- Nothing is wanted, nothing has arrived, and nothing was read. -/
def empty : Observed := ⟨.empty, [], none⟩

/-- What is to be read, and whether the peer has ended the stream. -/
def rest (o : Observed) : Bytes × Bool := o.past.getD (o.mailbox.inbound, o.mailbox.inflow = .ended)

/-- What the onlooker knows. What is put into a mailbox was written and has arrived. -/
def view (o : Observed) : Inbound where
  written := o.taken ++ o.rest.1
  arrived := o.taken ++ o.rest.1
  taken := o.taken
  isOver := o.rest.2
  arrived_prefix := List.prefix_refl _
  taken_prefix := List.prefix_append ..

/-- Does something with the mailbox. -/
def within {α : Type} (step : NetworkStep Mailbox α) : NetworkStep Observed α := fun o =>
  ((step o.mailbox).1, { o with mailbox := (step o.mailbox).2 })

/-- The network of a mailbox, with its onlooker. A socket that was given back is not read. -/
def network : Network Observed where
  create o := within Mailbox.network.create { o with taken := [], past := none }
  setKeepAlive on := within (Mailbox.network.setKeepAlive on)
  startConnect peer := within (Mailbox.network.startConnect peer)
  takeError := within Mailbox.network.takeError
  peer := within Mailbox.network.peer
  read limit o :=
    match o.past with
    | some _ => (.error (.bare .notConnected), o)
    | none =>
      let (answer, m) := Mailbox.network.read limit o.mailbox
      (answer, { o with
        mailbox := m
        taken := match answer with
          | .ok bytes => o.taken ++ bytes
          | .error _ => o.taken })
  write bytes := within (Mailbox.network.write bytes)
  discard o := { o with mailbox := Mailbox.network.discard o.mailbox, past := some o.rest }
  backlog o := Mailbox.network.backlog o.mailbox

/-- Something is done to the mailbox that leaves what comes in alone. -/
theorem idles_of_inbound {o : Observed} {m : Mailbox} (inbound : m.inbound = o.mailbox.inbound)
    (inflow : m.inflow = o.mailbox.inflow) : o.view.Idles ({ o with mailbox := m } : Observed).view := by
  have same : ({ o with mailbox := m } : Observed).view = o.view := by
    simp [view, rest, inbound, inflow]
  rw [same]
  exact .refl

theorem inbound_write (bytes : Bytes) (m : Mailbox) :
    (Mailbox.write bytes m).2.inbound = m.inbound ∧ (Mailbox.write bytes m).2.inflow = m.inflow := by
  cases h : m.inflow <;> simp [Mailbox.write, h]

section
variable {m : Mailbox} {taken : Bytes} (limit : Nat)

theorem receive_empty (empty : m.inbound = []) :
    network.receive limit ⟨m, taken, none⟩ =
      (match m.inflow with
        | .flowing => .ok none
        | .ended => .ok (some [])
        | .broken cause => if cause.isTransient then .ok none else .error cause,
        ⟨m, taken, none⟩) := by
  cases flow : m.inflow with
  | flowing | ended =>
    simp [Network.receive, network, Mailbox.network, Mailbox.read, empty, flow, IoFault.isTransient,
      IoFault.kind, SystemError.kind]
  | broken cause =>
    cases again : cause.isTransient <;>
      simp [Network.receive, network, Mailbox.network, Mailbox.read, empty, flow, again]

theorem receive_some (arrived : m.inbound ≠ []) :
    network.receive limit ⟨m, taken, none⟩ =
      (.ok (some (m.inbound.take limit)),
        ⟨{ m with inbound := m.inbound.drop limit }, taken ++ m.inbound.take limit, none⟩) := by
  simp [Network.receive, network, Mailbox.network, Mailbox.read, arrived]

theorem receive_past (left : Bytes × Bool) :
    network.receive limit ⟨m, taken, some left⟩ =
      (.error (.bare .notConnected), ⟨m, taken, some left⟩) := rfl

/-- A read tells of the onlooker's view, and no time passes in it. -/
theorem read_receive (o : Observed) (positive : 0 < limit) :
    o.view.Read limit (network.receive limit o).1 (network.receive limit o).2.view := by
  rcases o with ⟨m, taken, _ | left⟩
  · by_cases empty : m.inbound = []
    · rw [receive_empty limit empty]
      cases flow : m.inflow with
      | flowing => exact .nothing (by simp [view, rest, empty])
      | ended => exact .ended (by simp [view, rest, flow]) (by simp [view, rest, empty])
      | broken cause =>
        show Inbound.Read limit _ (if cause.isTransient = true then .ok none else .error cause) _
        split
        · exact .nothing (by simp [view, rest, empty])
        · exact .fails
    · -- What is read goes from what is left to what was taken, so the sum stays.
      rw [receive_some limit empty]
      have written : taken ++ m.inbound.take limit ++ m.inbound.drop limit = taken ++ m.inbound := by
        rw [List.append_assoc, List.take_append_drop]
      refine .some ?_ (List.length_take_le ..) ⟨?_, ?_, List.prefix_append .., ?_⟩ rfl
      · simp only [ne_eq, List.take_eq_nil_iff, not_or]
        exact ⟨by omega, empty⟩
      · simp [view, rest, written]
      · simp [view, rest, written]
      · intro isOver
        exact ⟨isOver, written⟩
  · exact .fails

/-- The network of a mailbox carries what is put into the mailbox. -/
theorem network_carries : network.Carries view where
  create o _ := rfl
  setKeepAlive on o := idles_of_inbound rfl rfl
  connect peer o := by
    rw [Network.connect_after]
    exact idles_of_inbound rfl rfl
  isConnected o := by
    rcases Network.isConnected_after network o with h | h <;> rw [h] <;> exact idles_of_inbound rfl rfl
  send bytes o := by
    rw [Network.send_after]
    exact idles_of_inbound (inbound_write bytes o.mailbox).1 (inbound_write bytes o.mailbox).2
  discard o := .refl
  receive limit o positive := ⟨_, _, .refl, read_receive limit o positive, .refl⟩
  drains limit o bytes positive answer nonempty := by
    rcases o with ⟨m, taken, _ | left⟩
    · by_cases empty : m.inbound = []
      · rw [receive_empty limit empty] at answer
        cases flow : m.inflow with
        | flowing => simp [flow] at answer
        | broken cause => cases again : cause.isTransient <;> simp [flow, again] at answer
        | ended =>
          obtain rfl : [] = bytes := by simpa [flow] using answer
          contradiction
      · have length := List.length_pos_iff.mpr empty
        rw [receive_some limit empty]
        simp only [network, Mailbox.network, List.length_drop]
        omega
    · simp [receive_past] at answer

end

/-- What the carrier does to the mailbox. -/
def carrier (f : Mailbox → Mailbox) (o : Observed) : Observed := { o with mailbox := f o.mailbox }

/-- The carrier may settle the connect, put in bytes that have arrived, and tell that the stream has
    ended; for the onlooker time passes. -/
theorem carrier_settle (result : Except IoFault Unit) (o : Observed) :
    o.view.Idles (carrier (Mailbox.settle result) o).view := by
  have same : (o.mailbox.settle result).inbound = o.mailbox.inbound ∧
      (o.mailbox.settle result).inflow = o.mailbox.inflow := by
    unfold Mailbox.settle
    split <;> exact ⟨rfl, rfl⟩
  exact idles_of_inbound same.1 same.2

theorem carrier_arrive (bytes : Bytes) (o : Observed) :
    o.view.Idles (carrier (Mailbox.arrive bytes) o).view := by
  rcases o with ⟨m, taken, past⟩
  cases past with
  -- The socket was given back, and the onlooker knows of nothing behind that.
  | some left => exact .refl
  | none =>
    cases flow : m.inflow with
    | flowing =>
      refine ⟨⟨?_, ?_, List.prefix_refl _, ?_⟩, rfl⟩
      · simp [view, rest, carrier, Mailbox.arrive, flow]
      · simp [view, rest, carrier, Mailbox.arrive, flow]
      · simp [view, rest, flow]
    | ended | broken =>
      have same : Mailbox.arrive bytes m = m := by simp [Mailbox.arrive, flow]
      exact idles_of_inbound (by rw [same]) (by rw [same])

theorem carrier_finish (o : Observed) : o.view.Idles (carrier (Mailbox.finish .ended) o).view := by
  rcases o with ⟨m, taken, past⟩
  cases past with
  | some left => exact .refl
  | none =>
    refine ⟨⟨List.prefix_refl _, List.prefix_refl _, List.prefix_refl _, fun _ => ⟨?_, rfl⟩⟩, rfl⟩
    simp [view, rest, carrier, Mailbox.finish]

end Observed

end PolledConnection
